import Phrasebook.Proofs.Cut
import Phrasebook.Tag.Token

/-!
Tokens and tags. A token either has no colon and is a key, or it is cut at its first colon. Hence
every text is written again from the tag that it is split into, and a tag is read back from its
token exactly if its key has no colon: splitting and joining are inverse to each other between texts
and such tags. Of a key with a colon the token gives back what stands before the colon.
-/

namespace Phrasebook

namespace Tag

/-! ### Splitting -/

theorem split_of_noColon {token : String} (noColon : ':' ∉ token.toList) :
    split token = ⟨token, none⟩ := by
  have noRest : token.toList.dropWhile (· != ':') = [] :=
    List.dropWhile_eq_nil_iff.mpr (Text.bne_of_not_mem noColon)
  simp [split, noRest]

theorem split_cut {key : String} (noColon : ':' ∉ key.toList) (value : String) :
    split (key ++ ":" ++ value) = ⟨key, some value⟩ := by
  have plain := Text.bne_of_not_mem noColon
  have spelled : (key ++ ":" ++ value).toList = key.toList ++ ':' :: value.toList := by simp
  have front := Text.takeWhile_cut plain (Text.bne_self ':') value.toList
  have back := Text.dropWhile_cut plain (Text.bne_self ':') value.toList
  simp [split, spelled, front, back]

theorem token_cases (token : String) :
    ':' ∉ token.toList ∨ ∃ key value, ':' ∉ key.toList ∧ token = key ++ ":" ++ value := by
  by_cases colon : ':' ∈ token.toList
  · obtain ⟨front, back, spelled, first⟩ := List.eq_append_cons_of_mem colon
    refine .inr ⟨String.ofList front, String.ofList back, by simpa using first, ?_⟩
    apply String.toList_inj.mp
    simp [spelled]
  · exact .inl colon

theorem noColon_key_split (token : String) : ':' ∉ (split token).key.toList := by
  rcases token_cases token with noColon | ⟨key, value, noColon, rfl⟩
  · rw [split_of_noColon noColon]
    exact noColon
  · rw [split_cut noColon]
    exact noColon

/-! ### Splitting and joining -/

theorem concat_split (token : String) : (split token).concat = token := by
  rcases token_cases token with noColon | ⟨key, value, noColon, rfl⟩
  · rw [split_of_noColon noColon]
    rfl
  · rw [split_cut noColon]
    rfl

theorem split_concat_of_noColon {t : Tag} (noColon : ':' ∉ t.key.toList) :
    split t.concat = t := by
  obtain ⟨key, value?⟩ := t
  cases value? with
  | none => exact split_of_noColon noColon
  | some value => exact split_cut noColon value

theorem split_concat_iff (t : Tag) : split t.concat = t ↔ ':' ∉ t.key.toList := by
  constructor
  · intro readBack
    rw [← readBack]
    exact noColon_key_split t.concat
  · exact split_concat_of_noColon

/-- The key that is read back from a token is the one that the key alone is read as. -/
theorem key_split_concat (t : Tag) : (split t.concat).key = (split t.key).key := by
  rcases token_cases t.key with noColon | ⟨key, rest, noColon, spelled⟩
  · rw [split_concat_of_noColon noColon, split_of_noColon noColon]
  · have cut : ∃ more, t.concat = key ++ ":" ++ more := by
      unfold concat
      cases t.value? with
      | none => exact ⟨rest, spelled⟩
      | some value => exact ⟨rest ++ ":" ++ value, by simp [spelled, String.append_assoc]⟩
    obtain ⟨more, written⟩ := cut
    rw [written, spelled, split_cut noColon, split_cut noColon]

/-! ### Other ways to write and to compare -/

theorem shown_eq_concat (t : Tag) : t.shown = t.concat := by
  unfold shown concat
  cases t.value? with
  | none => simp
  | some value => simp [String.append_assoc]

theorem isWritten_iff (t : Tag) (text : String) : t.isWritten text = true ↔ t.concat = text := by
  rw [isWritten, shown_eq_concat, beq_iff_eq]

/-- Texts and tags without colon in their keys stand for each other, and all ways to read, to show
and to compare agree on it. -/
theorem split_concat_inverse :
    (∀ text : String, (split text).concat = text ∧ ':' ∉ (split text).key.toList ∧
      read text = .ok (split text) ∧
      (TagItem.token text).text = text ∧ (TagItem.token text).tag = split text) ∧
    ∀ t : Tag, (split t.concat = t ↔ ':' ∉ t.key.toList) ∧
      t.shown = t.concat ∧ (TagItem.record t).text = t.concat ∧
      (':' ∉ t.key.toList → ∀ text, t.isWritten text = true ↔ t = split text) := by
  constructor
  · intro text
    exact ⟨concat_split text, noColon_key_split text, rfl, rfl, rfl⟩
  · intro t
    refine ⟨split_concat_iff t, shown_eq_concat t, rfl, ?_⟩
    intro noColon text
    rw [isWritten_iff]
    constructor
    · rintro rfl
      exact (split_concat_of_noColon noColon).symm
    · rintro rfl
      exact concat_split text

theorem place_written :
    ':' ∉ "place".toList ∧
    (⟨"place", some "Lisbon:Alfama"⟩ : Tag).isWritten "place:Lisbon:Alfama" = true := by
  have noColon : ':' ∉ "place".toList := by decide
  have same : (⟨"place", some "Lisbon:Alfama"⟩ : Tag) = split "place:Lisbon:Alfama" := by decide
  exact ⟨noColon,
    ((split_concat_inverse.2 ⟨"place", some "Lisbon:Alfama"⟩).2.2.2 noColon _).mpr same⟩

/-- A key with a colon is not read back. -/
example : split (concat ⟨"place:Lisbon", some "Alfama"⟩) = ⟨"place", some "Lisbon:Alfama"⟩ := by
  decide

end Tag
end Phrasebook
