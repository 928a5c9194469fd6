import Phrasebook.Proofs.Record
import Phrasebook.Proofs.TagOrder
import Phrasebook.Tag.Grammar

/-!
Tokens that users may write, put in to be shown. Each is shown as it was written, in the order of
the tags, unless it opens like a record: then it is read as one.
-/

namespace Phrasebook

namespace Tag

theorem map_concat_split (tokens : List String) : (tokens.map split).map concat = tokens := by
  rw [List.map_map]
  refine (List.map_congr_left ?_).trans (List.map_id _)
  intro s _
  exact concat_split s

theorem map_split_concat {ts : List Tag} (noColon : ∀ t ∈ ts, ':' ∉ t.key.toList) :
    (ts.map concat).map split = ts := by
  rw [List.map_map]
  refine (List.map_congr_left ?_).trans (List.map_id _)
  intro t member
  exact split_concat_of_noColon (noColon t member)

theorem split_of_parse {s : String} {t : Tag} (parsed : (parse s).value = .ok t) : split s = t := by
  simp only [parse] at parsed
  split at parsed
  · cases parsed
  · split at parsed
    · cases parsed
    · split at parsed
      · cases parsed
      · exact Except.ok.inj parsed

theorem parsePublic_eq_ok_iff {s : String} {t : Tag} :
    (parsePublic s).value = .ok t ↔ (parse s).value = .ok t ∧ t.key ∉ systemKeys := by
  have system (u : Tag) : u.isSystem = true ↔ u.key ∈ systemKeys := by simp [isSystem]
  rw [parsePublic, Logged.bind_value]
  cases (parse s).value with
  | error e => simp
  | ok u =>
    by_cases owned : u.key ∈ systemKeys
    · simp [(system u).mpr owned]
      rintro rfl
      exact owned
    · simp [mt (system u).mp owned]
      rintro rfl
      exact owned

end Tag

namespace TagCommand

theorem input_isOk_iff (s : String) :
    (∃ t, input s = .ok t) ↔ (StartsRecord s → ∃ item, TagItem.ofJsonText s = .ok item) := by
  by_cases starts : StartsRecord s
  · rw [input_of_record starts]
    cases TagItem.ofJsonText s <;> simp [starts, Except.map, Except.mapError]
  · simp [input_of_token starts, starts]

theorem run_user_isOk_iff (inputs : List String) :
    (∃ output, (run (.user inputs)).value = .ok output) ↔
      ∀ s ∈ inputs, StartsRecord s → ∃ item, TagItem.ofJsonText s = .ok item := by
  rw [run_user_value]
  simp only [← input_isOk_iff, ← Except.mapM_isOk_iff]
  cases inputs.mapM input <;> simp [Except.map]

/-- What is put in are records and tokens, and the tags are those of both. -/
theorem parted {inputs : List String} {ts : List Tag}
    (read : List.Forall₂ (fun s t => input s = .ok t) inputs ts) :
    ∃ items, List.Forall₂ (fun s item => TagItem.ofJsonText s = .ok item)
        (inputs.filter (StartsRecord ·)) items ∧
      ts.Perm ((inputs.filter (¬StartsRecord ·)).map Tag.split ++ items.map TagItem.tag) := by
  induction read with
  | nil => exact ⟨[], .nil, .nil⟩
  | @cons s t inputs ts first _ ih =>
    obtain ⟨items, others, perm⟩ := ih
    -- Both kinds keep their order among themselves, but a record passes all tokens.
    by_cases starts : StartsRecord s
    · rw [input_of_record starts, Except.mapError_eq_ok_iff, Except.map_eq_ok_iff] at first
      obtain ⟨item, read, rfl⟩ := first
      refine ⟨item :: items, ?_, ?_⟩
      · rw [List.filter_cons_of_pos (by simpa using starts)]
        exact .cons read others
      · rw [List.filter_cons_of_neg (by simpa using starts), List.map_cons]
        exact (perm.cons _).trans List.perm_middle.symm
    · rw [input_of_token starts] at first
      obtain rfl := Except.ok.inj first
      refine ⟨items, ?_, ?_⟩
      · rw [List.filter_cons_of_neg (by simpa using starts)]
        exact others
      · rw [List.filter_cons_of_pos (by simpa using starts)]
        exact perm.cons _

theorem isPublic_of_accepted {tokens : List String}
    (accepted : ∀ s ∈ tokens, ∃ t, (Tag.parsePublic s).value = .ok t) :
    ∀ t ∈ tokens.map Tag.split, t.isPublic = true := by
  intro t member
  obtain ⟨s, given, rfl⟩ := List.mem_map.mp member
  obtain ⟨t, taken⟩ := accepted s given
  obtain ⟨parsed, user⟩ := Tag.parsePublic_eq_ok_iff.mp taken
  rw [Tag.split_of_parse parsed]
  exact (Tag.isPublic_iff t).mpr user

/-- Whatever can be written by users is shown again as it was written, in the order of the tags,
unless it opens like a record. Then there must be a record, which is shown as its tag. -/
theorem user_of_accepted {tokens : List String}
    (accepted : ∀ s ∈ tokens, ∃ t, (Tag.parsePublic s).value = .ok t) :
    ((∀ s ∈ tokens, ¬StartsRecord s) →
      ∃ shown : List String, shown.Perm tokens ∧ (shown.map Tag.split).Pairwise Tag.InOrder ∧
        (run (.user tokens)).value = .ok ("\n".intercalate shown)) ∧
    ((∃ output, (run (.user tokens)).value = .ok output) ↔
      ∀ s ∈ tokens, StartsRecord s → ∃ item, TagItem.ofJsonText s = .ok item) ∧
    ∀ output, (run (.user tokens)).value = .ok output →
      ∃ (items : List TagItem) (shown : List Tag),
        List.Forall₂ (fun s item => TagItem.ofJsonText s = .ok item)
          (tokens.filter (StartsRecord ·)) items ∧
        shown.Perm ((tokens.filter (¬StartsRecord ·)).map Tag.split ++
          (items.map TagItem.tag).filter Tag.isPublic) ∧
        shown.Pairwise Tag.InOrder ∧ output = "\n".intercalate (shown.map Tag.concat) := by
  refine ⟨?_, run_user_isOk_iff tokens, ?_⟩
  · intro plain
    have chosen : (Tag.userTags (tokens.map Tag.split)).Perm (tokens.map Tag.split) := by
      have perm := Tag.userTags_perm (tokens.map Tag.split)
      rwa [List.filter_eq_self.mpr (isPublic_of_accepted accepted)] at perm
    have noColon : ∀ t ∈ Tag.userTags (tokens.map Tag.split), ':' ∉ t.key.toList := by
      intro t member
      obtain ⟨s, -, rfl⟩ := List.mem_map.mp (chosen.mem_iff.mp member)
      exact Tag.noColon_key_split s
    refine ⟨(Tag.userTags (tokens.map Tag.split)).map Tag.concat, ?_, ?_, run_user_of_tokens plain⟩
    · have perm := chosen.map Tag.concat
      rwa [Tag.map_concat_split] at perm
    · rw [Tag.map_split_concat noColon]
      exact Tag.userTags_ordered _
  · intro output done
    rw [run_user_value, Except.map_eq_ok_iff] at done
    obtain ⟨ts, read, rfl⟩ := done
    obtain ⟨items, records, perm⟩ := parted ((Except.mapM_eq_ok_iff input).mp read)
    have plain : ∀ t ∈ (tokens.filter (¬StartsRecord ·)).map Tag.split, t.isPublic = true :=
      isPublic_of_accepted fun s member => accepted s (List.mem_of_mem_filter member)
    refine ⟨items, Tag.userTags ts, records, ?_, Tag.userTags_ordered ts, rfl⟩
    have chosen := (Tag.userTags_perm ts).trans (perm.filter Tag.isPublic)
    rwa [List.filter_append, List.filter_eq_self.mpr plain] at chosen

/-- The token of a tag of users that can be read as a record of a tag of the system. -/
def sizeRecord : String := "\x7b\"key\":\"size\",\"value\":null\x7d"

theorem sizeRecord_read : TagItem.ofJsonText sizeRecord = .ok (.record ⟨"size", none⟩) := by
  have written : sizeRecord = splitText ⟨"size", none⟩ := by decide
  rw [written]
  exact TagItem.ofJsonText_text (.record ⟨"size", none⟩)

theorem draft_shown :
    (∀ s ∈ ["draft", sizeRecord], ∃ t, (Tag.parsePublic s).value = .ok t) ∧
    (run (.user ["draft", sizeRecord])).value = .ok "draft" := by
  have accepted : ∀ s ∈ ["draft", sizeRecord], ∃ t, (Tag.parsePublic s).value = .ok t := by
    simp only [List.forall_mem_cons]
    exact ⟨⟨.split "draft", by decide⟩, ⟨.split sizeRecord, by decide⟩, by simp⟩
  refine ⟨accepted, ?_⟩
  obtain ⟨-, ends, shows⟩ := user_of_accepted accepted
  have records : ["draft", sizeRecord].filter (StartsRecord ·) = [sizeRecord] := by decide
  have plain : (["draft", sizeRecord].filter (¬StartsRecord ·)).map Tag.split =
      [⟨"draft", none⟩] := by decide
  obtain ⟨output, done⟩ := ends.mpr (by
    simp only [List.forall_mem_cons]
    exact ⟨fun starts => absurd starts (by decide), fun _ => ⟨_, sizeRecord_read⟩, by simp⟩)
  obtain ⟨items, shown, read, perm, -, rfl⟩ := shows output done
  rw [records] at read
  cases read with
  | cons first none =>
    cases none
    rw [sizeRecord_read] at first
    obtain rfl := Except.ok.inj first
    rw [plain] at perm
    rw [done, List.perm_singleton.mp perm]
    rfl

/-- A token that opens like a record and is none. -/
theorem braced_refused :
    ¬∀ tokens : List String, (∀ s ∈ tokens, ∃ t, (Tag.parsePublic s).value = .ok t) →
      ∃ shown : List String, shown.Perm tokens ∧ (shown.map Tag.split).Pairwise Tag.InOrder ∧
        (run (.user tokens)).value = .ok ("\n".intercalate shown) := by
  intro allShown
  have accepted : (Tag.parsePublic "\x7bdraft").value = .ok (.split "\x7bdraft") := by decide
  have refused : ∃ fault, (run (.user ["\x7bdraft"])).value = .error fault := ⟨_, rfl⟩
  obtain ⟨shown, -, -, done⟩ := allShown ["\x7bdraft"] (by simp [accepted])
  obtain ⟨fault, failed⟩ := refused
  rw [failed] at done
  cases done

end TagCommand
end Phrasebook
