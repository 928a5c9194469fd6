import Mathlib.Data.List.Infix
import Phrasebook.Proofs.PublicTokens

/-!
The grammar of tokens. What is accepted has a key and none of the signs and words of queries, which
are looked for everywhere, also inside words; the tag is then the one that any text is split into.
All else is refused as a whole, and only a key of the system is refused by its name.
-/

namespace Phrasebook

theorem occursIn_iff {part cs : List Char} : occursIn part cs = true ↔ part <:+: cs := by
  induction cs with
  | nil => rw [occursIn, List.isEmpty_iff, List.infix_nil]
  | cons c r ih =>
    rw [occursIn, Bool.or_eq_true, List.isPrefixOf_iff_prefix, ih, List.infix_cons_iff]

namespace Tag

/-- What stands before the first colon, or all of a text without one. -/
def beforeColon (e : String) : String := String.ofList (e.toList.takeWhile (· != ':'))

theorem key_split (e : String) : (split e).key = beforeColon e := by
  rcases token_cases e with noColon | ⟨key, value, noColon, rfl⟩
  · have whole : e.toList.takeWhile (· != ':') = e.toList :=
      List.takeWhile_eq_self_iff.mpr (Text.bne_of_not_mem noColon)
    rw [split_of_noColon noColon, beforeColon, whole, String.ofList_toList]
  · have spelled : (key ++ ":" ++ value).toList = key.toList ++ ':' :: value.toList := by simp
    rw [split_cut noColon, beforeColon, spelled,
      Text.takeWhile_cut (Text.bne_of_not_mem noColon) (Text.bne_self ':'), String.ofList_toList]

theorem beforeColon_eq_empty_iff {e : String} :
    beforeColon e = "" ↔ e = "" ∨ e.toList.head? = some ':' := by
  have empty : beforeColon e = "" ↔ e.toList.takeWhile (· != ':') = [] := by
    rw [beforeColon, ← String.toList_inj, String.toList_ofList]
    rfl
  rw [empty, ← String.toList_inj]
  cases e.toList with
  | nil => simp
  | cons c r => by_cases colon : c = ':' <;> simp [colon]

/-- The texts of the grammar of tokens. -/
structure Writable (e : String) : Prop where
  notEmpty : e ≠ ""
  keyed : e.toList.head? ≠ some ':'
  noSign : ∀ c ∈ e.toList, c ≠ ';' ∧ c ≠ '(' ∧ c ≠ ')'
  noAnd : ¬"AND".toList <:+: e.toList
  noOr : ¬"OR".toList <:+: e.toList

theorem noSign_iff {cs : List Char} :
    cs.any querySigns.contains = false ↔ ∀ c ∈ cs, c ≠ ';' ∧ c ≠ '(' ∧ c ≠ ')' := by
  simp [querySigns]

theorem noWord_iff {cs : List Char} : queryWords.any (fun w => occursIn w.toList cs) = false ↔
    ¬"AND".toList <:+: cs ∧ ¬"OR".toList <:+: cs := by
  simp only [queryWords, List.any_cons, List.any_nil, Bool.or_false, Bool.or_eq_false_iff,
    ← occursIn_iff, Bool.not_eq_true]

theorem parse_of_writable {e : String} (writable : Writable e) :
    parse e = pure (.ok (split e)) := by
  have keyed : (split e).key.isEmpty = false := by
    rw [key_split, String.isEmpty_eq_false_iff]
    exact mt beforeColon_eq_empty_iff.mp (not_or.mpr ⟨writable.notEmpty, writable.keyed⟩)
  simp [parse, noSign_iff.mpr writable.noSign, noWord_iff.mpr ⟨writable.noAnd, writable.noOr⟩, keyed]

theorem parse_of_not_writable {e : String} (refused : ¬Writable e) :
    (parse e).value = .error (.invalid e) := by
  unfold parse
  simp only
  split
  · rfl
  · next noSign =>
    split
    · rfl
    · next noWord =>
      split
      · rfl
      · next keyed =>
        rw [Bool.not_eq_true] at noSign noWord
        rw [String.isEmpty_iff, key_split, beforeColon_eq_empty_iff, not_or] at keyed
        obtain ⟨noAnd, noOr⟩ := noWord_iff.mp noWord
        exact absurd ⟨keyed.1, keyed.2, noSign_iff.mp noSign, noAnd, noOr⟩ refused

theorem parse_eq_ok_iff {e : String} {t : Tag} :
    (parse e).value = .ok t ↔ Writable e ∧ t = split e := by
  by_cases writable : Writable e
  · simp [parse_of_writable writable, writable, eq_comm]
  · simp [parse_of_not_writable writable, writable]

theorem parse_eq_error_iff {e : String} {error : TagError} :
    (parse e).value = .error error ↔ ¬Writable e ∧ error = .invalid e := by
  by_cases writable : Writable e
  · simp [parse_of_writable writable, writable]
  · simp [parse_of_not_writable writable, writable, eq_comm]

theorem parsePublic_eq_error_iff {e : String} {error : TagError} :
    (parsePublic e).value = .error error ↔ ¬Writable e ∧ error = .invalid e ∨
      Writable e ∧ beforeColon e ∈ systemKeys ∧ error = .reserved (beforeColon e) := by
  rw [parsePublic, Logged.bind_value]
  by_cases writable : Writable e
  · have system : (split e).isSystem = true ↔ beforeColon e ∈ systemKeys := by
      simp [isSystem, key_split]
    simp only [parse_of_writable writable, Logged.pure_value, system, key_split]
    split
    · next owned => simp [writable, owned, eq_comm]
    · next free => simp [writable, free]
  · simp [parse_of_not_writable writable, writable, eq_comm]

end Tag

namespace TagCommand

open Tag hiding split

theorem run_strict (e : String) : (run (.split e true)).value =
    ((parsePublic e).value.map splitText).mapError .badTag := by
  unfold run
  rw [Logged.bind_value]
  cases (parsePublic e).value <;> rfl

theorem run_strict_eq_ok_iff {e output : String} : (run (.split e true)).value = .ok output ↔
    (∃ t, (parsePublic e).value = .ok t) ∧ (run (.split e false)).value = .ok output := by
  have plain : (run (.split e false)).value = .ok (splitText (Tag.split e)) := rfl
  have ofPublic {t : Tag} (accepted : (parsePublic e).value = .ok t) : t = Tag.split e :=
    (split_of_parse (parsePublic_eq_ok_iff.mp accepted).1).symm
  rw [run_strict, Except.mapError_eq_ok_iff, Except.map_eq_ok_iff, plain]
  constructor
  · rintro ⟨t, accepted, written⟩
    obtain rfl := ofPublic accepted
    exact ⟨⟨_, accepted⟩, congrArg Except.ok written⟩
  · rintro ⟨⟨t, accepted⟩, written⟩
    obtain rfl := ofPublic accepted
    cases written
    exact ⟨_, accepted, rfl⟩

theorem run_strict_eq_error_iff {e : String} {fault : CommandError} :
    (run (.split e true)).value = .error fault ↔
      ∃ error, (parsePublic e).value = .error error ∧ fault = .badTag error := by
  rw [run_strict]
  cases (parsePublic e).value <;> simp [Except.map, Except.mapError, eq_comm]

/-- A token is read as the tag that it is split into if the grammar has it, and is refused as it
stands if not; so what is read is written and read again. Users may write it unless its key is one
of the system, and it is by this key that it is refused then. A command that splits a token strictly
gives what it gives otherwise, or fails with the reason for which users may not write the token. -/
theorem parse_grammar (e : String) :
    (∀ t, (parse e).value = .ok t ↔ Writable e ∧ t = Tag.split e) ∧
    (∀ t, (parse e).value = .ok t → t.concat = e ∧ (parse t.concat).value = .ok t) ∧
    (∀ error, (parse e).value = .error error ↔ ¬Writable e ∧ error = .invalid e) ∧
    (∀ t, (parsePublic e).value = .ok t ↔
      (parse e).value = .ok t ∧ beforeColon e ∉ systemKeys) ∧
    (∀ error, (parsePublic e).value = .error error ↔ ¬Writable e ∧ error = .invalid e ∨
      Writable e ∧ beforeColon e ∈ systemKeys ∧ error = .reserved (beforeColon e)) ∧
    (∀ output, (run (.split e true)).value = .ok output ↔
      (∃ t, (parsePublic e).value = .ok t) ∧ (run (.split e false)).value = .ok output) ∧
    ∀ fault, (run (.split e true)).value = .error fault ↔
      ∃ error, (parsePublic e).value = .error error ∧ fault = .badTag error := by
  refine ⟨fun _ => parse_eq_ok_iff, ?_, fun _ => parse_eq_error_iff, ?_,
    fun _ => parsePublic_eq_error_iff, fun _ => run_strict_eq_ok_iff,
    fun _ => run_strict_eq_error_iff⟩
  · intro t accepted
    obtain ⟨-, rfl⟩ := parse_eq_ok_iff.mp accepted
    rw [concat_split]
    exact ⟨rfl, accepted⟩
  · intro t
    rw [parsePublic_eq_ok_iff]
    apply and_congr_right
    intro accepted
    obtain ⟨-, rfl⟩ := parse_eq_ok_iff.mp accepted
    rw [key_split]

/-- A key of the system may stand in a value, and words of queries count inside others. -/
example : (parsePublic "kind:size").value = .ok ⟨"kind", some "size"⟩ ∧
    (parse "BRAND:Acme").value = .error (.invalid "BRAND:Acme") := by decide

end TagCommand
end Phrasebook
