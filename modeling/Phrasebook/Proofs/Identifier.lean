import Phrasebook.Document
import Phrasebook.Proofs.Cut
import Phrasebook.Proofs.Except

/-!
The names that a document gives to its entries and attributes. Each is a letter followed by letters,
digits, `_` and `-`, so no name has a dot, and the dot of a key can only be the one between a
message and an attribute.
-/

namespace Phrasebook.Fluent

def IsIdentifier (id : String) : Prop :=
  ∃ c cs, id.toList = c :: cs ∧ isIdStart c = true ∧ ∀ d ∈ cs, isIdChar d = true

theorem IsIdentifier.noDot {id : String} (named : IsIdentifier id) : '.' ∉ id.toList := by
  obtain ⟨c, cs, split, starts, spelled⟩ := named
  rw [split]
  intro member
  rcases List.mem_cons.mp member with rfl | later
  · exact absurd starts (by decide)
  · exact absurd (spelled '.' later) (by decide)

structure Entry.WellNamed (e : Entry) : Prop where
  id : IsIdentifier e.id
  attributes : ∀ a ∈ e.attributes, IsIdentifier a.name

theorem isIdentifier_of_identifier {cs rest : List Char} {id : String}
    (read : identifier cs = .ok (id, rest)) : IsIdentifier id := by
  cases cs with
  | nil => cases read
  | cons c r =>
    rw [identifier] at read
    split at read
    · next starts =>
      cases read
      refine ⟨c, r.takeWhile isIdChar, String.toList_ofList, starts, ?_⟩
      intro d member
      exact List.mem_takeWhile_imp member
    · cases read

/-! ### What readers give -/

theorem attributeBody_parts {cs rest : List Char} {a : Attribute}
    (read : attributeBody cs = .ok (a, rest)) :
    (∃ start left, identifier start = .ok (a.name, left)) ∧
      ∃ fuel start left, pattern fuel start = .ok (some a.value, left) := by
  obtain ⟨⟨name, r⟩, named, read⟩ := Except.bind_eq_ok_iff.mp read
  obtain ⟨s, -, read⟩ := Except.bind_eq_ok_iff.mp read
  obtain ⟨⟨value?, t⟩, valued, read⟩ := Except.bind_eq_ok_iff.mp read
  cases value? with
  | none => cases read
  | some value =>
    cases read
    exact ⟨⟨_, _, named⟩, _, _, _, valued⟩

theorem attributes_read (fuel : Nat) (cs : List Char) :
    ∀ a ∈ (attributes fuel cs).1, ∃ start rest, attributeBody start = .ok (a, rest) := by
  induction fuel generalizing cs with
  | zero => simp [attributes]
  | succ fuel ih =>
    intro a member
    rw [attributes] at member
    split at member
    · split at member
      · next first rest read =>
        rcases List.mem_cons.mp member with rfl | later
        · exact ⟨_, _, read⟩
        · exact ih rest a later
      · cases member
    · cases member

theorem entry_parts {cs rest : List Char} {e : Entry} (read : entry cs = .ok (e, rest)) :
    (∃ start left, identifier start = .ok (e.id, left)) ∧
      (∃ fuel start left, pattern fuel start = .ok (e.value?, left)) ∧
      ∀ a ∈ e.attributes, ∃ start left, attributeBody start = .ok (a, left) := by
  unfold entry at read
  split at read
  next kind start _ =>
    obtain ⟨⟨id, r⟩, named, read⟩ := Except.bind_eq_ok_iff.mp read
    obtain ⟨s, -, read⟩ := Except.bind_eq_ok_iff.mp read
    obtain ⟨⟨value?, t⟩, valued, read⟩ := Except.bind_eq_ok_iff.mp read
    have listed := attributes_read t.length (skipBlankLines t)
    cases kind with
    | message =>
      simp only at read
      split at read
      · cases read
      · cases read
        exact ⟨⟨_, _, named⟩, ⟨_, _, _, valued⟩, listed⟩
    | term =>
      simp only at read
      split at read
      · cases read
      · cases read
        exact ⟨⟨_, _, named⟩, ⟨_, _, _, valued⟩, listed⟩

theorem entry_wellNamed {cs rest : List Char} {e : Entry} (read : entry cs = .ok (e, rest)) :
    e.WellNamed := by
  obtain ⟨⟨_, _, named⟩, -, listed⟩ := entry_parts read
  refine ⟨isIdentifier_of_identifier named, ?_⟩
  intro a member
  obtain ⟨_, _, body⟩ := listed a member
  obtain ⟨⟨_, _, own⟩, -⟩ := attributeBody_parts body
  exact isIdentifier_of_identifier own

/-- Every entry of a document is one that the reader of entries gives. -/
theorem entries_read (source : List Char) (fuel : Nat) (cs : List Char) :
    ∀ e ∈ (entries source fuel cs).1, ∃ start rest, entry start = .ok (e, rest) := by
  fun_induction entries source fuel cs with
  | case1 => simp
  | case2 => simp
  | case3 fuel r ih => exact ih
  | case4 fuel cs _ _ e r read es fs rest ih =>
    rw [rest] at ih
    intro f member
    rcases List.mem_cons.mp member with rfl | later
    · exact ⟨cs, r, read⟩
    · exact ih f later
  | case5 fuel cs _ _ stop _ after es fs rest ih =>
    rw [rest] at ih
    exact ih

theorem document_read {source : String} {es : List Entry} (read : document source = .ok es) :
    ∀ e ∈ es, ∃ cs rest, entry cs = .ok (e, rest) := by
  have listed := entries_read source.toList (source.toList.length + 1)
    (skipBlankLines source.toList)
  unfold document at read
  simp only at read
  split at read
  · next given =>
    cases read
    rw [given] at listed
    exact listed
  · cases read

end Phrasebook.Fluent
