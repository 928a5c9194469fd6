import Mathlib.Data.List.DropRight
import Phrasebook.Text.Blank

/-!
Cutting blanks off both ends of a text. What is left neither starts nor ends with one, what was cut
off is nothing but blanks, and nothing is cut off a text without blanks at its ends.
-/

namespace Phrasebook.Text

/-- Without blanks at either end. -/
structure IsTrimmed (cs : List Char) : Prop where
  first : ∀ c, cs.head? = some c → isBlank c = false
  last : ∀ c, cs.getLast? = some c → isBlank c = false

instance (cs : List Char) : Decidable (IsTrimmed cs) :=
  decidable_of_iff (cs.head?.all (!isBlank ·) = true ∧ cs.getLast?.all (!isBlank ·) = true) <| by
    constructor
    · rintro ⟨first, last⟩
      exact ⟨by simpa [Option.all_eq_true] using first, by simpa [Option.all_eq_true] using last⟩
    · rintro ⟨first, last⟩
      exact ⟨by simpa [Option.all_eq_true] using first, by simpa [Option.all_eq_true] using last⟩

theorem trimRight_eq (cs : List Char) : trimRight cs = cs.rdropWhile isBlank := rfl

theorem trim_eq_nil_iff (cs : List Char) : trim cs = [] ↔ ∀ c ∈ cs, isBlank c = true := by
  rw [trim, trimRight, List.reverse_eq_nil_iff, List.dropWhile_eq_nil_iff, trimLeft]
  simp only [List.mem_reverse]
  constructor
  · intro afterBlanks
    by_contra notAll
    have front : cs.dropWhile isBlank ≠ [] := by
      rw [Ne, List.dropWhile_eq_nil_iff]
      exact notAll
    have first := List.head_dropWhile_not isBlank front
    rw [afterBlanks _ (List.head_mem front)] at first
    cases first
  · intro all c member
    exact all c ((List.dropWhile_suffix isBlank).subset member)

theorem allBlank_iff (s : String) : allBlank s = true ↔ trimmed s = "" := by
  rw [allBlank, List.all_eq_true, trimmed, ← trim_eq_nil_iff]
  constructor
  · intro nothing
    rw [nothing]
  · intro empty
    rw [← String.toList_ofList (l := trim s.toList), empty]
    rfl

theorem trimLeft_padded {before cs : List Char} (blank : ∀ c ∈ before, isBlank c = true)
    (first : ∀ c, cs.head? = some c → isBlank c = false) : trimLeft (before ++ cs) = cs := by
  rw [trimLeft, List.dropWhile_append_of_pos blank]
  cases cs with
  | nil => rfl
  | cons c r => exact List.dropWhile_cons_of_neg (by simp [first c rfl])

theorem trimRight_padded {after cs : List Char} (blank : ∀ c ∈ after, isBlank c = true)
    (last : ∀ c, cs.getLast? = some c → isBlank c = false) : trimRight (cs ++ after) = cs := by
  have turned : trimLeft (after.reverse ++ cs.reverse) = cs.reverse := by
    apply trimLeft_padded
    · simpa using blank
    · simpa using last
  rw [trimRight, List.reverse_append]
  exact List.reverse_eq_iff.mpr turned

/-- Blanks around a text are cut off, and no more than these. -/
theorem trim_padded {before after cs : List Char} (blankBefore : ∀ c ∈ before, isBlank c = true)
    (blankAfter : ∀ c ∈ after, isBlank c = true) (trimmed : IsTrimmed cs) :
    trim (before ++ cs ++ after) = cs := by
  cases cs with
  | nil =>
    rw [trim_eq_nil_iff]
    simpa [or_imp, forall_and] using ⟨blankBefore, blankAfter⟩
  | cons c r =>
    have first : ∀ d, (c :: r ++ after).head? = some d → isBlank d = false := trimmed.first
    rw [trim, List.append_assoc, trimLeft_padded blankBefore first,
      trimRight_padded blankAfter trimmed.last]

theorem first_of_dropWhile {cs : List Char} {c : Char}
    (first : (cs.dropWhile isBlank).head? = some c) : isBlank c = false := by
  have visible := List.head?_dropWhile_not isBlank cs
  rwa [first] at visible

theorem isTrimmed_trim (cs : List Char) : IsTrimmed (trim cs) := by
  constructor
  · intro c first
    -- The right end is cut last, and this keeps the first character of what is left.
    obtain ⟨r, spelled⟩ := List.rdropWhile_prefix isBlank (l := trimLeft cs)
    have first' : (cs.dropWhile isBlank).head? = some c := by
      rw [← trimLeft, ← spelled, List.head?_append, ← trimRight_eq, ← trim, first]
      rfl
    exact first_of_dropWhile first'
  · intro c last
    rw [trim, trimRight, List.getLast?_reverse] at last
    exact first_of_dropWhile last

theorem exists_padded (cs : List Char) : ∃ before after, (∀ c ∈ before, isBlank c = true) ∧
    (∀ c ∈ after, isBlank c = true) ∧ cs = before ++ trim cs ++ after := by
  refine ⟨cs.takeWhile isBlank, (trimLeft cs).rtakeWhile isBlank, ?_, ?_, ?_⟩
  · exact fun c member => List.mem_takeWhile_imp member
  · exact fun c member => List.mem_rtakeWhile_imp member
  · rw [List.append_assoc, trim, trimRight_eq, List.rdropWhile_append_rtakeWhile, trimLeft,
      List.takeWhile_append_dropWhile]

end Phrasebook.Text
