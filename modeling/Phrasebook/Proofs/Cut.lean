import Mathlib.Data.List.TakeWhile

/-!
Cutting a text at the first character of a kind, as readers of names, keys and lines do.
-/

namespace Phrasebook.Text

variable {p : Char → Bool} {front : List Char} {stop : Char}

theorem takeWhile_cut (inside : ∀ c ∈ front, p c = true) (outside : p stop = false)
    (back : List Char) : (front ++ stop :: back).takeWhile p = front := by
  rw [List.takeWhile_append_of_pos inside, List.takeWhile_cons_of_neg (by simp [outside]),
    List.append_nil]

theorem dropWhile_cut (inside : ∀ c ∈ front, p c = true) (outside : p stop = false)
    (back : List Char) : (front ++ stop :: back).dropWhile p = stop :: back := by
  rw [List.dropWhile_append_of_pos inside, List.dropWhile_cons_of_neg (by simp [outside])]

theorem bne_of_not_mem (absent : stop ∉ front) : ∀ c ∈ front, (c != stop) = true := by
  intro c member
  rw [bne_iff_ne]
  rintro rfl
  exact absent member

theorem bne_self (c : Char) : (c != c) = false := by simp

end Phrasebook.Text
