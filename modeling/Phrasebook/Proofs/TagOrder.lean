import Mathlib.Data.String.Basic
import Phrasebook.Tag.Selection

/-!
The order of tags, by keys first and then by values, and the tags of users in that order: none is
lost, none is added, and they are sorted. No other list is like this, since two tags that stand in
order both ways are one.
-/

namespace Phrasebook.Tag

/-- By key, then by value, a tag without value first. -/
def InOrder (s t : Tag) : Prop :=
  s.key < t.key ∨ s.key = t.key ∧ ∀ v, s.value? = some v → ∃ w, t.value? = some w ∧ v ≤ w

theorem isLE_compare_values (v? w? : Option String) :
    (compare v? w?).isLE = true ↔ ∀ v, v? = some v → ∃ w, w? = some w ∧ v ≤ w := by
  cases v? with
  | none =>
    have first : (compare none w?).isLE = true := by cases w? <;> rfl
    simp [first]
  | some v =>
    cases w? with
    | none =>
      have last : (compare (some v) none).isLE = false := rfl
      simp [last]
    | some w =>
      have values : (compare v w).isLE = true ↔ v ≤ w := Std.LawfulBCmp.isLE_iff_le
      have both : compare (some v) (some w) = compare v w := rfl
      simp [both, values]

theorem le_iff_inOrder (s t : Tag) : s.le t = true ↔ InOrder s t := by
  have split : compare s t = (compare s.key t.key).then (compare s.value? t.value?) := rfl
  rw [le, split, Ordering.isLE_then_iff_or, compare_lt_iff_lt, compare_eq_iff_eq,
    isLE_compare_values, InOrder]

instance : Std.TransOrd Tag :=
  inferInstanceAs (Std.TransCmp (compareLex (compareOn Tag.key) (compareOn Tag.value?)))

theorem le_trans (s t u : Tag) : s.le t = true → t.le u = true → s.le u = true :=
  Std.TransCmp.isLE_trans

theorem le_total (s t : Tag) : (s.le t || t.le s) = true := by
  have swapped : compare t s = (compare s t).swap := Std.OrientedCmp.eq_swap
  rw [le, le, swapped]
  cases compare s t <;> rfl

theorem mergeSort_ordered (ts : List Tag) : (ts.mergeSort le).Pairwise InOrder :=
  (List.pairwise_mergeSort le_trans le_total ts).imp fun inTurn => (le_iff_inOrder _ _).mp inTurn

theorem userTags_ordered (ts : List Tag) : (userTags ts).Pairwise InOrder :=
  (mergeSort_ordered ts).filter _

theorem userTags_perm (ts : List Tag) : (userTags ts).Perm (ts.filter isPublic) :=
  (List.mergeSort_perm ts le).filter isPublic

/-! ### The only list in order -/

instance : DecidableRel InOrder := fun s t => decidable_of_iff _ (le_iff_inOrder s t)

theorem values_antisymm {v? w? : Option String}
    (forth : ∀ v, v? = some v → ∃ w, w? = some w ∧ v ≤ w)
    (back : ∀ w, w? = some w → ∃ v, v? = some v ∧ w ≤ v) : v? = w? := by
  cases v? with
  | none =>
    cases w? with
    | none => rfl
    | some w =>
      obtain ⟨v, none, -⟩ := back w rfl
      cases none
  | some v =>
    obtain ⟨w, rfl, less⟩ := forth v rfl
    obtain ⟨_, same, more⟩ := back w rfl
    cases same
    exact congrArg some (String.le_antisymm less more)

theorem InOrder.antisymm {s t : Tag} (forth : InOrder s t) (back : InOrder t s) : s = t := by
  obtain ⟨key, value?⟩ := s
  obtain ⟨key', value'?⟩ := t
  -- Not both keys can come first, so they are equal and the values decide.
  rcases forth with first | ⟨rfl, values⟩
  · rcases back with first' | ⟨same, -⟩
    · exact absurd first' (String.lt_asymm first)
    · exact absurd first (same ▸ String.lt_irrefl _)
  · rcases back with first' | ⟨-, values'⟩
    · exact absurd first' (String.lt_irrefl _)
    · exact congrArg (Tag.mk key) (values_antisymm values values')

/-- Tags in order are determined by which tags they are and how often each occurs. -/
theorem eq_of_inOrder {ts us : List Tag} (ordered : ts.Pairwise InOrder)
    (ordered' : us.Pairwise InOrder) (perm : ts.Perm us) : ts = us :=
  perm.eq_of_pairwise (fun _ _ _ _ => InOrder.antisymm) ordered ordered'

theorem eq_userTags_iff {ts us : List Tag} :
    us = userTags ts ↔ us.Pairwise InOrder ∧ us.Perm (ts.filter isPublic) := by
  constructor
  · rintro rfl
    exact ⟨userTags_ordered ts, userTags_perm ts⟩
  · rintro ⟨ordered, perm⟩
    exact eq_of_inOrder ordered (userTags_ordered ts) (perm.trans (userTags_perm ts).symm)

theorem userTags_congr {ts us : List Tag} (same : (ts.filter isPublic).Perm (us.filter isPublic)) :
    userTags ts = userTags us :=
  eq_userTags_iff.mpr ⟨userTags_ordered ts, (userTags_perm ts).trans same⟩

theorem isPublic_of_mem_userTags {ts : List Tag} : ∀ t ∈ userTags ts, t.isPublic = true :=
  fun _ member => (List.mem_filter.mp ((userTags_perm ts).mem_iff.mp member)).2

theorem filter_userTags (ts : List Tag) : (userTags ts).filter isPublic = userTags ts :=
  List.filter_eq_self.mpr isPublic_of_mem_userTags

theorem mergeSort_filter_isPublic (ts : List Tag) :
    (ts.filter isPublic).mergeSort le = userTags ts :=
  eq_userTags_iff.mpr ⟨mergeSort_ordered _, List.mergeSort_perm _ _⟩

theorem userTags_append (ts us : List Tag) :
    userTags (ts ++ us) = userTags (userTags ts ++ userTags us) := by
  apply userTags_congr
  simp only [List.filter_append, filter_userTags]
  exact ((userTags_perm ts).append (userTags_perm us)).symm

/-- The tags of users are the one list in order that has each tag with a key of no system as often
as it was given, and no other. So nothing depends on the order in which tags are given, on whether
they are chosen before or after they are sorted, or on whether a part of them was chosen before. -/
theorem userTags_unique (ts : List Tag) :
    (∀ us, us = userTags ts ↔
      us.Pairwise InOrder ∧ us.Perm (ts.filter fun t => t.key ∉ systemKeys)) ∧
    (∀ us : List Tag, us.Perm ts → userTags us = userTags ts) ∧
    (ts.filter fun t => (TagSide.tag t).isUserSide).mergeSort le = userTags ts ∧
    userTags (userTags ts) = userTags ts ∧
    ∀ us, userTags (ts ++ us) = userTags (userTags ts ++ userTags us) := by
  have chosen : (fun t : Tag => decide (t.key ∉ systemKeys)) = isPublic := by
    funext t
    simp [isPublic, isSystem]
  refine ⟨?_, ?_, mergeSort_filter_isPublic ts, ?_, userTags_append ts⟩
  · intro us
    rw [chosen]
    exact eq_userTags_iff
  · intro us perm
    exact userTags_congr (perm.filter isPublic)
  · apply userTags_congr
    rw [filter_userTags]
    exact userTags_perm ts

/-- A tag without value stands before the same tag with an empty one, and both stay if they are
given twice. -/
theorem userTags_of_shuffled :
    let given : List Tag := [⟨"b", none⟩, ⟨"a", some ""⟩, ⟨"size", some "1"⟩, ⟨"a", none⟩,
      ⟨"a", some ""⟩]
    let shuffled : List Tag := [⟨"a", some ""⟩, ⟨"a", none⟩, ⟨"size", some "1"⟩, ⟨"a", some ""⟩,
      ⟨"b", none⟩]
    shuffled.Perm given ∧ userTags shuffled = userTags given ∧
      userTags given = [⟨"a", none⟩, ⟨"a", some ""⟩, ⟨"a", some ""⟩, ⟨"b", none⟩] := by
  intro given shuffled
  have perm : shuffled.Perm given := by decide
  have ordered : [(⟨"a", none⟩ : Tag), ⟨"a", some ""⟩, ⟨"a", some ""⟩, ⟨"b", none⟩].Pairwise
      InOrder := by decide +kernel
  exact ⟨perm, (userTags_unique given).2.1 shuffled perm,
    (((userTags_unique given).1 _).mpr ⟨ordered, by decide⟩).symm⟩

end Phrasebook.Tag
