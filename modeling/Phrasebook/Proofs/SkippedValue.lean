import Mathlib.Data.List.DropRight
import Phrasebook.Proofs.SkippedScalar

/-!
Skipping against reading: whole values. What can be read can be skipped, and both leave the same
text. What can be skipped can be read unless it goes beyond what values can hold: a number that is
too large, half a pair of surrogates, or lists and objects that stand in one another too deep.
-/

namespace Phrasebook.Json

/-! ### Steps in lists and objects -/

theorem skipBlanks_again (cs : List Char) : skipBlanks (skipBlanks cs) = skipBlanks cs :=
  List.dropWhile_idempotent isBlank cs

theorem skipValue_skipBlanks (fuel : Nat) (cs : List Char) :
    (skipValue fuel (skipBlanks cs)).toOption = (skipValue fuel cs).toOption := by
  cases fuel with
  | zero => rfl
  | succ fuel => rw [skipValue, skipBlanks_again, skipValue]

/-- What is skipped from a step in a list on. -/
def skipItemsFrom (fuel : Nat) : Step → Read (List Char)
  | .done r => .ok (r.drop 1)
  | .item r => skipValue fuel r >>= skipItems fuel true

/-- What is skipped from a step in an object on. -/
def skipMembersFrom (fuel : Nat) : Step → Read (List Char)
  | .done r => .ok (r.drop 1)
  | .item r => do skipMembers (fuel + 1) true (← skipValue fuel (← colon (← skipString r)))

theorem skipItems_next (fuel : Nat) (isFirst : Bool) (cs : List Char) :
    (skipItems (fuel + 1) (!isFirst) cs).toOption =
      (nextItem isFirst cs).toOption.bind fun step => (skipItemsFrom fuel step).toOption := by
  rw [skipItems, nextItem]
  cases skipBlanks cs with
  | nil => rfl
  | cons c r =>
    by_cases ends : c = ']'
    · subst c
      rfl
    cases isFirst with
    | true =>
      simp only [ends, if_false]
      rfl
    | false =>
      by_cases comma : c = ','
      · subst c
        -- Blanks behind a comma are skipped with the value.
        change (skipValue fuel r >>= skipItems fuel true).toOption = _
        rw [Except.toOption_bind, ← skipValue_skipBlanks]
        simp only [ends, if_false, if_true]
        cases skipBlanks r with
        | nil => cases fuel <;> rfl
        | cons d r =>
          by_cases trailing : d = ']'
          · subst d
            cases fuel <;> rfl
          · simp only [trailing, if_false]
            exact (Except.toOption_bind ..).symm
      · simp only [ends, comma, if_false]
        rfl

theorem skipMembers_next (fuel : Nat) (isFirst : Bool) (cs : List Char) :
    (skipMembers (fuel + 2) (!isFirst) cs).toOption =
      (nextMember isFirst cs).toOption.bind fun step => (skipMembersFrom fuel step).toOption := by
  rw [skipMembers, nextMember]
  cases visible : skipBlanks cs with
  | nil => rfl
  | cons c r =>
    by_cases ends : c = '\x7d'
    · subst c
      rfl
    cases isFirst with
    | true =>
      have again : skipBlanks (c :: r) = c :: r := by
        rw [← visible, skipBlanks_again]
      by_cases opens : c = '"'
      · subst c
        simp only [skipMember, again, ends, if_true, if_false, Bool.not_true, Bool.not_false,
          bind_assoc]
        rfl
      · simp only [skipMember, again, ends, opens, if_true, if_false]
        rfl
    | false =>
      by_cases comma : c = ','
      · subst c
        simp only [skipMember, ends, if_true, if_false]
        cases skipBlanks r with
        | nil => rfl
        | cons d r =>
          by_cases opens : d = '"'
          · subst d
            simp only [if_true, bind_assoc]
            rfl
          · by_cases trailing : d = '\x7d'
            · simp only [trailing, if_true]
              rfl
            · simp only [opens, trailing, if_false]
              rfl
      · simp only [ends, comma, if_false]
        rfl

theorem nextItem_cases {isFirst : Bool} {cs : List Char} {step : Step}
    (next : nextItem isFirst cs = .ok step) :
    (∃ r, step = .done (']' :: r) ∧ skipBlanks cs = ']' :: r) ∨
    ∃ r, step = .item r ∧ r.length ≤ cs.length := by
  unfold nextItem at next
  split at next
  · cases next
  · next c r visible =>
    have short := length_of_skipBlanks visible
    split at next
    · next ends =>
      subst ends
      cases next
      exact .inl ⟨r, rfl, visible⟩
    split at next
    · cases next
      exact .inr ⟨c :: r, rfl, short⟩
    split at next
    · split at next
      · cases next
      · next d r' visible' =>
        have short' := length_of_skipBlanks visible'
        split at next
        · cases next
        · cases next
          exact .inr ⟨d :: r', rfl, Nat.le_trans short' (Nat.le_of_lt short)⟩
    · cases next

theorem nextMember_cases {isFirst : Bool} {cs : List Char} {step : Step}
    (next : nextMember isFirst cs = .ok step) :
    (∃ r, step = .done ('\x7d' :: r) ∧ skipBlanks cs = '\x7d' :: r) ∨
    ∃ r, step = .item r ∧ r.length < cs.length := by
  unfold nextMember at next
  split at next
  · cases next
  · next c r visible =>
    have short := length_of_skipBlanks visible
    split at next
    · next ends =>
      subst ends
      cases next
      exact .inl ⟨r, rfl, visible⟩
    split at next
    · split at next
      · cases next
        exact .inr ⟨r, rfl, short⟩
      · cases next
    split at next
    · split at next
      · cases next
      · next d r' visible' =>
        have short' := length_of_skipBlanks visible'
        split at next
        · cases next
          exact .inr ⟨r', rfl, Nat.lt_trans short' short⟩
        split at next <;> cases next
    · cases next

/-! ### Values -/

/-- With so much fuel to read with, and enough of it to skip with, skipping leaves what reading
leaves. -/
structure SkipsRead (fuel' : Nat) : Prop where
  value : ∀ {fuel depth cs}, 2 * cs.length + 1 ≤ fuel → 2 * cs.length + 1 ≤ fuel' →
    Skips (skipValue fuel cs) (readValue fuel' depth cs)
  items : ∀ {fuel depth cs} isFirst, 2 * cs.length + 2 ≤ fuel → 2 * cs.length + 2 ≤ fuel' →
    Skips (skipItems fuel (!isFirst) cs) (readItems fuel' depth isFirst cs)
  members : ∀ {fuel depth cs} isFirst, 2 * cs.length + 2 ≤ fuel → 2 * cs.length + 2 ≤ fuel' →
    Skips (skipMembers fuel (!isFirst) cs) (readMembers fuel' depth isFirst cs)

namespace SkipsRead

variable {fuel fuel' depth : Nat} {cs : List Char}

theorem value_succ (ih : SkipsRead fuel') (enough : 2 * cs.length + 1 ≤ fuel)
    (enough' : 2 * cs.length + 1 ≤ fuel' + 1) :
    Skips (skipValue fuel cs) (readValue (fuel' + 1) depth cs) := by
  obtain ⟨fuel, rfl⟩ := Nat.exists_eq_succ_of_ne_zero (by omega : fuel ≠ 0)
  rw [skipValue, readValue]
  cases visible : skipBlanks cs with
  | nil => exact .inl rfl
  | cons c r =>
    have short := length_of_skipBlanks visible
    simp only
    by_cases null : c = 'n'
    · rw [if_pos null, if_pos null]
      exact skips_word ..
    rw [if_neg null, if_neg null]
    by_cases true_ : c = 't'
    · rw [if_pos true_, if_pos true_]
      exact skips_word ..
    rw [if_neg true_, if_neg true_]
    by_cases false_ : c = 'f'
    · rw [if_pos false_, if_pos false_]
      exact skips_word ..
    rw [if_neg false_, if_neg false_]
    by_cases minus : c = '-'
    · rw [if_pos minus, if_pos minus]
      exact (skips_number false r).map Json.number
    rw [if_neg minus, if_neg minus]
    by_cases digit : c.isDigit = true
    · rw [if_pos digit, if_pos digit]
      exact (skips_number true (c :: r)).map Json.number
    rw [if_neg digit, if_neg digit]
    by_cases mark : c = '"'
    · rw [if_pos mark, if_pos mark]
      exact (skips_string r).map Json.string
    rw [if_neg mark, if_neg mark]
    by_cases bracket : c = '['
    · rw [if_pos bracket, if_pos bracket]
      split
      · exact .inr rfl
      · exact (ih.items true (by omega) (by omega)).map Json.array
    rw [if_neg bracket, if_neg bracket]
    by_cases brace : c = '\x7b'
    · rw [if_pos brace, if_pos brace]
      split
      · exact .inr rfl
      · exact (ih.members true (by omega) (by omega)).map Json.object
    rw [if_neg brace, if_neg brace]
    exact .inl rfl

theorem items_succ (ih : SkipsRead fuel') (isFirst : Bool) (enough : 2 * cs.length + 2 ≤ fuel)
    (enough' : 2 * cs.length + 2 ≤ fuel' + 1) :
    Skips (skipItems fuel (!isFirst) cs) (readItems (fuel' + 1) depth isFirst cs) := by
  obtain ⟨fuel, rfl⟩ := Nat.exists_eq_succ_of_ne_zero (by omega : fuel ≠ 0)
  rw [Skips, skipItems_next, readItems]
  apply Agrees.after
  intro step next
  rcases nextItem_cases next with ⟨r, rfl, -⟩ | ⟨r, rfl, short⟩
  · rfl
  · rw [skipItemsFrom, Except.toOption_bind]
    apply (ih.value (by omega) (by omega)).bind
    intro j r' _ skipped
    have shorter := (shortens fuel).value skipped
    exact (ih.items false (by omega) (by omega)).map (j :: ·)

theorem members_succ (ih : SkipsRead fuel') (isFirst : Bool) (enough : 2 * cs.length + 2 ≤ fuel)
    (enough' : 2 * cs.length + 2 ≤ fuel' + 1) :
    Skips (skipMembers fuel (!isFirst) cs) (readMembers (fuel' + 1) depth isFirst cs) := by
  obtain ⟨fuel, rfl⟩ := Nat.exists_eq_add_of_le' (by omega : 2 ≤ fuel)
  rw [Skips, skipMembers_next, readMembers]
  apply Agrees.after
  intro step next
  rcases nextMember_cases next with ⟨r, rfl, -⟩ | ⟨r, rfl, short⟩
  · rfl
  · simp only [skipMembersFrom, Except.toOption_bind]
    apply (skips_string r).bind
    intro name r₁ _ named
    have shorter := length_of_skipString named
    apply Agrees.after
    intro r₂ passed
    have shorter' := length_of_colon passed
    apply (ih.value (by omega) (by omega)).bind
    intro j r₃ _ skipped
    have shorter'' := (shortens fuel).value skipped
    exact (ih.members false (by omega) (by omega)).map ((name, j) :: ·)

end SkipsRead

theorem skipsRead (fuel' : Nat) : SkipsRead fuel' := by
  induction fuel' with
  | zero => exact ⟨by omega, by omega, by omega⟩
  | succ fuel' ih => exact ⟨ih.value_succ, ih.items_succ, ih.members_succ⟩

/-- What can be read can be skipped, and what can be skipped can be read within the limits. -/
theorem skips_value {fuel fuel' depth : Nat} {cs : List Char} (enough : 2 * cs.length + 1 ≤ fuel)
    (enough' : 2 * cs.length + 1 ≤ fuel') : Skips (skipValue fuel cs) (readValue fuel' depth cs) :=
  (skipsRead fuel').value enough enough'

theorem length_of_readString {r r' : List Char} {s : String} (read : readString r = .ok (s, r')) :
    r'.length < r.length :=
  length_of_skipString ((skips_string r).skipped read)

theorem length_of_readValue {fuel depth : Nat} {r r' : List Char} {j : Json}
    (enough : 2 * r.length + 1 ≤ fuel) (read : readValue fuel depth r = .ok (j, r')) :
    r'.length < r.length :=
  (shortens fuel).value ((skips_value enough enough).skipped read)

end Phrasebook.Json
