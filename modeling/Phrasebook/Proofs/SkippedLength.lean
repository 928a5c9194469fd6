import Phrasebook.Json.Reader
import Phrasebook.Proofs.Except

/-!
Whatever is skipped of a JSON text, less of the text is left. This is what tells that the fuel of
the readers is enough.
-/

namespace Phrasebook.Json

/-! ### Words, numbers and strings -/

theorem length_skipBlanks_le (cs : List Char) : (skipBlanks cs).length ≤ cs.length :=
  (List.dropWhile_suffix isBlank).length_le

theorem length_of_skipBlanks {cs r : List Char} {c : Char} (visible : skipBlanks cs = c :: r) :
    r.length < cs.length := by
  have short := length_skipBlanks_le cs
  rw [visible, List.length_cons] at short
  omega

theorem length_of_colon {cs r : List Char} (read : colon cs = .ok r) : r.length < cs.length := by
  unfold colon at read
  split at read
  · cases read
  · next visible =>
    split at read
    · cases read
      exact length_of_skipBlanks visible
    · cases read

theorem length_of_readWord {w cs r : List Char} (read : readWord w cs = .ok r) :
    r.length ≤ cs.length := by
  induction w generalizing cs with
  | nil =>
    cases read
    exact Nat.le_refl _
  | cons c w ih =>
    cases cs with
    | nil => cases read
    | cons d cs =>
      rw [readWord] at read
      split at read
      · exact Nat.le_succ_of_le (ih read)
      · cases read

theorem length_of_digits_le (cs : List Char) : (cs.dropWhile Char.isDigit).length ≤ cs.length :=
  (List.dropWhile_suffix Char.isDigit).length_le

theorem length_of_unsigned {cs r : List Char} (skipped : (match cs with
      | [] => stopAfter .invalidNumber []
      | c :: r =>
        if c.isDigit then .ok (r.dropWhile Char.isDigit)
        else stopAfter .invalidNumber r) = Except.ok r) : r.length ≤ cs.length := by
  cases cs with
  | nil => cases skipped
  | cons c r' =>
    simp only at skipped
    split at skipped
    · cases skipped
      exact Nat.le_succ_of_le (length_of_digits_le r')
    · cases skipped

theorem length_of_skipExponent {cs r : List Char} (skipped : skipExponent cs = .ok r) :
    r.length ≤ cs.length := by
  unfold skipExponent at skipped
  split at skipped
  · exact Nat.le_succ_of_le (length_of_unsigned skipped)
  · exact Nat.le_succ_of_le (length_of_unsigned skipped)
  · exact length_of_unsigned skipped

theorem length_of_skipExponentOrEnd {cs r : List Char} (skipped : skipExponentOrEnd cs = .ok r) :
    r.length ≤ cs.length := by
  unfold skipExponentOrEnd at skipped
  split at skipped
  · exact Nat.le_succ_of_le (length_of_skipExponent skipped)
  · exact Nat.le_succ_of_le (length_of_skipExponent skipped)
  · cases skipped
    exact Nat.le_refl _

theorem length_of_numberTail {cs r : List Char} (skipped : (match cs with
      | '.' :: r =>
        let r' := r.dropWhile Char.isDigit
        if r'.length = r.length then stopAt .invalidNumber r else skipExponentOrEnd r'
      | _ => skipExponentOrEnd cs) = .ok r) : r.length ≤ cs.length := by
  split at skipped
  · next r' =>
    simp only at skipped
    split at skipped
    · cases skipped
    · have short := length_of_digits_le r'
      have shorter := length_of_skipExponentOrEnd skipped
      rw [List.length_cons]
      omega
  · exact length_of_skipExponentOrEnd skipped

theorem length_of_skipNumber {cs r : List Char} (skipped : skipNumber cs = .ok r) :
    r.length < cs.length := by
  unfold skipNumber at skipped
  cases cs with
  | nil => cases skipped
  | cons c r' =>
    rw [List.length_cons, Nat.lt_succ_iff]
    simp only at skipped
    split at skipped
    · cases r' with
      | nil => exact length_of_numberTail skipped
      | cons d r' =>
        simp only at skipped
        split at skipped
        · cases skipped
        · exact length_of_numberTail skipped
    · split at skipped
      · exact Nat.le_trans (length_of_numberTail skipped) (length_of_digits_le r')
      · cases skipped

theorem length_of_hexUnitValue {cs r : List Char} {n : Nat}
    (read : hexUnitValue cs = .ok (n, r)) : r.length < cs.length := by
  unfold hexUnitValue at read
  split at read
  · split at read
    · cases read
      simp only [List.length_cons]
      omega
    · cases read
  · split at read <;> cases read

theorem length_of_skipEscape {cs r : List Char} (skipped : skipEscape cs = .ok r) :
    r.length < cs.length := by
  unfold skipEscape at skipped
  split at skipped
  · cases skipped
  · obtain ⟨⟨n, r'⟩, read, rest⟩ := Except.bind_eq_ok_iff.mp skipped
    cases rest
    exact Nat.lt_succ_of_lt (length_of_hexUnitValue read)
  · split at skipped
    · cases skipped
      exact Nat.lt_succ_self _
    · cases skipped

theorem length_of_skipStringChars {fuel : Nat} {cs r : List Char}
    (skipped : skipStringChars fuel cs = .ok r) : r.length < cs.length := by
  induction fuel generalizing cs with
  | zero => cases skipped
  | succ fuel ih =>
    cases cs with
    | nil => cases skipped
    | cons c r' =>
      rw [List.length_cons]
      rw [skipStringChars] at skipped
      split at skipped
      · cases skipped
        exact Nat.lt_succ_self _
      · split at skipped
        · obtain ⟨r₁, escaped, rest⟩ := Except.bind_eq_ok_iff.mp skipped
          have shorter := length_of_skipEscape escaped
          have rest' := ih rest
          omega
        · split at skipped
          · cases skipped
          · exact Nat.lt_succ_of_lt (ih skipped)

theorem length_of_skipString {cs r : List Char} (skipped : skipString cs = .ok r) :
    r.length < cs.length := length_of_skipStringChars skipped

/-! ### Values -/

/-- With so much fuel, whatever is skipped leaves less of the text. -/
structure Shortens (fuel : Nat) : Prop where
  value : ∀ {cs r}, skipValue fuel cs = .ok r → r.length < cs.length
  items : ∀ {afterItem cs r}, skipItems fuel afterItem cs = .ok r → r.length < cs.length
  members : ∀ {afterMember cs r}, skipMembers fuel afterMember cs = .ok r → r.length < cs.length
  member : ∀ {cs r}, skipMember fuel cs = .ok r → r.length < cs.length

namespace Shortens

variable {fuel : Nat} {cs r : List Char}

theorem value_succ (ih : Shortens fuel) (skipped : skipValue (fuel + 1) cs = .ok r) :
    r.length < cs.length := by
  rw [skipValue] at skipped
  split at skipped
  · cases skipped
  next c r' visible =>
  have short := length_of_skipBlanks visible
  split at skipped
  · exact Nat.lt_of_le_of_lt (length_of_readWord skipped) short
  split at skipped
  · exact Nat.lt_of_le_of_lt (length_of_readWord skipped) short
  split at skipped
  · exact Nat.lt_of_le_of_lt (length_of_readWord skipped) short
  split at skipped
  · exact Nat.lt_trans (length_of_skipNumber skipped) short
  split at skipped
  · exact Nat.lt_of_lt_of_le (length_of_skipNumber skipped) short
  split at skipped
  · exact Nat.lt_trans (length_of_skipString skipped) short
  split at skipped
  · exact Nat.lt_trans (ih.items skipped) short
  split at skipped
  · exact Nat.lt_trans (ih.members skipped) short
  · cases skipped

theorem items_succ (ih : Shortens fuel) {afterItem : Bool}
    (skipped : skipItems (fuel + 1) afterItem cs = .ok r) : r.length < cs.length := by
  rw [skipItems] at skipped
  split at skipped
  · cases skipped
  next c r' visible =>
  have short := length_of_skipBlanks visible
  split at skipped
  · cases skipped
    exact short
  split at skipped
  · obtain ⟨r₁, value, rest⟩ := Except.bind_eq_ok_iff.mp skipped
    exact Nat.lt_of_lt_of_le (Nat.lt_trans (ih.items rest) (ih.value value)) short
  split at skipped
  · obtain ⟨r₁, value, rest⟩ := Except.bind_eq_ok_iff.mp skipped
    exact Nat.lt_trans (Nat.lt_trans (ih.items rest) (ih.value value)) short
  · cases skipped

theorem members_succ (ih : Shortens fuel) {afterMember : Bool}
    (skipped : skipMembers (fuel + 1) afterMember cs = .ok r) : r.length < cs.length := by
  rw [skipMembers] at skipped
  split at skipped
  · cases skipped
  next c r' visible =>
  have short := length_of_skipBlanks visible
  split at skipped
  · cases skipped
    exact short
  split at skipped
  · obtain ⟨r₁, member, rest⟩ := Except.bind_eq_ok_iff.mp skipped
    exact Nat.lt_of_lt_of_le (Nat.lt_trans (ih.members rest) (ih.member member)) short
  split at skipped
  · obtain ⟨r₁, member, rest⟩ := Except.bind_eq_ok_iff.mp skipped
    exact Nat.lt_trans (Nat.lt_trans (ih.members rest) (ih.member member)) short
  · cases skipped

theorem member_succ (ih : Shortens fuel) (skipped : skipMember (fuel + 1) cs = .ok r) :
    r.length < cs.length := by
  rw [skipMember] at skipped
  split at skipped
  · cases skipped
  next c r' visible =>
  have short := length_of_skipBlanks visible
  split at skipped
  · obtain ⟨r₁, name, rest⟩ := Except.bind_eq_ok_iff.mp skipped
    obtain ⟨r₂, passed, value⟩ := Except.bind_eq_ok_iff.mp rest
    have shorter := length_of_skipString name
    have shorter' := length_of_colon passed
    have shorter'' := ih.value value
    omega
  · cases skipped

end Shortens

theorem shortens (fuel : Nat) : Shortens fuel := by
  induction fuel with
  | zero => exact ⟨nofun, nofun, nofun, nofun⟩
  | succ fuel ih => exact ⟨ih.value_succ, ih.items_succ, ih.members_succ, ih.member_succ⟩

end Phrasebook.Json
