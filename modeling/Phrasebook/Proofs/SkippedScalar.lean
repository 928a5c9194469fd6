import Phrasebook.Proofs.Agreement
import Phrasebook.Proofs.SkippedLength

/-!
Skipping against reading: words, numbers and strings. Where one can be read it can be skipped, and
both leave the same text. What can be skipped can be read unless it goes beyond what values can
hold.
-/

namespace Phrasebook.Json

variable {α : Type}

/-! ### Words and numbers -/

theorem skips_word (w cs : List Char) (a : α) :
    Skips (readWord w cs) (do .ok (a, ← readWord w cs)) := by
  cases readWord w cs with
  | ok r => rfl
  | error s => exact .inl rfl

theorem significand_rest (n : Nat) (cs : List Char) :
    (significand n cs).2.2.dropWhile Char.isDigit = cs.dropWhile Char.isDigit ∧
    ((significand n cs).2.1 = false → (significand n cs).2.2 = cs.dropWhile Char.isDigit) ∧
    ((significand n cs).2.1 = true → ∃ c r, cs = c :: r ∧ c.isDigit = true) := by
  induction cs generalizing n with
  | nil => simp [significand]
  | cons c r ih =>
    by_cases digit : c.isDigit = true
    · by_cases fits : 10 * n + digitValue c < wordSize
      · obtain ⟨dropped, rest, -⟩ := ih (10 * n + digitValue c)
        simpa [significand, digit, fits, dropped] using rest
      · simp [significand, digit, fits]
    · simp [significand, digit]

theorem exponentDigits_rest (n : Nat) (cs : List Char) :
    (exponentDigits n cs).2.2.dropWhile Char.isDigit = cs.dropWhile Char.isDigit ∧
    ((exponentDigits n cs).2.1 = false →
      (exponentDigits n cs).2.2 = cs.dropWhile Char.isDigit) := by
  induction cs generalizing n with
  | nil => simp [exponentDigits]
  | cons c r ih =>
    by_cases digit : c.isDigit = true
    · by_cases fits : 10 * n + digitValue c ≤ maxExponent
      · obtain ⟨dropped, rest⟩ := ih (10 * n + digitValue c)
        simpa [exponentDigits, digit, fits, dropped] using rest
      · simp [exponentDigits, digit, fits]
    · simp [exponentDigits, digit]

theorem skips_ofParts (positive : Bool) (n : Nat) (e : Int) (r : List Char) :
    Skips (.ok r) (ofParts positive n e r) := by
  unfold ofParts
  cases scale 4 n.toFloat e with
  | none => exact .inr rfl
  | some x => rfl

/-- An exponent without its sign. -/
theorem skips_unsigned (positive up : Bool) (n : Nat) (start : Int) (cs : List Char) :
    Skips (match cs with
      | [] => stopAfter .invalidNumber []
      | c :: r =>
        if c.isDigit then .ok (r.dropWhile Char.isDigit) else stopAfter .invalidNumber r)
      (match cs with
      | [] => stopAfter .endInValue []
      | c :: r =>
        if c.isDigit then
          let (e, tooLarge, r) := exponentDigits (digitValue c) r
          if tooLarge then
            if n != 0 && up then stopAfter .numberOutOfRange r
            else .ok (.float (if positive then 0 else -0), r.dropWhile Char.isDigit)
          else ofParts positive n (if up then start + e else start - e) r
        else stopAfter .invalidNumber r) := by
  cases cs with
  | nil => exact .inl rfl
  | cons c r =>
    by_cases digit : c.isDigit = true
    · have rests := exponentDigits_rest (digitValue c) r
      simp only [digit, if_true]
      generalize exponentDigits (digitValue c) r = digits at rests ⊢
      obtain ⟨e, tooLarge, r'⟩ := digits
      obtain ⟨dropped, rest⟩ := rests
      cases tooLarge with
      | true =>
        by_cases grows : (n != 0 && up) = true
        · simp only [grows, if_true]
          exact .inr rfl
        · simp only [grows, if_true, dropped]
          rfl
      | false =>
        rw [← rest rfl]
        exact skips_ofParts ..
    · simp only [digit]
      exact .inl rfl

theorem skips_exponent (positive : Bool) (n : Nat) (start : Int) (cs : List Char) :
    Skips (skipExponent cs) (exponent positive n start cs) := by
  unfold skipExponent exponent
  split
  · exact skips_unsigned positive true n start _
  · exact skips_unsigned positive false n start _
  · exact skips_unsigned positive true n start cs

theorem skips_exponentOrEnd (positive : Bool) (n : Nat) (e : Int) (cs : List Char) :
    Skips (skipExponentOrEnd cs) (exponentOrEnd positive n e cs) := by
  unfold skipExponentOrEnd exponentOrEnd
  split
  · exact skips_exponent ..
  · exact skips_exponent ..
  · exact skips_ofParts ..

theorem skips_fraction (positive : Bool) (n : Nat) (start : Int) (r : List Char) :
    Skips (if (r.dropWhile Char.isDigit).length = r.length then stopAt .invalidNumber r
        else skipExponentOrEnd (r.dropWhile Char.isDigit))
      (fraction positive n start r) := by
  have rests := significand_rest n r
  unfold fraction
  generalize significand n r = digits at rests
  obtain ⟨m, full, r'⟩ := digits
  obtain ⟨dropped, rest, digit⟩ := rests
  have short := (List.dropWhile_suffix Char.isDigit (l := r)).length_le
  cases full with
  | true =>
    obtain ⟨c, r₁, rfl, isDigit⟩ := digit rfl
    have shorter : (c :: r₁).dropWhile Char.isDigit = r₁.dropWhile Char.isDigit :=
      List.dropWhile_cons_of_pos isDigit
    have short₁ := (List.dropWhile_suffix Char.isDigit (l := r₁)).length_le
    rw [if_neg (by rw [shorter, List.length_cons]; omega), ← dropped]
    exact skips_exponentOrEnd ..
  | false =>
    obtain rfl := rest rfl
    by_cases places : (r.dropWhile Char.isDigit).length = r.length
    · rw [if_pos places]
      simp only [places, Nat.sub_self, if_true]
      cases r.dropWhile Char.isDigit <;> exact .inl rfl
    · have some : ¬r.length - (r.dropWhile Char.isDigit).length = 0 := by omega
      rw [if_neg places]
      simp only [some, if_false]
      exact skips_exponentOrEnd ..

/-- What follows the whole part of a number. -/
theorem skips_numberTail (positive : Bool) (n : Nat) (cs : List Char) :
    Skips (match cs with
      | '.' :: r =>
        let r' := r.dropWhile Char.isDigit
        if r'.length = r.length then stopAt .invalidNumber r else skipExponentOrEnd r'
      | _ => skipExponentOrEnd cs)
      (numberTail positive n cs) := by
  unfold numberTail
  split
  · exact skips_fraction ..
  · next noPoint =>
    split
    · next r => exact absurd rfl (noPoint r)
    · exact skips_exponent ..
    · exact skips_exponent ..
    · next small large =>
      have ends : skipExponentOrEnd cs = .ok cs := by
        unfold skipExponentOrEnd
        split
        · next r _ => exact absurd rfl (small r)
        · next r _ => exact absurd rfl (large r)
        · rfl
      rw [ends]
      split
      · rfl
      · split <;> rfl

theorem skips_number (positive : Bool) (cs : List Char) :
    Skips (skipNumber cs) (readNumber positive cs) := by
  unfold skipNumber readNumber
  cases cs with
  | nil => exact .inl rfl
  | cons c r =>
    simp only
    split
    · cases r with
      | nil => exact skips_numberTail positive 0 []
      | cons d r =>
        simp only
        split
        · exact .inl rfl
        · exact skips_numberTail positive 0 (d :: r)
    · split
      · obtain ⟨dropped, rest, -⟩ := significand_rest (digitValue c) r
        generalize significand (digitValue c) r = digits at dropped rest ⊢
        obtain ⟨n, full, r'⟩ := digits
        cases full with
        | true =>
          simp only at dropped ⊢
          rw [← dropped]
          -- Digits that do not fit are skipped here too, and only count for the exponent.
          generalize r'.dropWhile Char.isDigit = behind
          split
          · exact skips_fraction ..
          · exact skips_exponentOrEnd ..
        | false =>
          rw [← rest rfl]
          exact skips_numberTail ..
      · exact .inl rfl

/-! ### Strings -/

theorem skipStringChars_escape (fuel : Nat) (cs : List Char) :
    skipStringChars (fuel + 1) ('\\' :: cs) = skipEscape cs >>= skipStringChars fuel := rfl

/-- An escape is skipped at once, or as two if it stands for a pair of surrogates. -/
def SkipsEscape (cs r : List Char) : Prop :=
  skipEscape cs = .ok r ∨ ∃ r', skipEscape cs = .ok ('\\' :: r') ∧ skipEscape r' = .ok r

theorem skipStringChars_unended {cs : List Char} {s : Stop} (stops : skipEscape cs = .error s)
    (fuel : Nat) (r : List Char) : skipStringChars fuel ('\\' :: cs) ≠ .ok r := by
  cases fuel with
  | zero => exact nofun
  | succ fuel =>
    rw [skipStringChars_escape, stops]
    exact nofun

theorem skipEscape_unit_error {cs : List Char} {s : Stop} (stops : hexUnitValue cs = .error s) :
    skipEscape ('u' :: cs) = .error s := by
  rw [skipEscape, stops]
  rfl

theorem skipEscape_unit {cs r : List Char} {n : Nat} (read : hexUnitValue cs = .ok (n, r)) :
    skipEscape ('u' :: cs) = .ok r := by
  rw [skipEscape, read]
  rfl

/-- If there is no second half of a pair, the string does not end either, or this is a limit. -/
theorem trailingUnit_cases (cs : List Char) :
    (∃ n r r', trailingUnit cs = .ok (n, r) ∧ cs = '\\' :: r' ∧ skipEscape r' = .ok r) ∨
    ∃ s, trailingUnit cs = .error s ∧
      (s.cause.isLimit = true ∨ ∀ fuel r, skipStringChars fuel cs ≠ .ok r) := by
  unfold trailingUnit
  split
  · refine .inr ⟨_, rfl, .inr ?_⟩
    intro fuel r
    cases fuel <;> exact nofun
  · exact .inr ⟨_, rfl, .inr (skipStringChars_unended rfl)⟩
  · next cs =>
    cases read : hexUnitValue cs with
    | error s =>
      exact .inr ⟨s, rfl, .inr (skipStringChars_unended (skipEscape_unit_error read))⟩
    | ok p =>
      obtain ⟨n, r⟩ := p
      simp only [bind, Except.bind]
      by_cases trailing : isTrailing n = true
      · exact .inl ⟨n, r, 'u' :: cs, by simp [trailing], rfl, skipEscape_unit read⟩
      · exact .inr ⟨_, by simp [trailing]; rfl, .inl rfl⟩
  · exact .inr ⟨_, rfl, .inl rfl⟩
  · exact .inr ⟨_, rfl, .inl rfl⟩

theorem escape_cases (cs : List Char) :
    (∃ c r, escape cs = .ok (c, r) ∧ SkipsEscape cs r) ∨
    ∃ s, escape cs = .error s ∧
      (s.cause.isLimit = true ∨ ∀ fuel r, skipStringChars fuel ('\\' :: cs) ≠ .ok r) := by
  unfold escape
  split
  · exact .inr ⟨_, rfl, .inr (skipStringChars_unended rfl)⟩
  · next cs =>
    cases read : hexUnitValue cs with
    | error s =>
      exact .inr ⟨s, rfl, .inr (skipStringChars_unended (skipEscape_unit_error read))⟩
    | ok p =>
      obtain ⟨n, r⟩ := p
      have skipped := skipEscape_unit read
      simp only [bind, Except.bind]
      by_cases trailing : isTrailing n = true
      · exact .inr ⟨_, by simp [trailing]; rfl, .inl rfl⟩
      by_cases leading : isLeading n = true
      · simp only [trailing, leading, if_true]
        rcases trailingUnit_cases r with ⟨m, r', r₁, second, rfl, skipped'⟩ | ⟨s, stops, why⟩
        · rw [second]
          exact .inl ⟨_, r', rfl, .inr ⟨r₁, skipped, skipped'⟩⟩
        · rw [stops]
          refine .inr ⟨s, rfl, why.imp id ?_⟩
          intro unended fuel r₁
          cases fuel with
          | zero => exact nofun
          | succ fuel =>
            rw [skipStringChars_escape, skipped]
            exact unended fuel r₁
      · exact .inl ⟨Char.ofNat n, r, by simp [trailing, leading], .inl skipped⟩
  · next c r notUnit =>
    have skips : skipEscape (c :: r) =
        if (simpleEscape? c).isSome then .ok r else stopAfter .invalidEscape r := by
      rw [skipEscape]
      exact notUnit
    cases means : simpleEscape? c with
    | some d => exact .inl ⟨d, r, rfl, .inl (by rw [skips, means]; rfl)⟩
    | none =>
      have stops : skipEscape (c :: r) = stopAfter .invalidEscape r := by
        rw [skips, means]
        rfl
      exact .inr ⟨_, rfl, .inr (skipStringChars_unended stops)⟩

theorem skips_stringChars (cs : List Char) {fuel fuel' : Nat} (enough : cs.length < fuel)
    (enough' : cs.length < fuel') : Skips (skipStringChars fuel cs) (stringChars fuel' cs) := by
  induction fuel' generalizing cs fuel with
  | zero => exact absurd enough' (Nat.not_lt_zero _)
  | succ fuel' ih =>
    obtain ⟨fuel, rfl⟩ := Nat.exists_eq_succ_of_ne_zero (Nat.ne_zero_of_lt enough)
    cases cs with
    | nil => exact .inl rfl
    | cons c r =>
      simp only [List.length_cons, Nat.succ_eq_add_one, Nat.add_lt_add_iff_right] at enough enough'
      by_cases mark : c = '"'
      · subst c
        rfl
      by_cases backslash : c = '\\'
      · subst c
        rw [stringChars, if_neg (by decide), if_pos rfl]
        rcases escape_cases r with ⟨d, r', escaped, skips⟩ | ⟨s, stops, limit | unended⟩
        · rw [escaped]
          suffices Skips (skipStringChars (fuel + 1) ('\\' :: r)) (stringChars fuel' r') from
            this.map (d :: ·)
          -- A pair of surrogates is one escape, but takes two steps of skipping.
          rcases skips with skipped | ⟨r₁, skipped, skipped'⟩
          · have shorter := length_of_skipEscape skipped
            rw [skipStringChars_escape, skipped]
            exact ih r' (by omega) (by omega)
          · have shorter := length_of_skipEscape skipped
            have shorter' := length_of_skipEscape skipped'
            rw [List.length_cons] at shorter
            obtain ⟨fuel, rfl⟩ := Nat.exists_eq_succ_of_ne_zero (Nat.ne_zero_of_lt enough)
            rw [skipStringChars_escape, skipped]
            change Skips (skipStringChars (fuel + 1) ('\\' :: r₁)) _
            rw [skipStringChars_escape, skipped']
            exact ih r' (by omega) (by omega)
        · rw [stops]
          exact .inr limit
        · rw [stops]
          exact .inl (Except.toOption_eq_none_iff.mpr (unended _))
      · rw [skipStringChars, stringChars, if_neg mark, if_neg mark, if_neg backslash,
          if_neg backslash]
        split
        · exact .inl rfl
        · exact (ih r enough enough').map (c :: ·)

theorem skips_string (cs : List Char) : Skips (skipString cs) (readString cs) :=
  (skips_stringChars cs (Nat.lt_succ_self _) (Nat.lt_succ_self _)).map String.ofList

end Phrasebook.Json
