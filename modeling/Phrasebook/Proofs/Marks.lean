import Phrasebook.Proofs.Lawful

/-!
Isolation marks in texts. Neither names nor numbers have any, nor has the value of a string whose
text has none. A text in which every mark has its counterpart stays one when it is put between marks
or joined with another.
-/

namespace Phrasebook.Fluent

/-- One of the two characters between which a text is isolated. -/
def isMark (c : Char) : Bool := c == '\u2068' || c == '\u2069'

def Plain (cs : List Char) : Prop := ∀ c ∈ cs, isMark c = false

instance (cs : List Char) : Decidable (Plain cs) := List.decidableBAll (isMark · = false) cs

def Unmarked (s : String) : Prop := Plain s.toList

instance (s : String) : Decidable (Unmarked s) := inferInstanceAs (Decidable (Plain s.toList))

def withoutMarks (s : String) : String := String.ofList (s.toList.filter (!isMark ·))

/-- Every opening mark has its closing one behind it, and what is between them is paired too. -/
inductive Paired : List Char → Prop
  | nil : Paired []
  | plain {c : Char} {cs : List Char} (isPlain : isMark c = false) (rest : Paired cs) :
      Paired (c :: cs)
  | isolated {cs ds : List Char} (inside : Paired cs) (behind : Paired ds) :
      Paired ('\u2068' :: (cs ++ '\u2069' :: ds))

/-! ### Removing marks -/

theorem withoutMarks_append (s t : String) :
    withoutMarks (s ++ t) = withoutMarks s ++ withoutMarks t := by
  apply String.toList_inj.mp
  simp [withoutMarks]

theorem withoutMarks_isolated (s : String) :
    withoutMarks (firstStrongIsolate ++ s ++ popDirectionalIsolate) = withoutMarks s := by
  have opening : withoutMarks firstStrongIsolate = "" := by decide
  have closing : withoutMarks popDirectionalIsolate = "" := by decide
  rw [withoutMarks_append, withoutMarks_append, opening, closing, String.empty_append,
    String.append_empty]

/-! ### Texts without marks -/

theorem Plain.nil : Plain [] := by decide

theorem Plain.append {cs ds : List Char} (first : Plain cs) (second : Plain ds) :
    Plain (cs ++ ds) := List.forall_mem_append.mpr ⟨first, second⟩

theorem unmarked_append {s t : String} (first : Unmarked s) (second : Unmarked t) :
    Unmarked (s ++ t) := by
  rw [Unmarked, String.toList_append]
  exact first.append second

/-- A kind of character to which the marks do not belong. -/
theorem isMark_eq_false {p : Char → Bool} (opening : p '\u2068' = false)
    (closing : p '\u2069' = false) {c : Char} (holds : p c = true) : isMark c = false := by
  rw [isMark, Bool.or_eq_false_iff, beq_eq_false_iff_ne, beq_eq_false_iff_ne]
  constructor
  · rintro rfl
    rw [opening] at holds
    cases holds
  · rintro rfl
    rw [closing] at holds
    cases holds

theorem isMark_of_isDigit {c : Char} (digit : c.isDigit = true) : isMark c = false :=
  isMark_eq_false (by decide) (by decide) digit

theorem IsIdentifier.unmarked {id : String} (named : IsIdentifier id) : Unmarked id := by
  obtain ⟨c, cs, split, starts, spelled⟩ := named
  intro d member
  rw [split] at member
  rcases List.mem_cons.mp member with rfl | later
  · exact isMark_eq_false (by decide) (by decide) starts
  · exact isMark_eq_false (by decide) (by decide) (spelled d later)

theorem unmarked_inBraces {name : String} (plain : Unmarked name) : Unmarked (Write.inBraces name) :=
  unmarked_append (unmarked_append (by decide) plain) (by decide)

theorem Reference.IsNamed.unmarked {r : Reference} (named : r.IsNamed) : Unmarked r.text := by
  cases r with
  | message id attribute? =>
    obtain ⟨own, others⟩ := named
    cases attribute? with
    | none => exact own.unmarked
    | some a => exact unmarked_append (unmarked_append own.unmarked (by decide)) (others a rfl).unmarked
  | term id attribute? =>
    obtain ⟨own, others⟩ := named
    have dashed : Unmarked ("-" ++ id) := unmarked_append (by decide) own.unmarked
    cases attribute? with
    | none => exact dashed
    | some a => exact unmarked_append (unmarked_append dashed (by decide)) (others a rfl).unmarked
  | «variable» name => exact unmarked_append (by decide) (IsIdentifier.unmarked named)
  | function name => exact unmarked_append (IsIdentifier.unmarked named) (by decide)

/-! ### Numbers -/

namespace Plain

theorem zeros (n : Nat) : Plain (List.replicate n '0') := by
  intro c member
  rw [List.eq_of_mem_replicate member]
  decide

theorem digits (n : Nat) : Plain (Nat.toDigits 10 n) := by
  intro c member
  exact isMark_of_isDigit (Nat.isDigit_of_mem_toDigits (by decide) (by decide) member)

theorem scaled (s : Decimal.Scaled) : Plain s.digits.1 ∧ Plain s.digits.2 := by
  unfold Decimal.Scaled.digits
  simp only
  split
  · exact ⟨(digits _).append (zeros _), nil⟩
  · have both : Plain (List.replicate ((-s.exponent).toNat + 1 -
        (Nat.toDigits 10 s.coefficient).length) '0' ++ Nat.toDigits 10 s.coefficient) :=
      (zeros _).append (digits _)
    exact ⟨fun c member => both c (List.mem_of_mem_take member),
      fun c member => both c (List.mem_of_mem_drop member)⟩

theorem ofFloat (x : Float) : Plain (Decimal.Positional.ofFloat x).whole ∧
    Plain (Decimal.Positional.ofFloat x).fraction := by
  unfold Decimal.Positional.ofFloat
  simp only
  split
  · split
    · have infinity : Plain ['i', 'n', 'f'] := by decide
      exact ⟨infinity, nil⟩
    · exact ⟨by decide, nil⟩
  · exact scaled _

end Plain

theorem Number.unmarked (n : Number) : Unmarked n.text := by
  obtain ⟨whole, fraction⟩ := Plain.ofFloat n.value
  have digits : Plain n.digits.whole ∧ Plain n.digits.fraction := by
    unfold Number.digits
    split
    · exact ⟨whole, fraction⟩
    · exact ⟨whole, fraction.append (.zeros _)⟩
  have sign : Plain (if n.digits.negative then ['-'] else []) := by
    split <;> decide
  have part : Plain (if n.digits.fraction.isEmpty then [] else '.' :: n.digits.fraction) := by
    split
    · decide
    · exact List.forall_mem_cons.mpr ⟨by decide, digits.2⟩
  rw [Number.text, Decimal.Positional.text, Unmarked, String.toList_ofList]
  exact (sign.append digits.1).append part

/-! ### Strings -/

theorem length_escaped_le (cs : List Char) : (escaped cs).2.length ≤ cs.length := by
  unfold escaped
  split <;> simp only [List.length_cons, List.length_drop, Nat.le_refl] <;> omega

theorem isMark_ofNat_byte : ∀ n < 256, isMark (Char.ofNat n) = false := by decide +kernel

theorem Plain.bytesAsChars (c : Char) : Plain (bytesAsChars c) := by
  intro d member
  obtain ⟨b, -, rfl⟩ := List.mem_map.mp member
  exact isMark_ofNat_byte b.toNat b.toNat_lt

/-- What comes out of a string by way of bytes is no mark, or it comes out as text too. -/
theorem mem_unescapeBytes {fuel : Nat} {cs : List Char} {d : Char}
    (member : d ∈ unescapeBytes fuel cs) :
    isMark d = false ∨ ∀ more, cs.length ≤ more → d ∈ unescape more cs := by
  fun_induction unescapeBytes fuel cs with
  | case1 => cases member
  | case2 => cases member
  | case3 fuel r ih =>
    have later (more : Nat) (enough : ('\\' :: r).length ≤ more) :
        ∃ left, more = left + 1 ∧ (escaped r).2.length ≤ left := by
      have shorter := length_escaped_le r
      rw [List.length_cons] at enough
      exact ⟨more - 1, by omega, by omega⟩
    rcases List.mem_cons.mp member with rfl | inRest
    · right
      intro more enough
      obtain ⟨left, rfl, -⟩ := later more enough
      rw [unescape]
      exact List.mem_cons_self
    · rcases ih inRest with isPlain | asText
      · exact .inl isPlain
      · right
        intro more enough
        obtain ⟨left, rfl, least⟩ := later more enough
        rw [unescape]
        exact List.mem_cons_of_mem _ (asText left least)
  | case4 fuel c r noEscape ih =>
    rcases List.mem_append.mp member with inBytes | inRest
    · exact .inl (Plain.bytesAsChars c d inBytes)
    · rcases ih inRest with isPlain | asText
      · exact .inl isPlain
      · right
        intro more enough
        rw [List.length_cons] at enough
        obtain ⟨left, rfl⟩ : ∃ left, more = left + 1 := ⟨more - 1, by omega⟩
        rw [unescape]
        · exact List.mem_cons_of_mem _ (asText left (by omega))
        · exact noEscape

theorem unescape_plain {front : List Char} (plain : ∀ c ∈ front, (c != '\\') = true)
    (fuel : Nat) (rest : List Char) :
    unescape (front.length + fuel) (front ++ rest) = front ++ unescape fuel rest := by
  induction front with
  | nil => simp
  | cons c front ih =>
    obtain ⟨first, others⟩ := List.forall_mem_cons.mp plain
    have step : (c :: front).length + fuel = front.length + fuel + 1 := by
      rw [List.length_cons]
      omega
    rw [step, List.cons_append, unescape, ih others, List.cons_append]
    rintro rfl
    cases first

/-- A string as a value has no marks that its text has not. -/
theorem unmarked_stringValue {raw : String} (plain : Unmarked (unescaped raw)) :
    Unmarked (stringValue raw) := by
  have front : ∀ c ∈ raw.toList.takeWhile (· != '\\'), (c != '\\') = true := by
    intro c member
    exact List.mem_takeWhile_imp (p := (· != '\\')) member
  generalize split : raw.toList.takeWhile (· != '\\') = before at front
  generalize after : raw.toList.dropWhile (· != '\\') = rest
  have whole : raw.toList = before ++ rest := by
    rw [← split, ← after, List.takeWhile_append_dropWhile]
  have text : (unescaped raw).toList = before ++ unescape rest.length rest := by
    rw [unescaped, String.toList_ofList, whole, List.length_append, unescape_plain front]
  have value : (stringValue raw).toList = before ++ unescapeBytes raw.toList.length rest := by
    rw [stringValue, String.toList_ofList, split, after]
  rw [Unmarked, text] at plain
  rw [Unmarked, value]
  intro c member
  rcases List.mem_append.mp member with inFront | inRest
  · exact plain c (List.mem_append_left _ inFront)
  · rcases mem_unescapeBytes inRest with isPlain | asText
    · exact isPlain
    · exact plain c (List.mem_append_right _ (asText _ (Nat.le_refl _)))

/-! ### Paired marks -/

namespace Paired

theorem of_plain {cs : List Char} (plain : Plain cs) : Paired cs := by
  induction cs with
  | nil => exact .nil
  | cons c cs ih =>
    obtain ⟨first, rest⟩ := List.forall_mem_cons.mp plain
    exact .plain first (ih rest)

theorem append {cs ds : List Char} (first : Paired cs) (second : Paired ds) :
    Paired (cs ++ ds) := by
  induction first with
  | nil => exact second
  | plain isPlain _ ih => exact .plain isPlain ih
  | isolated inside _ _ ih =>
    rw [List.cons_append, List.append_assoc, List.cons_append]
    exact .isolated inside ih

theorem isolate {s : String} (paired : Paired s.toList) :
    Paired (firstStrongIsolate ++ s ++ popDirectionalIsolate).toList := by
  have spelled : (firstStrongIsolate ++ s ++ popDirectionalIsolate).toList =
      '\u2068' :: (s.toList ++ '\u2069' :: []) := by
    rw [String.toList_append, String.toList_append]
    rfl
  rw [spelled]
  exact .isolated paired .nil

end Paired

end Phrasebook.Fluent
