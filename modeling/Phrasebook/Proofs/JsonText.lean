import Mathlib.Data.String.Basic
import Phrasebook.Json.Reader

/-!
What is written as JSON is read back. A string is read back whatever its characters are, and so are
lists and objects of what is read back, as deep as the reader goes. Numbers are left out.
-/

namespace Phrasebook.Json

/-! ### Strings -/

theorem hexUnit_of_control :
    ∀ n < 32, hexUnit n = ['0', '0', Nat.digitChar (n / 16), Nat.digitChar (n % 16)] := by decide

theorem hexValue?_digitChar : ∀ d < 16, hexValue? (Nat.digitChar d) = some d := by decide

theorem hexUnitValue_hexUnit {n : Nat} (control : n < 32) (r : List Char) :
    hexUnitValue (hexUnit n ++ r) = .ok (n, r) := by
  have zero : hexValue? '0' = some 0 := rfl
  have high := hexValue?_digitChar (n / 16) (by omega)
  have low := hexValue?_digitChar (n % 16) (by omega)
  have whole : n / 16 * 16 + n % 16 = n := by omega
  simp [hexUnit_of_control n control, hexUnitValue, zero, high, low, whole]

theorem escape_hexUnit {n : Nat} (control : n < 32) (r : List Char) :
    escape ('u' :: (hexUnit n ++ r)) = .ok (Char.ofNat n, r) := by
  have notTrailing : isTrailing n = false := by simp [isTrailing]; omega
  have notLeading : isLeading n = false := by simp [isLeading]; omega
  simp [escape, hexUnitValue_hexUnit control, notTrailing, notLeading, bind, Except.bind]

theorem stringChars_escape {c : Char} {cs r : List Char} (read : escape cs = .ok (c, r))
    (fuel : Nat) : stringChars (fuel + 1) ('\\' :: cs) =
      (stringChars fuel r).map fun p => (c :: p.1, p.2) := by
  rw [stringChars, if_neg (by decide), if_pos rfl, read]
  simp only [bind, Except.bind]
  cases stringChars fuel r <;> rfl

theorem stringChars_plain {c : Char} (noMark : c ≠ '"') (noEscape : c ≠ '\\')
    (visible : ¬c.toNat < 32) (fuel : Nat) (r : List Char) :
    stringChars (fuel + 1) (c :: r) = (stringChars fuel r).map fun p => (c :: p.1, p.2) := by
  rw [stringChars, if_neg noMark, if_neg noEscape, if_neg visible]
  cases stringChars fuel r <;> rfl

/-- One step of the reader takes one character as it is written. -/
theorem stringChars_escapeChar (c : Char) (fuel : Nat) (r : List Char) :
    stringChars (fuel + 1) (escapeChar c ++ r) =
      (stringChars fuel r).map fun p => (c :: p.1, p.2) := by
  have simple {d : Char} (means : simpleEscape? d = some c) (letter : d ≠ 'u') :
      stringChars (fuel + 1) (['\\', d] ++ r) =
        (stringChars fuel r).map fun p => (c :: p.1, p.2) := by
    apply stringChars_escape
    change escape (d :: r) = .ok (c, r)
    rw [escape, means]
    exact letter
  -- First the characters with a letter of their own, then the other control characters.
  unfold escapeChar
  by_cases mark : c = '"'
  · subst c
    exact simple rfl (by decide)
  by_cases backslash : c = '\\'
  · subst c
    exact simple rfl (by decide)
  by_cases feed : c = '\n'
  · subst c
    exact simple rfl (by decide)
  by_cases back : c = '\r'
  · subst c
    exact simple rfl (by decide)
  by_cases tab : c = '\t'
  · subst c
    exact simple rfl (by decide)
  rw [if_neg mark, if_neg backslash, if_neg feed, if_neg back, if_neg tab]
  by_cases isBackspace : c.toNat = 8
  · rw [if_pos isBackspace]
    have same : c = Char.ofNat 8 := by rw [← isBackspace, Char.ofNat_toNat]
    exact simple (by rw [same]; rfl) (by decide)
  by_cases isFormFeed : c.toNat = 12
  · rw [if_neg isBackspace, if_pos isFormFeed]
    have same : c = Char.ofNat 12 := by rw [← isFormFeed, Char.ofNat_toNat]
    exact simple (by rw [same]; rfl) (by decide)
  rw [if_neg isBackspace, if_neg isFormFeed]
  by_cases control : c.toNat < 32
  · rw [if_pos control]
    have read := escape_hexUnit control r
    rw [Char.ofNat_toNat] at read
    exact stringChars_escape read fuel
  · rw [if_neg control]
    exact stringChars_plain mark backslash control fuel r

theorem stringChars_written (cs r : List Char) {fuel : Nat} (enough : cs.length < fuel) :
    stringChars fuel (cs.flatMap escapeChar ++ '"' :: r) = .ok (cs, r) := by
  induction cs generalizing fuel with
  | nil =>
    obtain ⟨fuel, rfl⟩ := Nat.exists_eq_succ_of_ne_zero (Nat.pos_iff_ne_zero.mp enough)
    rfl
  | cons c cs ih =>
    obtain ⟨fuel, rfl⟩ := Nat.exists_eq_succ_of_ne_zero (Nat.ne_zero_of_lt enough)
    rw [List.flatMap_cons, List.append_assoc, stringChars_escapeChar,
      ih (Nat.lt_of_succ_lt_succ enough)]
    rfl

theorem length_le_written (cs : List Char) : cs.length ≤ (cs.flatMap escapeChar).length := by
  have atLeastOne (c : Char) : 1 ≤ (escapeChar c).length := by
    unfold escapeChar
    repeat' split
    all_goals simp
  induction cs with
  | nil => simp
  | cons c cs ih =>
    have here := atLeastOne c
    simp only [List.length_cons, List.flatMap_cons, List.length_append]
    omega

theorem readString_written (s : String) (r : List Char) :
    readString (s.toList.flatMap escapeChar ++ '"' :: r) = .ok (s, r) := by
  have enough : s.toList.length < (s.toList.flatMap escapeChar ++ '"' :: r).length + 1 := by
    have short := length_le_written s.toList
    simp only [List.length_append]
    omega
  rw [readString, stringChars_written s.toList r enough]
  simp [bind, Except.bind]

theorem stringText_toList (s : String) :
    (stringText s).toList = '"' :: (s.toList.flatMap escapeChar ++ ['"']) := by
  simp [stringText]

/-! ### Lists and objects -/

/-- Items or members with commas between them, and one in front if others came before. -/
def listed : Bool → List (List Char) → List Char
  | _, [] => []
  | true, piece :: pieces => piece ++ listed false pieces
  | false, piece :: pieces => ',' :: (piece ++ listed false pieces)

theorem intercalate_eq_listed (pieces : List (List Char)) :
    [','].intercalate pieces = listed true pieces := by
  cases pieces with
  | nil => rfl
  | cons piece pieces =>
    induction pieces generalizing piece with
    | nil => simp [listed, List.intercalate]
    | cons next pieces ih =>
      rw [List.intercalate_cons_cons, ih]
      simp [listed]

theorem length_listed_cons (isFirst : Bool) (piece : List Char) (pieces : List (List Char)) :
    piece.length + (listed false pieces).length ≤ (listed isFirst (piece :: pieces)).length := by
  cases isFirst <;> simp [listed]

theorem skipBlanks_of_visible {c : Char} (visible : isBlank c = false) (r : List Char) :
    skipBlanks (c :: r) = c :: r :=
  List.dropWhile_cons_of_neg (by simp [visible])

/-- A text that can stand as an item: it opens with a character that is no blank and does not close
the list. -/
def Opens (piece : List Char) : Prop := ∃ c r, piece = c :: r ∧ isBlank c = false ∧ c ≠ ']'

theorem Opens.length_pos {piece : List Char} (opens : Opens piece) : 0 < piece.length := by
  obtain ⟨c, r, rfl, -, -⟩ := opens
  exact Nat.succ_pos _

theorem nextItem_listed {piece : List Char} (opens : Opens piece) (isFirst : Bool)
    (pieces : List (List Char)) (r : List Char) :
    nextItem isFirst (listed isFirst (piece :: pieces) ++ r) =
      .ok (.item (piece ++ (listed false pieces ++ r))) := by
  obtain ⟨c, more, rfl, visible, notEnd⟩ := opens
  cases isFirst with
  | true => simp [listed, nextItem, skipBlanks_of_visible visible, notEnd]
  | false =>
    have comma : isBlank ',' = false := rfl
    simp [listed, nextItem, skipBlanks_of_visible comma, skipBlanks_of_visible visible, notEnd]

theorem nextItem_end (isFirst : Bool) (r : List Char) :
    nextItem isFirst (listed isFirst [] ++ ']' :: r) = .ok (.done (']' :: r)) := by
  have visible : isBlank ']' = false := rfl
  simp [listed, nextItem, skipBlanks_of_visible visible]

theorem nextMember_listed (isFirst : Bool) (name : List Char) (pieces : List (List Char))
    (r : List Char) : nextMember isFirst (listed isFirst (('"' :: name) :: pieces) ++ r) =
      .ok (.item (name ++ (listed false pieces ++ r))) := by
  have mark : isBlank '"' = false := rfl
  cases isFirst with
  | true => simp [listed, nextMember, skipBlanks_of_visible mark]
  | false =>
    have comma : isBlank ',' = false := rfl
    simp [listed, nextMember, skipBlanks_of_visible comma, skipBlanks_of_visible mark]

theorem nextMember_end (isFirst : Bool) (r : List Char) :
    nextMember isFirst (listed isFirst [] ++ '\x7d' :: r) = .ok (.done ('\x7d' :: r)) := by
  have visible : isBlank '\x7d' = false := rfl
  simp [listed, nextMember, skipBlanks_of_visible visible]

theorem colon_next (r : List Char) : colon (':' :: r) = .ok r := by
  have visible : isBlank ':' = false := rfl
  simp [colon, skipBlanks_of_visible visible]

/-! ### Values -/

def itemText (j : Json) : List Char := j.text.toList

def memberText (m : String × Json) : List Char :=
  '"' :: (m.1.toList.flatMap escapeChar ++ '"' :: ':' :: itemText m.2)

theorem texts_eq_map (js : List Json) : texts js = js.map text := by
  induction js with
  | nil => rfl
  | cons j js ih => rw [texts, List.map_cons, ih]

theorem memberTexts_eq_map (ms : List (String × Json)) :
    memberTexts ms = ms.map fun m => stringText m.1 ++ ":" ++ m.2.text := by
  induction ms with
  | nil => rfl
  | cons m ms ih => rw [memberTexts, List.map_cons, ih]

theorem itemText_array (js : List Json) :
    itemText (.array js) = '[' :: (listed true (js.map itemText) ++ [']']) := by
  have inner : (",".intercalate (texts js)).toList = listed true (js.map itemText) := by
    rw [texts_eq_map, String.toList_intercalate, List.map_map]
    exact intercalate_eq_listed _
  simp [itemText, text, inner]

theorem itemText_object (ms : List (String × Json)) :
    itemText (.object ms) = '\x7b' :: (listed true (ms.map memberText) ++ ['\x7d']) := by
  have one : (fun m : String × Json => (stringText m.1 ++ ":" ++ m.2.text).toList) = memberText := by
    funext m
    simp [memberText, itemText, stringText_toList]
  have inner : (",".intercalate (memberTexts ms)).toList = listed true (ms.map memberText) := by
    rw [memberTexts_eq_map, String.toList_intercalate, List.map_map, ← one]
    exact intercalate_eq_listed _
  simp [itemText, text, inner]

/-- Values without numbers, in which lists and objects stand in one another at most so deep. -/
inductive Plain : Nat → Json → Prop
  | null {depth : Nat} : Plain depth .null
  | bool {depth : Nat} (b : Bool) : Plain depth (.bool b)
  | string {depth : Nat} (s : String) : Plain depth (.string s)
  | array {depth : Nat} {items : List Json} (inner : ∀ j ∈ items, Plain depth j) :
      Plain (depth + 1) (.array items)
  | object {depth : Nat} {members : List (String × Json)}
      (inner : ∀ m ∈ members, Plain depth m.2) : Plain (depth + 1) (.object members)

theorem Plain.opens {depth : Nat} {j : Json} (plain : Plain depth j) : Opens (itemText j) := by
  cases plain with
  | null => exact ⟨'n', _, rfl, by decide, by decide⟩
  | bool b =>
    cases b with
    | true => exact ⟨'t', _, rfl, by decide, by decide⟩
    | false => exact ⟨'f', _, rfl, by decide, by decide⟩
  | string s => exact ⟨'"', _, stringText_toList s, by decide, by decide⟩
  | array inner => exact ⟨'[', _, itemText_array _, by decide, by decide⟩
  | object inner => exact ⟨'\x7b', _, itemText_object _, by decide, by decide⟩

/-- The reader reads this value back, whatever follows it. -/
def ReadsBack (depth : Nat) (j : Json) : Prop :=
  ∀ fuel r, (itemText j).length ≤ fuel → readValue fuel depth (itemText j ++ r) = .ok (j, r)

theorem Opens.readsBack {depth : Nat} {j : Json} (opens : Opens (itemText j))
    (step : ∀ fuel r, (itemText j).length ≤ fuel + 1 →
      readValue (fuel + 1) depth (itemText j ++ r) = .ok (j, r)) : ReadsBack depth j := by
  intro fuel r enough
  have given := opens.length_pos
  obtain ⟨fuel, rfl⟩ := Nat.exists_eq_succ_of_ne_zero (by omega : fuel ≠ 0)
  exact step fuel r enough

theorem readItems_listed {depth : Nat} {js : List Json}
    (each : ∀ j ∈ js, Opens (itemText j) ∧ ReadsBack depth j) (isFirst : Bool) (r : List Char)
    {fuel : Nat} (enough : (listed isFirst (js.map itemText)).length < fuel) :
    readItems fuel depth isFirst (listed isFirst (js.map itemText) ++ ']' :: r) = .ok (js, r) := by
  induction js generalizing isFirst fuel with
  | nil =>
    obtain ⟨fuel, rfl⟩ := Nat.exists_eq_succ_of_ne_zero (Nat.ne_zero_of_lt enough)
    rw [readItems, List.map_nil, nextItem_end]
    rfl
  | cons j js ih =>
    obtain ⟨fuel, rfl⟩ := Nat.exists_eq_succ_of_ne_zero (Nat.ne_zero_of_lt enough)
    obtain ⟨⟨opens, back⟩, rest⟩ := List.forall_mem_cons.mp each
    rw [List.map_cons] at enough ⊢
    have lengths := length_listed_cons isFirst (itemText j) (js.map itemText)
    have given := opens.length_pos
    rw [readItems, nextItem_listed opens]
    simp only [bind, Except.bind]
    rw [back fuel _ (by omega)]
    simp only
    rw [ih rest false (by omega)]

theorem readMembers_listed {depth : Nat} {ms : List (String × Json)}
    (each : ∀ m ∈ ms, ReadsBack depth m.2) (isFirst : Bool) (r : List Char) {fuel : Nat}
    (enough : (listed isFirst (ms.map memberText)).length < fuel) :
    readMembers fuel depth isFirst (listed isFirst (ms.map memberText) ++ '\x7d' :: r) =
      .ok (ms, r) := by
  induction ms generalizing isFirst fuel with
  | nil =>
    obtain ⟨fuel, rfl⟩ := Nat.exists_eq_succ_of_ne_zero (Nat.ne_zero_of_lt enough)
    rw [readMembers, List.map_nil, nextMember_end]
    rfl
  | cons m ms ih =>
    obtain ⟨fuel, rfl⟩ := Nat.exists_eq_succ_of_ne_zero (Nat.ne_zero_of_lt enough)
    obtain ⟨back, rest⟩ := List.forall_mem_cons.mp each
    rw [List.map_cons] at enough ⊢
    have lengths := length_listed_cons isFirst (memberText m) (ms.map memberText)
    have longer : (itemText m.2).length < (memberText m).length := by
      simp only [memberText, List.length_cons, List.length_append]
      omega
    rw [readMembers, memberText, nextMember_listed]
    simp only [bind, Except.bind, List.append_assoc, List.cons_append]
    rw [readString_written]
    simp only [colon_next]
    rw [back fuel _ (by omega)]
    simp only
    rw [ih rest false (by omega)]

/-- A value without numbers is read back from its text, if it is not too deep for the reader. -/
theorem Plain.readsBack {depth : Nat} {j : Json} (plain : Plain depth j) {limit : Nat}
    (shallow : depth < limit) : ReadsBack limit j := by
  -- What stands in a list or an object is read with a limit that is smaller by one.
  induction plain generalizing limit with
  | @null depth => exact (null : Plain depth .null).opens.readsBack fun _ _ _ => rfl
  | @bool depth b =>
    apply (bool b : Plain depth (.bool b)).opens.readsBack
    intro fuel r _
    cases b <;> rfl
  | @string depth s =>
    apply (string s : Plain depth (.string s)).opens.readsBack
    intro fuel r _
    have written : itemText (.string s) = '"' :: (s.toList.flatMap escapeChar ++ ['"']) :=
      stringText_toList s
    have mark : isBlank '"' = false := rfl
    rw [written, List.cons_append, List.append_assoc, List.singleton_append, readValue,
      skipBlanks_of_visible mark]
    simp [readString_written, bind, Except.bind]
  | @array depth items inner ih =>
    apply (array inner).opens.readsBack
    intro fuel r enough
    rw [itemText_array] at enough ⊢
    simp only [List.length_cons, List.length_append, List.length_nil] at enough
    have each : ∀ j ∈ items, Opens (itemText j) ∧ ReadsBack (limit - 1) j := fun j member =>
      ⟨(inner j member).opens, ih j member (by omega)⟩
    have read := readItems_listed each true r (by omega : _ < fuel)
    have bracket : isBlank '[' = false := rfl
    have deep : ¬limit ≤ 1 := by omega
    rw [List.cons_append, List.append_assoc, List.singleton_append, readValue,
      skipBlanks_of_visible bracket]
    simp [read, deep, bind, Except.bind]
  | @object depth members inner ih =>
    apply (object inner).opens.readsBack
    intro fuel r enough
    rw [itemText_object] at enough ⊢
    simp only [List.length_cons, List.length_append, List.length_nil] at enough
    have each : ∀ m ∈ members, ReadsBack (limit - 1) m.2 := fun m member =>
      ih m member (by omega)
    have read := readMembers_listed each true r (by omega : _ < fuel)
    have brace : isBlank '\x7b' = false := rfl
    have deep : ¬limit ≤ 1 := by omega
    rw [List.cons_append, List.append_assoc, List.singleton_append, readValue,
      skipBlanks_of_visible brace]
    simp [read, deep, bind, Except.bind]

/-! ### Whole texts -/

theorem readAll_of_read {α : Type} {reader : List Char → Read (Then α)} {text : String} {a : α}
    (read : reader text.toList = .ok (a, [])) : readAll reader text = .ok a := by
  simp only [readAll, read]
  rfl

end Phrasebook.Json
