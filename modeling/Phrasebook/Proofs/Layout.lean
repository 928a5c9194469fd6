import Mathlib.Tactic.ByContra
import Phrasebook.Text.Alphanumeric
import Phrasebook.Yaml.Decoding

/-!
Block mappings as they are written: lines with a key and its value, lines with a key alone and
fields of their own below it, and around them comments and lines without content. Columns and blanks
are free as far as YAML leaves them free on such lines, and a line ends in either of the usual ways.
-/

namespace Phrasebook.Yaml

/-! ### What is written -/

/-- A word for a truth value. -/
structure Truth where
  word : String
  value : Bool
  spelled : Shape.boolean? word = some value

inductive Leaf where
  | text (s : String)
  | truth (t : Truth)

structure Field where
  key : String
  value : Leaf

inductive Entry where
  | field (f : Field)
  | group (key : String) (fields : List Field)

def Entry.key : Entry → String
  | field f => f.key
  | group k _ => k

/-- Letters and digits of any script, and `_`. -/
def isNameChar (c : Char) : Bool := c == '_' || Text.isAlphanumeric c

structure IsName (k : String) : Prop where
  nonempty : k.toList ≠ []
  named : ∀ c ∈ k.toList, isNameChar c = true

/-- What stands for itself between quotation marks: printable ASCII but the mark and the escape. -/
def isQuotable (c : Char) : Bool := ' ' ≤ c && c ≤ '~' && c != '"' && c != '\\'

/-! ### Between the fields -/

/-- A comment, or nothing. -/
inductive Remark : List Char → Prop where
  | none : Remark []
  | comment {cs : List Char} (fits : ∀ c ∈ cs, TokenStream.isAllowed c = true ∧ isBreak c = false) :
      Remark ('#' :: cs)

inductive LineEnd : List Char → Prop where
  | lf : LineEnd ['\n']
  | crlf : LineEnd ['\r', '\n']

/-- From the start of a line: any lines without content, then `x` at that column. -/
inductive Below (column : Nat) (x : List Char) : List Char → Prop where
  | here : Below column x (List.replicate column ' ' ++ x)
  | idle (n : Nat) {k b r : List Char} (remark : Remark k) (ends : LineEnd b)
      (below : Below column x r) : Below column x (List.replicate n ' ' ++ (k ++ (b ++ r)))

/-- What may come on a line after its content. A comment stands apart from it. -/
inductive Trailing : List Char → Prop where
  | blanks {ws : List Char} (blank : ∀ c ∈ ws, isSpaceOrTab c = true) : Trailing ws
  | comment {ws k : List Char} (blank : ∀ c ∈ ws, isSpaceOrTab c = true) (apart : ws ≠ [])
      (remark : Remark k) : Trailing (ws ++ k)

/-- From after the content of a line to `x` at that column of a later line. -/
inductive Onward (column : Nat) (x : List Char) : List Char → Prop where
  | mk {t b r : List Char} (trailing : Trailing t) (ends : LineEnd b) (below : Below column x r) :
      Onward column x (t ++ (b ++ r))

/-- From after the content of the last line to the end. -/
inductive Closing : List Char → Prop where
  | here {t : List Char} (trailing : Trailing t) : Closing t
  | onward {n : Nat} {k r : List Char} (remark : Remark k) (onward : Onward n k r) : Closing r

/-! ### Fields and groups -/

inductive LeafText : Leaf → List Char → Prop where
  | text {s : String} (fits : ∀ c ∈ s.toList, isQuotable c = true) :
      LeafText (.text s) ('"' :: (s.toList ++ ['"']))
  | truth (t : Truth) : LeafText (.truth t) t.word.toList

/-- A key and the blanks up to its colon. -/
inductive KeyText (k : String) : List Char → Prop where
  | mk {ws : List Char} (name : IsName k) (blank : ∀ c ∈ ws, isSpaceOrTab c = true) :
      KeyText k (k.toList ++ ws)

inductive FieldText : Field → List Char → Prop where
  | mk {k : String} {v : Leaf} {t ws w : List Char} (key : KeyText k t)
      (short : t.length ≤ keyLengthLimit) (blank : ∀ c ∈ ws, isSpaceOrTab c = true)
      (apart : ws ≠ []) (value : LeafText v w) :
      FieldText ⟨k, v⟩ (t ++ ':' :: (ws ++ w))

/-- Fields at one column, and after them `r`. -/
inductive FieldsText (column : Nat) (r : List Char) : List Field → List Char → Prop where
  | last {f : Field} {t : List Char} (field : FieldText f t) : FieldsText column r [f] (t ++ r)
  | more {f : Field} {fs : List Field} {t u v : List Char} (field : FieldText f t)
      (onward : Onward column u v) (fields : FieldsText column r fs u) :
      FieldsText column r (f :: fs) (t ++ v)

/-- An entry of a mapping at that column, and after it `r`. The fields of a group stand deeper. -/
inductive EntryText (column : Nat) (r : List Char) : Entry → List Char → Prop where
  | field {f : Field} {t : List Char} (field : FieldText f t) :
      EntryText column r (.field f) (t ++ r)
  | group {k : String} {fs : List Field} {n : Nat} {t u v : List Char} (key : KeyText k t)
      (short : t.length ≤ keyLengthLimit) (deeper : column < n) (onward : Onward n u v)
      (fields : FieldsText n r fs u) :
      EntryText column r (.group k fs) (t ++ ':' :: v)

inductive EntriesText (column : Nat) (r : List Char) : List Entry → List Char → Prop where
  | last {e : Entry} {t : List Char} (entry : EntryText column r e t) :
      EntriesText column r [e] t
  | more {e : Entry} {es : List Entry} {t u v : List Char} (entry : EntryText column v e t)
      (onward : Onward column u v) (entries : EntriesText column r es u) :
      EntriesText column r (e :: es) t

/-- A text that holds these entries and nothing else. -/
inductive PageText (es : List Entry) : List Char → Prop where
  | mk {column : Nat} {u r cs : List Char} (below : Below column u cs)
      (entries : EntriesText column r es u) (closing : Closing r) : PageText es cs

/-! ### Characters -/

/-- No letter or digit breaks a line, and all of them may occur. -/
theorem alphanumericRanges_allowed :
    ∀ r ∈ Text.alphanumericRanges, 0xA0 ≤ r.1 ∧ (r.2 < 0x2028 ∨ 0x2029 < r.1) ∧
      (r.2 ≤ 0xFFFD ∨ 0x10000 ≤ r.1) := by
  decide +kernel

theorem isAlphanum_toNat {c : Char} (alphanumeric : c.isAlphanum = true) :
    (0x41 ≤ c.toNat ∧ c.toNat ≤ 0x5A) ∨ (0x61 ≤ c.toNat ∧ c.toNat ≤ 0x7A) ∨
      (0x30 ≤ c.toNat ∧ c.toNat ≤ 0x39) := by
  obtain letter | digit := (Bool.or_eq_true _ _).mp alphanumeric
  · obtain upper | lower := (Bool.or_eq_true _ _).mp letter
    · exact .inl (of_decide_eq_true upper)
    · obtain ⟨low, high⟩ := (Bool.and_eq_true _ _).mp lower
      exact .inr (.inl ⟨of_decide_eq_true low, of_decide_eq_true high⟩)
  · exact .inr (.inr (Char.isDigit_iff_toNat.mp digit))

theorem isNameChar_toNat {c : Char} (named : isNameChar c = true) :
    (0x30 ≤ c.toNat ∧ c.toNat ≤ 0x39) ∨ (0x41 ≤ c.toNat ∧ c.toNat ≤ 0x5A) ∨ c.toNat = 0x5F ∨
      (0x61 ≤ c.toNat ∧ c.toNat ≤ 0x7A) ∨ (0xA0 ≤ c.toNat ∧
        (c.toNat < 0x2028 ∨ 0x2029 < c.toNat) ∧ (c.toNat ≤ 0xFFFD ∨ 0x10000 ≤ c.toNat)) := by
  simp only [isNameChar, Text.isAlphanumeric, Bool.or_eq_true, beq_iff_eq, List.any_eq_true,
    Bool.and_eq_true, decide_eq_true_eq] at named
  obtain rfl | alphanumeric | ⟨r, member, low, high⟩ := named
  · decide
  · have place := isAlphanum_toNat alphanumeric
    omega
  · obtain ⟨beyond, noBreak, allowed⟩ := alphanumericRanges_allowed r member
    omega

theorem isBreak_iff {c : Char} : isBreak c = true ↔
    c.toNat = 0x0D ∨ c.toNat = 0x0A ∨ c.toNat = 0x85 ∨ c.toNat = 0x2028 ∨ c.toNat = 0x2029 := by
  simp only [isBreak, Bool.or_eq_true, beq_iff_eq, ← Char.toNat_inj, or_assoc]
  rfl

theorem isSpaceOrTab_iff {c : Char} : isSpaceOrTab c = true ↔ c = ' ' ∨ c = '\t' := by
  simp only [isSpaceOrTab, Bool.or_eq_true, beq_iff_eq]

theorem isAllowed_iff {c : Char} : TokenStream.isAllowed c = true ↔
    c.toNat = 0x09 ∨ c.toNat = 0x0A ∨ c.toNat = 0x0D ∨ (0x20 ≤ c.toNat ∧ c.toNat ≤ 0x7E) ∨
      c.toNat = 0x85 ∨ (0xA0 ≤ c.toNat ∧ c.toNat ≤ 0xFFFD) ∨ 0x10000 ≤ c.toNat := by
  simp only [TokenStream.isAllowed, Bool.or_eq_true, beq_iff_eq, Bool.and_eq_true,
    decide_eq_true_eq, or_assoc]

theorem ne_of_isNameChar {c d : Char} (named : isNameChar c = true) (other : isNameChar d = false) :
    c ≠ d := by
  rintro rfl
  exact Bool.false_ne_true (other.symm.trans named)

theorem isBreak_of_isNameChar {c : Char} (named : isNameChar c = true) : isBreak c = false := by
  have place := isNameChar_toNat named
  rw [Bool.eq_false_iff, ne_eq, isBreak_iff]
  omega

theorem isSpaceOrTab_of_isNameChar {c : Char} (named : isNameChar c = true) :
    isSpaceOrTab c = false := by
  rw [Bool.eq_false_iff, ne_eq, isSpaceOrTab_iff]
  rintro (rfl | rfl) <;> exact absurd named (by decide +kernel)

theorem isAllowed_of_isNameChar {c : Char} (named : isNameChar c = true) :
    TokenStream.isAllowed c = true := by
  have place := isNameChar_toNat named
  rw [isAllowed_iff]
  omega

theorem isQuotable_iff {c : Char} : isQuotable c = true ↔
    0x20 ≤ c.toNat ∧ c.toNat ≤ 0x7E ∧ c ≠ '"' ∧ c ≠ '\\' := by
  simp only [isQuotable, Bool.and_eq_true, decide_eq_true_eq, bne_iff_ne, ne_eq, and_assoc,
    Char.le_def, UInt32.le_iff_toNat_le]
  rfl

theorem isAllowed_of_isQuotable {c : Char} (fits : isQuotable c = true) :
    TokenStream.isAllowed c = true := by
  obtain ⟨low, high, -, -⟩ := isQuotable_iff.mp fits
  rw [isAllowed_iff]
  omega

theorem isBreak_of_isQuotable {c : Char} (fits : isQuotable c = true) : isBreak c = false := by
  obtain ⟨low, high, -, -⟩ := isQuotable_iff.mp fits
  rw [Bool.eq_false_iff, ne_eq, isBreak_iff]
  omega

theorem isSpaceOrTab_of_isQuotable {c : Char} (fits : isQuotable c = true) (solid : c ≠ ' ') :
    isSpaceOrTab c = false := by
  rw [Bool.eq_false_iff, ne_eq, isSpaceOrTab_iff]
  rintro (rfl | rfl)
  · exact solid rfl
  · exact absurd fits (by decide)

theorem isAllowed_of_isSpaceOrTab {c : Char} (blank : isSpaceOrTab c = true) :
    TokenStream.isAllowed c = true := by
  rcases isSpaceOrTab_iff.mp blank with rfl | rfl <;> decide

theorem Truth.word_mem (t : Truth) :
    t.word ∈ ["true", "True", "TRUE"] ∨ t.word ∈ ["false", "False", "FALSE"] := by
  by_contra neither
  rw [not_or, ← List.contains_iff_mem, ← List.contains_iff_mem, Bool.not_eq_true,
    Bool.not_eq_true] at neither
  have unspelled : Shape.boolean? t.word = none := by
    simp only [Shape.boolean?, neither, Bool.false_eq_true, if_false]
  exact Option.some_ne_none _ (t.spelled.symm.trans unspelled)

theorem Truth.isName (t : Truth) : IsName t.word := by
  have words : ∀ w ∈ ["true", "True", "TRUE", "false", "False", "FALSE"],
      w.toList ≠ [] ∧ w.toList.all isNameChar = true := by
    decide +kernel
  have member : t.word ∈ ["true", "True", "TRUE", "false", "False", "FALSE"] :=
    List.mem_append.mpr t.word_mem
  exact ⟨(words t.word member).1, List.all_eq_true.mp (words t.word member).2⟩

/-! ### All characters may occur -/

def Clean (cs : List Char) : Prop := ∀ c ∈ cs, TokenStream.isAllowed c = true

variable {column : Nat} {x r t u v : List Char}

theorem clean_nil : Clean [] := List.forall_mem_nil _

theorem clean_cons {c : Char} {cs : List Char} :
    Clean (c :: cs) ↔ TokenStream.isAllowed c = true ∧ Clean cs := List.forall_mem_cons

theorem clean_append {cs ds : List Char} : Clean (cs ++ ds) ↔ Clean cs ∧ Clean ds :=
  List.forall_mem_append

theorem clean_spaces (n : Nat) : Clean (List.replicate n ' ') := by
  intro c member
  rw [List.eq_of_mem_replicate member]
  rfl

theorem clean_blanks {ws : List Char} (blank : ∀ c ∈ ws, isSpaceOrTab c = true) : Clean ws :=
  fun c member => isAllowed_of_isSpaceOrTab (blank c member)

theorem Remark.clean (remark : Remark r) : Clean r := by
  cases remark with
  | none => exact clean_nil
  | comment fits => exact clean_cons.mpr ⟨rfl, fun c member => (fits c member).1⟩

theorem LineEnd.clean (ends : LineEnd r) : Clean r := by
  cases ends with
  | lf => exact clean_cons.mpr ⟨rfl, clean_nil⟩
  | crlf => exact clean_cons.mpr ⟨rfl, clean_cons.mpr ⟨rfl, clean_nil⟩⟩

theorem Below.clean (below : Below column x r) (rest : Clean x) : Clean r := by
  induction below with
  | here => exact clean_append.mpr ⟨clean_spaces _, rest⟩
  | idle n remark ends below ih =>
    exact clean_append.mpr ⟨clean_spaces n,
      clean_append.mpr ⟨remark.clean, clean_append.mpr ⟨ends.clean, ih⟩⟩⟩

theorem Trailing.clean (trailing : Trailing t) : Clean t := by
  cases trailing with
  | blanks blank => exact clean_blanks blank
  | comment blank _ remark => exact clean_append.mpr ⟨clean_blanks blank, remark.clean⟩

theorem Onward.clean (onward : Onward column x r) (rest : Clean x) : Clean r := by
  obtain ⟨trailing, ends, below⟩ := onward
  exact clean_append.mpr ⟨trailing.clean, clean_append.mpr ⟨ends.clean, below.clean rest⟩⟩

theorem Closing.clean (closing : Closing r) : Clean r := by
  cases closing with
  | here trailing => exact trailing.clean
  | onward remark onward => exact onward.clean remark.clean

theorem IsName.clean {k : String} (name : IsName k) : Clean k.toList :=
  fun c member => isAllowed_of_isNameChar (name.named c member)

theorem KeyText.clean {k : String} (key : KeyText k t) : Clean t := by
  obtain ⟨name, blank⟩ := key
  exact clean_append.mpr ⟨name.clean, clean_blanks blank⟩

theorem LeafText.clean {l : Leaf} (leaf : LeafText l t) : Clean t := by
  cases leaf with
  | text fits =>
    exact clean_cons.mpr ⟨rfl, clean_append.mpr
      ⟨fun c member => isAllowed_of_isQuotable (fits c member), clean_cons.mpr ⟨rfl, clean_nil⟩⟩⟩
  | truth t => exact t.isName.clean

theorem FieldText.clean {f : Field} (field : FieldText f t) : Clean t := by
  obtain ⟨key, -, blank, -, value⟩ := field
  exact clean_append.mpr ⟨key.clean,
    clean_cons.mpr ⟨rfl, clean_append.mpr ⟨clean_blanks blank, value.clean⟩⟩⟩

theorem FieldsText.clean {fs : List Field} (fields : FieldsText column r fs t) (rest : Clean r) :
    Clean t := by
  induction fields with
  | last field => exact clean_append.mpr ⟨field.clean, rest⟩
  | more field onward _ ih => exact clean_append.mpr ⟨field.clean, onward.clean ih⟩

theorem EntryText.clean {e : Entry} (entry : EntryText column r e t) (rest : Clean r) :
    Clean t := by
  cases entry with
  | field field => exact clean_append.mpr ⟨field.clean, rest⟩
  | group key _ _ onward fields =>
    exact clean_append.mpr ⟨key.clean, clean_cons.mpr ⟨rfl, onward.clean (fields.clean rest)⟩⟩

theorem EntriesText.clean {es : List Entry} (entries : EntriesText column r es t) (rest : Clean r) :
    Clean t := by
  induction entries with
  | last entry => exact entry.clean rest
  | more entry onward _ ih => exact entry.clean (onward.clean ih)

theorem PageText.clean {es : List Entry} (page : PageText es t) : Clean t := by
  obtain ⟨below, entries, closing⟩ := page
  exact below.clean (entries.clean closing.clean)

theorem forbidden?_eq_none {cs : List Char} (clean : Clean cs) :
    TokenStream.forbidden? cs = none := by
  induction cs with
  | nil => rfl
  | cons c cs ih =>
    obtain ⟨allowed, rest⟩ := clean_cons.mp clean
    simp only [TokenStream.forbidden?, allowed, if_true, ih rest, Option.map_none]

/-! ### A colon after the first key -/

theorem Below.mem_of_mem {c : Char} (below : Below column x r) (member : c ∈ x) : c ∈ r := by
  induction below with
  | here => exact List.mem_append_right _ member
  | idle n _ _ _ ih =>
    exact List.mem_append_right _ (List.mem_append_right _ (List.mem_append_right _ ih))

theorem FieldText.colon {f : Field} (field : FieldText f t) : ':' ∈ t := by
  obtain ⟨-, -, -, -, -⟩ := field
  exact List.mem_append_right _ List.mem_cons_self

theorem EntryText.colon {e : Entry} (entry : EntryText column r e t) : ':' ∈ t := by
  cases entry with
  | field field => exact List.mem_append_left _ field.colon
  | group => exact List.mem_append_right _ List.mem_cons_self

theorem PageText.colon {es : List Entry} (page : PageText es t) : ':' ∈ t := by
  obtain ⟨below, entries, -⟩ := page
  refine below.mem_of_mem ?_
  cases entries with
  | last entry => exact entry.colon
  | more entry => exact entry.colon

end Phrasebook.Yaml
