import Phrasebook.Fluent.Reader
import Phrasebook.Proofs.Cut
import Phrasebook.Text.Blank

/-!
Documents of plain lines. A line is a name and a text without braces, and a sheet is any number of
lines one under the other. The reader gives back the lines of a sheet, each as a message whose value
is the text as it was written.
-/

namespace Phrasebook.Fluent

/-- A character that cannot end the text of a line or stand for more than itself. -/
def isPlain (c : Char) : Bool := c != '{' && c != '}' && c != '\r' && c != '\n'

def isInk (c : Char) : Bool := !Text.isBlank c

/-- A line `id = text`, whose text begins and ends with what can be seen. -/
structure Line where
  id : String
  text : String
  named : id.toList.head?.any isIdStart = true
  spelled : id.toList.all isIdChar = true
  plain : text.toList.all isPlain = true
  begins : text.toList.head?.any isInk = true
  ends : text.toList.getLast?.any isInk = true

inductive LineEnd where
  | feed
  | crlf

/-- Lines one under the other; the last may lack its end. -/
inductive Sheet where
  | empty
  | last (line : Line)
  | next (line : Line) (ending : LineEnd) (rest : Sheet)
  deriving Inhabited

namespace Line

def written (l : Line) : String := l.id ++ " = " ++ l.text

/-- The message that a line defines. -/
def entry (l : Line) : Entry := ⟨.message, l.id, some [.text l.text], []⟩

end Line

def LineEnd.text : LineEnd → String
  | feed => "\n"
  | crlf => "\r\n"

namespace Sheet

def text : Sheet → String
  | empty => ""
  | last line => line.written
  | next line ending rest => line.written ++ ending.text ++ rest.text

def lines : Sheet → List Line
  | empty => []
  | last line => [line]
  | next line _ rest => line :: rest.lines

end Sheet

/-! ### Where a line begins -/

/-- What may follow a line: nothing, or a letter. -/
def Fresh (cs : List Char) : Prop := ∀ c ∈ cs.head?, isIdStart c = true

theorem Fresh.ne {c : Char} {cs : List Char} (fresh : Fresh (c :: cs)) {d : Char}
    (other : isIdStart d = false) : c ≠ d := by
  rintro rfl
  have starts := fresh c rfl
  rw [other] at starts
  cases starts

theorem skipSpaces_fresh {cs : List Char} (fresh : Fresh cs) : skipSpaces cs = cs := by
  cases cs with
  | nil => rfl
  | cons c cs =>
    have noSpace : c ≠ ' ' := fresh.ne (by decide)
    simp [skipSpaces, noSpace]

theorem skipBlankLines_fresh {cs : List Char} (fresh : Fresh cs) : skipBlankLines cs = cs := by
  cases cs with
  | nil => rfl
  | cons c cs =>
    have noSpace : c ≠ ' ' := fresh.ne (by decide)
    have noFeed : c ≠ '\n' := fresh.ne (by decide)
    have noReturn : c ≠ '\r' := fresh.ne (by decide)
    simp [skipBlankLines, skipBlankLinesFrom, noSpace, noFeed, noReturn]

theorem attributes_fresh {cs : List Char} (fresh : Fresh cs) (fuel : Nat) :
    attributes fuel cs = ([], cs) := by
  cases fuel with
  | zero => rfl
  | succ fuel =>
    rw [attributes, skipSpaces_fresh fresh]
    cases cs with
    | nil => rfl
    | cons c cs =>
      have noDot : c ≠ '.' := fresh.ne (by decide)
      simp [noDot]

theorem pieces_fresh {cs : List Char} (fresh : Fresh cs) (fuel : Nat) :
    pieces (fuel + 1) .lineStart cs = .ok ([], cs) := by
  cases cs with
  | nil => rfl
  | cons c cs =>
    have noBrace : c ≠ '{' := fresh.ne (by decide)
    have noSpace : c ≠ ' ' := fresh.ne (by decide)
    have noFeed : c ≠ '\n' := fresh.ne (by decide)
    have noReturn : c ≠ '\r' := fresh.ne (by decide)
    rw [pieces]
    · simp [noSpace, goesOn, noFeed, noReturn]
    · simp
    · simpa using noBrace

/-! ### The text of a line -/

namespace Line

variable (l : Line)

theorem ne_of_mem {c : Char} (member : c ∈ l.text.toList) :
    c ≠ '{' ∧ c ≠ '}' ∧ c ≠ '\r' ∧ c ≠ '\n' := by
  have plain := List.all_eq_true.mp l.plain c member
  simpa only [isPlain, Bool.and_eq_true, bne_iff_ne, and_assoc] using plain

theorem isRunChar_of_mem {c : Char} (member : c ∈ l.text.toList) : isRunChar c = true := by
  obtain ⟨noOpen, noClose, -, noFeed⟩ := l.ne_of_mem member
  simp [isRunChar, noOpen, noClose, noFeed]

theorem exists_cons :
    ∃ c cs, l.text.toList = c :: cs ∧ c ≠ ' ' ∧ c ≠ '{' ∧ c ≠ '\r' ∧ c ≠ '\n' := by
  obtain ⟨c, first, ink⟩ := (Option.any_eq_true isInk _).mp l.begins
  obtain ⟨cs, split⟩ := List.head?_eq_some_iff.mp first
  obtain ⟨noOpen, -, noReturn, noFeed⟩ := l.ne_of_mem (c := c) (by simp [split])
  refine ⟨c, cs, split, ?_, noOpen, noReturn, noFeed⟩
  rintro rfl
  exact absurd ink (by decide)

theorem exists_concat : ∃ cs c, l.text.toList = cs ++ [c] ∧ isClosing c = false ∧ c ≠ '\r' := by
  obtain ⟨c, last, ink⟩ := (Option.any_eq_true isInk _).mp l.ends
  obtain ⟨cs, split⟩ := List.getLast?_eq_some_iff.mp last
  obtain ⟨-, -, noReturn, noFeed⟩ := l.ne_of_mem (c := c) (by simp [split])
  have noSpace : c ≠ ' ' := by
    rintro rfl
    exact absurd ink (by decide)
  exact ⟨cs, c, split, by simp [isClosing, noSpace, noReturn, noFeed], noReturn⟩

theorem text_ne_nil : l.text.toList ≠ [] := by
  obtain ⟨c, cs, split, -⟩ := l.exists_cons
  simp [split]

theorem not_spaces : l.text.toList.all (· == ' ') = false := by
  obtain ⟨c, cs, split, noSpace, -⟩ := l.exists_cons
  simp [split, noSpace]

theorem trimEnd_text : trimEnd l.text.toList = l.text.toList := by
  obtain ⟨cs, c, split, notClosing, -⟩ := l.exists_concat
  simp [trimEnd, split, notClosing]

theorem trimEnd_text_feed : trimEnd (l.text.toList ++ ['\n']) = l.text.toList := by
  have closing : isClosing '\n' = true := by decide
  have trimmed := l.trimEnd_text
  unfold trimEnd at trimmed ⊢
  rw [List.reverse_append, List.reverse_singleton, List.singleton_append,
    List.dropWhile_cons_of_pos closing, trimmed]

theorem run_feed (rest : List Char) : run (l.text.toList ++ '\n' :: rest) =
    .ok (⟨l.text.toList ++ ['\n'], false, .lineFeed⟩, rest) := by
  have notRunChar : isRunChar '\n' = false := by decide
  obtain ⟨cs, c, split, -, noReturn⟩ := l.exists_concat
  have line := Text.takeWhile_cut (fun _ => l.isRunChar_of_mem) notRunChar rest
  have after := Text.dropWhile_cut (fun _ => l.isRunChar_of_mem) notRunChar rest
  have last : l.text.toList.getLast? ≠ some '\r' := by simp [split, noReturn]
  unfold run
  simp only [line, after, if_neg last, l.not_spaces]

theorem run_crlf (rest : List Char) : run (l.text.toList ++ '\r' :: '\n' :: rest) =
    .ok (⟨l.text.toList, false, .crlf⟩, '\n' :: rest) := by
  have notRunChar : isRunChar '\n' = false := by decide
  have runChars : ∀ c ∈ l.text.toList ++ ['\r'], isRunChar c = true := by
    intro c member
    rcases List.mem_append.mp member with inText | inEnd
    · exact l.isRunChar_of_mem inText
    · rw [List.mem_singleton.mp inEnd]
      decide
  have spelled : l.text.toList ++ '\r' :: '\n' :: rest =
      l.text.toList ++ ['\r'] ++ '\n' :: rest := by simp
  have line := Text.takeWhile_cut runChars notRunChar rest
  have after := Text.dropWhile_cut runChars notRunChar rest
  rw [spelled]
  unfold run
  simp only [line, after, List.getLast?_concat, if_true, List.dropLast_concat, l.not_spaces]

theorem run_textEnd : run l.text.toList = .ok (⟨l.text.toList, false, .textEnd⟩, []) := by
  have line : l.text.toList.takeWhile isRunChar = l.text.toList :=
    List.takeWhile_eq_self_iff.mpr fun _ => l.isRunChar_of_mem
  have after : l.text.toList.dropWhile isRunChar = [] :=
    List.dropWhile_eq_nil_iff.mpr fun _ => l.isRunChar_of_mem
  unfold run
  simp only [line, after, l.not_spaces]

/-! ### The pattern of a line -/

/-- The ways for a line to end, and what is left after each. -/
inductive Closes : List Char → List Char → Prop
  | feed {rest : List Char} (fresh : Fresh rest) : Closes ('\n' :: rest) rest
  | crlf {rest : List Char} (fresh : Fresh rest) : Closes ('\r' :: '\n' :: rest) rest
  | textEnd : Closes [] []

theorem Closes.fresh {tail rest : List Char} (closes : Closes tail rest) : Fresh rest := by
  cases closes with
  | feed fresh => exact fresh
  | crlf fresh => exact fresh
  | textEnd => simp [Fresh]

variable {tail rest : List Char}

/-- The first piece of a pattern is a run that is not empty. -/
theorem pieces_first {cs r rest : List Char} {t : Run} {ps : List Piece} {fuel : Nat}
    (begins : ∃ c cs', cs = c :: cs' ∧ c ≠ '{') (read : run cs = .ok (t, r)) (ink : t.text ≠ [])
    (more : pieces fuel t.ending.next r = .ok (ps, rest)) :
    pieces (fuel + 1) .first cs = .ok (.text t.text 0 .first t.isBlank :: ps, rest) := by
  have kept : keeps .first t = true := by simp [keeps, ink]
  obtain ⟨c, cs', rfl, noBrace⟩ := begins
  rw [pieces]
  · simp [read, more, kept, bind, Except.bind]
  · simp
  · simpa using noBrace

/-- After a CRLF its line feed is a blank piece of its own. -/
theorem pieces_lineFeed (fresh : Fresh rest) (fuel : Nat) :
    pieces (fuel + 2) .lineStart ('\n' :: rest) = .ok ([.text ['\n'] 0 .lineStart true], rest) := by
  have read : run ('\n' :: rest) = .ok (⟨['\n'], true, .lineFeed⟩, rest) := by
    simp [run, isRunChar]
  rw [pieces]
  · simp [read, goesOn, keeps, RunEnd.next, pieces_fresh fresh, bind, Except.bind]
  · simp
  · simp

/-- Blank pieces after the first leave nothing behind. -/
theorem assemble_first (value : List Char) {blanks : List Piece}
    (blank : ∀ p ∈ blanks, p.isInk = false ∧ p.indent? = none) :
    assemble (.text value 0 .first false :: blanks) =
      some [.text (String.ofList (trimEnd value))] := by
  have noTail : dropBlankTail (.text value 0 .first false :: blanks) =
      [.text value 0 .first false] := by
    have noInk : ∀ p ∈ blanks.reverse, (!p.isInk) = true := by
      intro p member
      rw [(blank p (List.mem_reverse.mp member)).1]
      rfl
    rw [dropBlankTail, List.reverse_cons, List.dropWhile_append_of_pos noInk]
    simp [Piece.isInk]
  have noIndent : (.text value 0 .first false :: blanks).filterMap Piece.indent? = [] := by
    rw [List.filterMap_eq_nil_iff]
    intro p member
    rcases List.mem_cons.mp member with rfl | later
    · rfl
    · exact (blank p later).2
  rw [assemble, noTail, noIndent]
  rfl

theorem begins_append (tail : List Char) :
    ∃ c cs, l.text.toList ++ tail = c :: cs ∧ c ≠ '{' := by
  obtain ⟨c, cs, split, -, noBrace, -⟩ := l.exists_cons
  exact ⟨c, cs ++ tail, by rw [split, List.cons_append], noBrace⟩

/-- However a line ends, its pieces make up its text. -/
theorem pieces_closes (closes : Closes tail rest) (fuel : Nat) :
    ∃ ps, pieces (fuel + 3) .first (l.text.toList ++ tail) = .ok (ps, rest) ∧
      assemble ps = some [.text l.text] := by
  cases closes with
  | feed fresh =>
    refine ⟨_, pieces_first (l.begins_append _) (l.run_feed rest) (by simp)
      (pieces_fresh fresh (fuel + 1)), ?_⟩
    rw [assemble_first _ (by simp), l.trimEnd_text_feed, String.ofList_toList]
  | crlf fresh =>
    refine ⟨_, pieces_first (l.begins_append _) (l.run_crlf rest) l.text_ne_nil
      (pieces_lineFeed fresh fuel), ?_⟩
    rw [assemble_first _ (by simp [Piece.isInk, Piece.indent?]), l.trimEnd_text,
      String.ofList_toList]
  | textEnd =>
    have done : pieces (fuel + 2) .inside [] = .ok ([], []) := rfl
    have read : run (l.text.toList ++ []) = .ok (⟨l.text.toList, false, .textEnd⟩, []) := by
      rw [List.append_nil, l.run_textEnd]
    refine ⟨_, pieces_first (l.begins_append _) read l.text_ne_nil done, ?_⟩
    rw [assemble_first _ (by simp), l.trimEnd_text, String.ofList_toList]

theorem pattern_closes (closes : Closes tail rest) (fuel : Nat) :
    pattern (fuel + 4) (' ' :: l.text.toList ++ tail) = .ok (some [.text l.text], rest) := by
  obtain ⟨c, cs, split, noSpace, -, noReturn, noFeed⟩ := l.exists_cons
  obtain ⟨ps, read, assembled⟩ := l.pieces_closes closes fuel
  have trimmed : skipSpaces (' ' :: l.text.toList ++ tail) = l.text.toList ++ tail := by
    simp [skipSpaces, split, noSpace]
  have inLine : afterLineEnd? (l.text.toList ++ tail) = none := by
    rw [split, List.cons_append]
    simp [afterLineEnd?, noReturn, noFeed]
  rw [pattern, trimmed, inLine]
  simp only [read, bind, Except.bind, assembled]

/-! ### Entries -/

theorem written_toList : l.written.toList = l.id.toList ++ ' ' :: '=' :: ' ' :: l.text.toList := by
  simp [written]

theorem id_cons : ∃ c cs, l.id.toList = c :: cs ∧ isIdStart c = true ∧ ∀ d ∈ cs, isIdChar d = true := by
  have named := l.named
  cases split : l.id.toList with
  | nil => simp [split] at named
  | cons c cs =>
    refine ⟨c, cs, rfl, by simpa [split] using named, ?_⟩
    intro d member
    exact List.all_eq_true.mp l.spelled d (by simp [split, member])

theorem fresh_written (tail : List Char) : Fresh (l.written.toList ++ tail) := by
  obtain ⟨c, cs, split, starts, -⟩ := l.id_cons
  rw [written_toList, split]
  simpa [Fresh] using starts

theorem identifier_id (rest : List Char) :
    identifier (l.id.toList ++ ' ' :: rest) = .ok (l.id, ' ' :: rest) := by
  obtain ⟨c, cs, split, starts, spelled⟩ := l.id_cons
  have stop : isIdChar ' ' = false := by decide
  have front := Text.takeWhile_cut spelled stop rest
  have back := Text.dropWhile_cut spelled stop rest
  have whole : String.ofList (c :: cs) = l.id := by rw [← split, String.ofList_toList]
  rw [split, List.cons_append, identifier, if_pos starts, front, back, whole]

theorem entry_closes (closes : Closes tail rest) :
    Fluent.entry (l.written.toList ++ tail) = .ok (l.entry, rest) := by
  have spelled : l.written.toList ++ tail =
      l.id.toList ++ ' ' :: '=' :: (' ' :: l.text.toList ++ tail) := by
    simp [written_toList]
  have noSpaces (r : List Char) : skipSpaces (' ' :: '=' :: r) = '=' :: r := by
    simp [skipSpaces]
  obtain ⟨fuel, enoughFuel⟩ : ∃ fuel, enough (' ' :: l.text.toList ++ tail) = fuel + 4 :=
    ⟨4 * (' ' :: l.text.toList ++ tail).length + 12, rfl⟩
  rw [spelled, Fluent.entry]
  · simp only [l.identifier_id, bind, Except.bind, noSpaces, expect, if_true, enoughFuel,
      l.pattern_closes closes fuel, skipBlankLines_fresh closes.fresh,
      attributes_fresh closes.fresh]
    rfl
  · intro r term
    obtain ⟨c, cs, split, starts, -⟩ := l.id_cons
    rw [split, List.cons_append] at term
    rw [(List.cons.inj term).1] at starts
    exact absurd starts (by decide)

theorem entries_closes (closes : Closes tail rest) (source : List Char) (fuel : Nat) :
    entries source (fuel + 1) (l.written.toList ++ tail) =
      (l.entry :: (entries source fuel rest).1, (entries source fuel rest).2) := by
  have read := l.entry_closes closes
  have fresh := l.fresh_written tail
  cases spelled : l.written.toList ++ tail with
  | nil => simp [written_toList] at spelled
  | cons c cs =>
    rw [spelled] at read fresh
    have noComment : c ≠ '#' := fresh.ne (by decide)
    rw [entries]
    · rw [read]
      simp only [skipBlankLines_fresh closes.fresh]
    · simp
    · simpa using noComment

end Line

/-! ### Sheets -/

namespace Sheet

theorem fresh_text (s : Sheet) : Fresh s.text.toList := by
  cases s with
  | empty => simp [Fresh, text]
  | last line => simpa [text] using line.fresh_written []
  | next line ending rest =>
    rw [text, String.append_assoc, String.toList_append]
    exact line.fresh_written _

theorem closes_next (ending : LineEnd) (rest : Sheet) :
    Line.Closes (ending.text.toList ++ rest.text.toList) rest.text.toList := by
  cases ending with
  | feed => exact .feed rest.fresh_text
  | crlf => exact .crlf rest.fresh_text

theorem entries_text (s : Sheet) (source : List Char) {fuel : Nat}
    (enough : s.text.toList.length < fuel) :
    entries source fuel s.text.toList = (s.lines.map Line.entry, []) := by
  obtain ⟨fuel, rfl⟩ := Nat.exists_eq_add_one_of_ne_zero (Nat.ne_zero_of_lt enough)
  induction s generalizing fuel with
  | empty => rfl
  | last line =>
    have done : entries source fuel [] = ([], []) := by cases fuel <;> rfl
    have step := line.entries_closes .textEnd source fuel
    rw [List.append_nil, done] at step
    exact step
  | next line ending rest ih =>
    have spelled : (next line ending rest).text.toList =
        line.written.toList ++ (ending.text.toList ++ rest.text.toList) := by
      simp [text]
    -- The bound falls by one for a line, and every line has a character.
    have shorter : rest.text.toList.length < fuel := by
      have nonempty : 0 < line.written.toList.length := by
        rw [Line.written_toList, List.length_append, List.length_cons]
        omega
      rw [spelled] at enough
      simp only [List.length_append] at enough
      omega
    obtain ⟨fuel, rfl⟩ := Nat.exists_eq_add_one_of_ne_zero (Nat.ne_zero_of_lt shorter)
    rw [spelled, line.entries_closes (closes_next ending rest), ih fuel shorter]
    rfl

/-- What is read from a sheet is its lines. -/
theorem document_text (s : Sheet) : document s.text = .ok (s.lines.map Line.entry) := by
  rw [document, skipBlankLines_fresh s.fresh_text, s.entries_text _ (Nat.lt_succ_self _)]

end Sheet
end Phrasebook.Fluent
