import Phrasebook.Yaml.Token

/-!
The scalars of YAML: plain, quoted and in blocks. Line breaks inside a scalar are folded: one alone
counts as a space, of several the first is dropped.
-/

namespace Phrasebook.Yaml

/-- What a stretch of blanks and breaks between two words of a scalar has been so far. -/
structure Gap where
  /-- Blanks before the first break. -/
  blanks : List Char
  /-- The first break, none as long as the line goes on. -/
  first? : Option (List Char)
  /-- The breaks after it. -/
  others : List Char

namespace Gap

def empty : Gap := ⟨[], none, []⟩

def addBlank (g : Gap) (c : Char) : Gap :=
  match g.first? with
  | none => { g with blanks := g.blanks ++ [c] }
  | some _ => g

def addBreak (g : Gap) (b : List Char) : Gap :=
  match g.first? with
  | none => { g with blanks := [], first? := some b }
  | some _ => { g with others := g.others ++ b }

/-- The text in the place of the gap. -/
def text (g : Gap) : List Char :=
  match g.first? with
  | none => g.blanks
  | some ['\n'] => if g.others.isEmpty then [' '] else g.others
  | some b => b ++ g.others

end Gap

/-! ### Quoted scalars -/

inductive Escape where
  | char (c : Char)
  | hex (digits : Nat)

/-- What the character after a backslash calls for. -/
def escape? (c : Char) : Option Escape :=
  match c with
  | '0' => some (.char (Char.ofNat 0))
  | 'a' => some (.char (Char.ofNat 7))
  | 'b' => some (.char (Char.ofNat 8))
  | 't' => some (.char '\t')
  | '\t' => some (.char '\t')
  | 'n' => some (.char '\n')
  | 'v' => some (.char (Char.ofNat 11))
  | 'f' => some (.char (Char.ofNat 12))
  | 'r' => some (.char '\r')
  | 'e' => some (.char (Char.ofNat 27))
  | ' ' => some (.char ' ')
  | '"' => some (.char '"')
  | '/' => some (.char '/')
  | '\\' => some (.char '\\')
  | 'N' => some (.char (Char.ofNat 0x85))
  | '_' => some (.char (Char.ofNat 0xA0))
  | 'L' => some (.char (Char.ofNat 0x2028))
  | 'P' => some (.char (Char.ofNat 0x2029))
  | 'x' => some (.hex 2)
  | 'u' => some (.hex 4)
  | 'U' => some (.hex 8)
  | _ => none

def isHexDigit (c : Char) : Bool :=
  c.isDigit || ('a' ≤ c && c ≤ 'f') || ('A' ≤ c && c ≤ 'F')

def hexValue (ds : List Char) : Nat :=
  ds.foldl (fun n c =>
    16 * n + if c.isDigit then c.toNat - '0'.toNat else c.toLower.toNat - 'a'.toNat + 10) 0

/-- An escape, from its backslash. -/
def readEscape (start : Mark) (c : Cursor) : Scan (Char × Cursor) :=
  match c.rest with
  | _ :: e :: _ =>
    match escape? e with
    | none => c.fail .quotedEscape start .unknownEscape
    | some (.char ch) => .ok (ch, c.advance 2)
    | some (.hex n) =>
      let c := c.advance 2
      let ds := c.rest.take n
      if ds.length = n && ds.all isHexDigit then
        if (hexValue ds).isValidChar then .ok (Char.ofNat (hexValue ds), c.advance n)
        else c.fail .quotedEscape start .badCodePoint
      else c.fail .quotedEscape start .expectedHexDigit
  | _ => c.fail .quotedEscape start .unknownEscape

/-- Characters of one line of a quoted scalar, up to a blank, a break or the closing mark. Tells
whether an escaped line break came last. -/
def quotedWord (single : Bool) (start : Mark) : Nat → Cursor → Scan (List Char × Bool × Cursor)
  | 0, c => c.fail .quotedScalar start .endInQuotes
  | fuel + 1, c =>
    if isBlankOrEnd c.rest then .ok ([], false, c)
    else
      match single, c.rest with
      | true, '\'' :: '\'' :: _ => do
        let (w, b, c) ← quotedWord single start fuel (c.advance 2)
        .ok ('\'' :: w, b, c)
      | true, '\'' :: _ => .ok ([], false, c)
      | false, '"' :: _ => .ok ([], false, c)
      | false, '\\' :: b :: _ =>
        if isBreak b then .ok ([], true, (c.advance 1).skipLineBreak)
        else do
          let (ch, c) ← readEscape start c
          let (w, b, c) ← quotedWord single start fuel c
          .ok (ch :: w, b, c)
      | false, ['\\'] => c.fail .quotedEscape start .unknownEscape
      | _, ch :: _ => do
        let (w, b, c) ← quotedWord single start fuel (c.advance 1)
        .ok (ch :: w, b, c)
      | _, [] => .ok ([], false, c)

/-- Blanks and breaks inside quotation marks. -/
def quotedGap : Nat → Gap → Cursor → Gap × Cursor
  | 0, g, c => (g, c)
  | fuel + 1, g, c =>
    match c.rest with
    | [] => (g, c)
    | ch :: _ =>
      if isSpaceOrTab ch then quotedGap fuel (g.addBlank ch) (c.advance 1)
      else if isBreak ch then
        let (b, c) := c.lineBreak
        quotedGap fuel (g.addBreak b) c
      else (g, c)

def isClosingMark (single : Bool) : List Char → Bool
  | '\'' :: _ => single
  | '"' :: _ => !single
  | _ => false

/-- A quoted scalar from after its opening mark. -/
def quotedBody (single : Bool) (start : Mark) : Nat → Cursor → Scan (List Char × Cursor)
  | 0, c => c.fail .quotedScalar start .endInQuotes
  | fuel + 1, c => do
    if c.atDocumentMark then c.fail .quotedScalar start .documentMarkInQuotes
    else if c.rest.isEmpty then c.fail .quotedScalar start .endInQuotes
    else
      let (w, broken, c) ← quotedWord single start (c.rest.length + 1) c
      if isClosingMark single c.rest then .ok (w, c.advance 1)
      else
        let g : Gap := if broken then ⟨[], some [], []⟩ else Gap.empty
        let (g, c) := quotedGap (c.rest.length + 1) g c
        let (more, c) ← quotedBody single start fuel c
        .ok (w ++ g.text ++ more, c)

/-- A quoted scalar from its opening mark. -/
def quoted (single : Bool) (c : Cursor) : Scan (Token × Cursor) := do
  let start := c.mark
  let (text, c) ← quotedBody single start (c.rest.length + 1) (c.advance 1)
  let style := if single then Style.singleQuoted else .doubleQuoted
  .ok (⟨.scalar style (String.ofList text), start, c.mark⟩, c)

/-! ### Plain scalars -/

def isFlowMark (c : Char) : Bool := c == ',' || c == '[' || c == ']' || c == '{' || c == '}'

/-- A colon before a mark of flow style. -/
def colonBeforeMark : List Char → Bool
  | ':' :: c :: _ => c == '?' || isFlowMark c
  | _ => false

/-- Whether a plain scalar ends before these characters, which are no blanks. -/
def endsPlain (flow : Bool) : List Char → Bool
  | ':' :: r => isBlankOrEnd r
  | c :: _ => flow && isFlowMark c
  | [] => true

/-- Characters up to a blank, a break or the end of the scalar. -/
def plainWord (flow : Bool) (start : Mark) : Nat → Cursor → Scan (List Char × Cursor)
  | 0, c => .ok ([], c)
  | fuel + 1, c =>
    if isBlankOrEnd c.rest then .ok ([], c)
    else if flow && colonBeforeMark c.rest then c.fail .plainScalar start .unexpectedColon
    else if endsPlain flow c.rest then .ok ([], c)
    else
      match c.rest with
      | [] => .ok ([], c)
      | ch :: _ => do
        let (w, c) ← plainWord flow start fuel (c.advance 1)
        .ok (ch :: w, c)

/-- Blanks and breaks after a word of a plain scalar. -/
def plainGap (indent : Int) (start : Mark) : Nat → Gap → Cursor → Scan (Gap × Cursor)
  | 0, g, c => .ok (g, c)
  | fuel + 1, g, c =>
    match c.rest with
    | [] => .ok (g, c)
    | ch :: _ =>
      if isSpaceOrTab ch then
        if g.first?.isSome && (c.mark.column : Int) < indent && ch == '\t' then
          c.fail .plainScalar start .tabViolatesIndentation
        else plainGap indent start fuel (g.addBlank ch) (c.advance 1)
      else if isBreak ch then
        let (b, c) := c.lineBreak
        plainGap indent start fuel (g.addBreak b) c
      else .ok (g, c)

/-- What reading a plain scalar gives. -/
structure PlainText where
  text : List Char
  /-- Where its last word ends. -/
  stop : Mark
  /-- Whether a line break comes after it. -/
  brokenAfter : Bool
  cursor : Cursor

/-- Words and the gaps between them. `gap` stands before the next word, if there is one. -/
def plainBody (flow : Bool) (indent : Int) (start : Mark) :
    Nat → Gap → Mark → Cursor → Scan PlainText
  | 0, _, stop, c => .ok ⟨[], stop, false, c⟩
  | fuel + 1, gap, stop, c => do
    let done : PlainText := ⟨[], stop, gap.first?.isSome, c⟩
    if c.atDocumentMark then .ok done
    else
      match c.rest with
      | '#' :: _ => .ok done
      | _ =>
        let (w, c) ← plainWord flow start (c.rest.length + 1) c
        let gap' := if w.isEmpty then gap else Gap.empty
        let stop := if w.isEmpty then stop else c.mark
        let pre := if w.isEmpty then [] else gap.text ++ w
        match c.rest with
        | [] => .ok ⟨pre, stop, gap'.first?.isSome, c⟩
        | ch :: _ =>
          if !(isSpaceOrTab ch || isBreak ch) then .ok ⟨pre, stop, gap'.first?.isSome, c⟩
          else
            let (g, c) ← plainGap indent start (c.rest.length + 1) gap' c
            if !flow && (c.mark.column : Int) < indent then
              .ok ⟨pre, stop, g.first?.isSome, c⟩
            else
              let more ← plainBody flow indent start fuel g stop c
              .ok { more with text := pre ++ more.text }

/-- A plain scalar; also tells whether a line break comes after it. -/
def plain (flow : Bool) (indent : Int) (c : Cursor) : Scan (Token × Bool × Cursor) := do
  let start := c.mark
  let t ← plainBody flow (indent + 1) start (c.rest.length + 1) Gap.empty start c
  .ok (⟨.scalar .plain (String.ofList t.text), start, t.stop⟩, t.brokenAfter, t.cursor)

/-! ### Block scalars -/

inductive Chomping where
  | strip
  | clip
  | keep
  deriving DecidableEq

/-- The signs after the mark of a block scalar, in either order. -/
structure BlockHeader where
  chomping : Chomping
  /-- The indentation asked for, zero if none is. -/
  increment : Nat

def chomping? : List Char → Option Chomping
  | '+' :: _ => some .keep
  | '-' :: _ => some .strip
  | _ => none

/-- An indentation sign, which must not be zero. -/
def increment (start : Mark) (c : Cursor) : Scan (Nat × Cursor) :=
  match c.rest with
  | d :: _ =>
    if d = '0' then c.fail .blockScalar start .zeroIndentation
    else if d.isDigit then .ok (d.toNat - '0'.toNat, c.advance 1)
    else .ok (0, c)
  | [] => .ok (0, c)

def blockHeader (start : Mark) (c : Cursor) : Scan (BlockHeader × Cursor) := do
  match chomping? c.rest with
  | some chomping =>
    let (n, c) ← increment start (c.advance 1)
    .ok (⟨chomping, n⟩, c)
  | none =>
    let (n, c) ← increment start c
    match if n = 0 then none else chomping? c.rest with
    | some chomping => .ok (⟨chomping, n⟩, c.advance 1)
    | none => .ok (⟨.clip, n⟩, c)

/-- Indentation and empty lines before a line of a block scalar: the breaks, the deepest column and
the place after the last break. With `indent` zero the indentation is still to be found. -/
def blockBreaks (indent : Nat) (start : Mark) :
    Nat → Nat → Mark → Cursor → Scan (List Char × Nat × Mark × Cursor)
  | 0, deepest, stop, c => .ok ([], deepest, stop, c)
  | fuel + 1, deepest, stop, c =>
    let isOpen (column : Nat) : Bool := indent == 0 || column < indent
    let spaces := (c.rest.takeWhile (· == ' ')).length
    let c := c.advance (if indent = 0 then spaces else min spaces (indent - c.mark.column))
    let deepest := max deepest c.mark.column
    match c.rest with
    | [] => .ok ([], deepest, stop, c)
    | ch :: _ =>
      if isOpen c.mark.column && ch == '\t' then
        c.fail .blockScalar start .tabInIndentation
      else if isBreak ch then do
        let (b, c) := c.lineBreak
        let (bs, deepest, stop, c) ← blockBreaks indent start fuel deepest c.mark c
        .ok (b ++ bs, deepest, stop, c)
      else .ok ([], deepest, stop, c)

/-- What stands before the next line of a block scalar. -/
structure BlockGap where
  /-- The break after the line before. -/
  first : List Char
  others : List Char
  /-- Whether the line before began with a blank. -/
  afterBlank : Bool

/-- The text between two lines. -/
def BlockGap.text (literal : Bool) (g : BlockGap) (beforeBlank : Bool) : List Char :=
  if !literal && g.first.head? == some '\n' && !g.afterBlank && !beforeBlank then
    (if g.others.isEmpty then [' '] else []) ++ g.others
  else g.first ++ g.others

/-- The lines of a block scalar; gives their text, the gap after them, and where they end. -/
def blockLines (literal : Bool) (indent : Nat) (start : Mark) :
    Nat → BlockGap → Mark → Cursor → Scan (List Char × BlockGap × Mark × Cursor)
  | 0, g, stop, c => .ok ([], g, stop, c)
  | fuel + 1, g, stop, c =>
    match c.rest with
    | [] => .ok ([], g, stop, c)
    | ch :: _ =>
      if c.mark.column != indent then .ok ([], g, stop, c)
      else do
        let blank := isSpaceOrTab ch
        let line := c.rest.takeWhile (!isBreak ·)
        let (first, c) := (c.advance line.length).lineBreak
        let (others, _, stop, c) ← blockBreaks indent start (c.rest.length + 1) 0 c.mark c
        let (more, last, stop, c) ←
          blockLines literal indent start fuel ⟨first, others, blank⟩ stop c
        .ok (g.text literal blank ++ line ++ more, last, stop, c)

/-- A block scalar from its mark. -/
def block (literal : Bool) (parentIndent : Int) (c : Cursor) : Scan (Token × Cursor) := do
  let start := c.mark
  let (header, c) ← blockHeader start (c.advance 1)
  let c := c.skipToLineEnd
  if !isBreakOrEnd c.rest then c.fail .blockScalar start .expectedLineEnd
  else
    let c := c.skipLineBreak
    let given := if header.increment = 0 then 0 else
      if 0 ≤ parentIndent then parentIndent.toNat + header.increment else header.increment
    let (others, deepest, stop, c) ← blockBreaks given start (c.rest.length + 1) 0 c.mark c
    let indent := if given = 0 then max (max deepest (parentIndent + 1).toNat) 1 else given
    let (text, last, stop, c) ←
      blockLines literal indent start (c.rest.length + 1) ⟨[], others, false⟩ stop c
    let tail := match header.chomping with
      | .strip => []
      | .clip => last.first
      | .keep => last.first ++ last.others
    let style := if literal then Style.literal else .folded
    .ok (⟨.scalar style (String.ofList (text ++ tail)), start, stop⟩, c)

end Phrasebook.Yaml
