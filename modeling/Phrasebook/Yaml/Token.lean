import Phrasebook.Yaml.Fault

/-!
The tokens of YAML. Indentation has become tokens for the beginning and the end of blocks, and every
key of a mapping is marked.
-/

namespace Phrasebook.Yaml

/-- How a scalar is written. -/
inductive Style where
  | plain
  | singleQuoted
  | doubleQuoted
  | literal
  | folded
  deriving DecidableEq, Repr

inductive TokenKind where
  | streamEnd
  | versionDirective (major minor : Nat)
  | tagDirective (handle uri : String)
  | documentStart
  | documentEnd
  | blockSequenceStart
  | blockMappingStart
  | blockEnd
  | flowSequenceStart
  | flowSequenceEnd
  | flowMappingStart
  | flowMappingEnd
  | blockEntry
  | flowEntry
  | key
  | value
  | aliasTo (name : String)
  | anchor (name : String)
  | tag (handle suffix : String)
  | scalar (style : Style) (text : String)
  deriving DecidableEq, Repr

structure Token where
  kind : TokenKind
  start : Mark
  stop : Mark
  deriving DecidableEq, Repr

/-- The text that is left, and where it begins. -/
structure Cursor where
  rest : List Char
  mark : Mark

abbrev Scan := Except Fault

def isSpaceOrTab (c : Char) : Bool := c == ' ' || c == '\t'

/-- Next line, line separator and paragraph separator break lines too. -/
def isBreak (c : Char) : Bool :=
  c == '\r' || c == '\n' || c.toNat == 0x85 || c.toNat == 0x2028 || c.toNat == 0x2029

/-- A blank, a line break or the end stands here. -/
def isBlankOrEnd : List Char → Bool
  | [] => true
  | c :: _ => isSpaceOrTab c || isBreak c

def isBreakOrEnd : List Char → Bool
  | [] => true
  | c :: _ => isBreak c

/-- Letters, digits, `_` and `-`. -/
def isWordChar (c : Char) : Bool := c.isAlphanum || c == '_' || c == '-'

namespace Cursor

def ofText (cs : List Char) : Cursor := ⟨cs, ⟨0, 0, 0⟩⟩

/-- Past some characters of the line. -/
def advance (c : Cursor) (n : Nat) : Cursor :=
  ⟨c.rest.drop n, { c.mark with index := c.mark.index + n, column := c.mark.column + n }⟩

/-- Past characters of a kind that breaks no line. -/
def skipWhile (c : Cursor) (p : Char → Bool) : Cursor := c.advance (c.rest.takeWhile p).length

/-- Past a line break, if one stands here, and the text that it contributes. -/
def lineBreak (c : Cursor) : List Char × Cursor :=
  let next (n : Nat) : Mark := ⟨c.mark.index + n, c.mark.line + 1, 0⟩
  match c.rest with
  | '\r' :: '\n' :: r => (['\n'], ⟨r, next 2⟩)
  | ch :: r =>
    if ch.toNat == 0x2028 || ch.toNat == 0x2029 then ([ch], ⟨r, next 1⟩)
    else if isBreak ch then (['\n'], ⟨r, next 1⟩)
    else ([], c)
  | [] => ([], c)

def skipLineBreak (c : Cursor) : Cursor := c.lineBreak.2

/-- Past blanks and a comment. -/
def skipToLineEnd (c : Cursor) : Cursor :=
  let c := c.skipWhile isSpaceOrTab
  match c.rest with
  | '#' :: _ => c.skipWhile (!isBreak ·)
  | _ => c

/-- `---` or `...` at the start of a line. -/
def atDocumentMark (c : Cursor) : Bool :=
  c.mark.column == 0 &&
    match c.rest with
    | '-' :: '-' :: '-' :: r => isBlankOrEnd r
    | '.' :: '.' :: '.' :: r => isBlankOrEnd r
    | _ => false

def fail {α : Type} (c : Cursor) (activity : Activity) (start : Mark) (p : Problem) : Scan α :=
  .error ⟨p, .mark c.mark, some (activity, start)⟩

def failBare {α : Type} (c : Cursor) (p : Problem) : Scan α := .error ⟨p, .mark c.mark, none⟩

end Cursor
end Phrasebook.Yaml
