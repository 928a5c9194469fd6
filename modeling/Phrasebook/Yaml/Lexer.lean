import Phrasebook.Yaml.Property

/-!
The tokens of a text. A key that is written on one line is known as a key only when its colon comes:
until then its place is kept, and the token that marks it is put in afterwards. Tokens count as read
only as far as no such place is open, so that of two faults in a text the earlier one is met first.
-/

namespace Phrasebook.Yaml

/-- Where a key on one line may have begun. -/
structure KeyStart where
  /-- The number of its first token. -/
  number : Nat
  mark : Mark
  /-- A key must stand here. -/
  required : Bool

/-- So long may a key on one line be. -/
def keyLengthLimit : Nat := 1024

/-- Whether it is too late for the colon. -/
def KeyStart.isOver (k : KeyStart) (m : Mark) : Bool :=
  k.mark.line < m.line || k.mark.index + keyLengthLimit < m.index

structure Lexer where
  cursor : Cursor
  /-- The tokens so far, the latest first. -/
  tokens : List Token
  /-- The columns of the open blocks, the innermost first. -/
  indents : List Nat
  /-- Whether a key may begin here. -/
  keyAllowed : Bool
  /-- Open places of keys: one for the innermost collection, the others for those around it. -/
  key? : Option KeyStart
  outerKeys : List (Option KeyStart)

namespace Lexer

def ofText (cs : List Char) : Lexer := ⟨.ofText cs, [], [], true, none, []⟩

def inFlow (s : Lexer) : Bool := !s.outerKeys.isEmpty

/-- The column of the innermost block, or one before the first column. -/
def indent (s : Lexer) : Int := (s.indents.head?.map Int.ofNat).getD (-1)

def push (s : Lexer) (t : Token) : Lexer := { s with tokens := t :: s.tokens }

/-- Puts a token in before the token of that number. -/
def insert (s : Lexer) (number : Nat) (t : Token) : Lexer :=
  let later := s.tokens.length - number
  { s with tokens := s.tokens.take later ++ t :: s.tokens.drop later }

/-- A token of the next `n` characters. -/
def take (s : Lexer) (n : Nat) (kind : TokenKind) : Lexer :=
  let c := s.cursor.advance n
  { s with tokens := ⟨kind, s.cursor.mark, c.mark⟩ :: s.tokens, cursor := c }

/-! ### Places of keys -/

def missingColon {α : Type} (s : Lexer) (k : KeyStart) : Scan α :=
  s.cursor.fail .simpleKey k.mark .missingColon

/-- Gives up the place of a key in the innermost collection. -/
def dropKey (s : Lexer) : Scan Lexer :=
  match s.key? with
  | some k => if k.required then s.missingColon k else .ok { s with key? := none }
  | none => .ok s

/-- Notes that a key may begin here. -/
def markKey (s : Lexer) : Scan Lexer :=
  if s.keyAllowed then do
    let s ← s.dropKey
    let required := !s.inFlow && s.indent == s.cursor.mark.column
    .ok { s with key? := some ⟨s.tokens.length, s.cursor.mark, required⟩, keyAllowed := false }
  else .ok s

/-- Gives up the places of keys whose colon would come too late. -/
def dropOverdue (s : Lexer) : Scan Lexer :=
  let isOver (k : KeyStart) : Bool := k.isOver s.cursor.mark
  match (s.key? :: s.outerKeys).find? fun k? => k?.any fun k => isOver k && k.required with
  | some (some k) => s.missingColon k
  | _ =>
    .ok { s with
      key? := s.key?.filter (!isOver ·)
      outerKeys := s.outerKeys.map (·.filter (!isOver ·)) }

/-! ### Blocks -/

/-- Ends the blocks that are deeper than a column. -/
def closeBlocks (s : Lexer) (column : Int) : Lexer :=
  if s.inFlow then s
  else
    let deeper := s.indents.takeWhile (column < Int.ofNat ·)
    let ends := deeper.map fun _ => ⟨.blockEnd, s.cursor.mark, s.cursor.mark⟩
    { s with tokens := ends ++ s.tokens, indents := s.indents.drop deeper.length }

/-- Begins a block before the token of that number, unless one of that column is open. -/
def openBlock (s : Lexer) (number : Nat) (m : Mark) (kind : TokenKind) : Lexer :=
  if s.inFlow || (m.column : Int) ≤ s.indent then s
  else { s.insert number ⟨kind, m, m⟩ with indents := m.column :: s.indents }

/-- Begins a block here. -/
def openBlockHere (s : Lexer) (kind : TokenKind) : Lexer :=
  s.openBlock s.tokens.length s.cursor.mark kind

/-! ### The kinds of tokens -/

/-- All blocks and keys are over. -/
def reset (s : Lexer) : Scan Lexer := do
  let s ← (s.closeBlocks (-1)).dropKey
  .ok { s with keyAllowed := false }

/-- The end stands at the start of a line. -/
def atEnd (s : Lexer) : Scan Lexer := do
  let m := s.cursor.mark
  let m := if m.column = 0 then m else { m with column := 0, line := m.line + 1 }
  let s ← { s with cursor := ⟨[], m⟩ }.reset
  .ok (s.take 0 .streamEnd)

def atDirective (s : Lexer) : Scan Lexer := do
  let s ← s.reset
  let (t, c) ← directive s.cursor
  .ok { s.push t with cursor := c }

def atDocumentMark (s : Lexer) : Scan Lexer := do
  let s ← s.reset
  .ok (s.take 3 (if s.cursor.rest.head? = some '-' then .documentStart else .documentEnd))

def atFlowStart (s : Lexer) (kind : TokenKind) : Scan Lexer := do
  let s ← s.markKey
  let s := { s with outerKeys := s.key? :: s.outerKeys, key? := none, keyAllowed := true }
  .ok (s.take 1 kind)

def atFlowEnd (s : Lexer) (kind : TokenKind) : Scan Lexer := do
  let s ← s.dropKey
  let s := { s with key? := (s.outerKeys.head?).join, outerKeys := s.outerKeys.drop 1,
                    keyAllowed := false }
  .ok (s.take 1 kind)

def atFlowEntry (s : Lexer) : Scan Lexer := do
  let s ← s.dropKey
  .ok ({ s with keyAllowed := true }.take 1 .flowEntry)

def atBlockEntry (s : Lexer) : Scan Lexer := do
  if !s.inFlow && !s.keyAllowed then s.cursor.failBare .entryNotAllowed
  else
    let s ← (s.openBlockHere .blockSequenceStart).dropKey
    .ok ({ s with keyAllowed := true }.take 1 .blockEntry)

def atKey (s : Lexer) : Scan Lexer := do
  if !s.inFlow && !s.keyAllowed then s.cursor.failBare .keyNotAllowed
  else
    let s ← (s.openBlockHere .blockMappingStart).dropKey
    .ok ({ s with keyAllowed := !s.inFlow }.take 1 .key)

/-- A colon makes what stands at the open place a key. -/
def atValue (s : Lexer) : Scan Lexer :=
  match s.key? with
  | some k =>
    let s := s.insert k.number ⟨.key, k.mark, k.mark⟩
    let s := s.openBlock k.number k.mark .blockMappingStart
    .ok ({ s with key? := none, keyAllowed := false }.take 1 .value)
  | none =>
    if !s.inFlow && !s.keyAllowed then s.cursor.failBare .valueNotAllowed
    else
      let s := s.openBlockHere .blockMappingStart
      .ok ({ s with keyAllowed := !s.inFlow }.take 1 .value)

def atAnchor (s : Lexer) (activity : Activity) (kind : String → TokenKind) : Scan Lexer := do
  let s ← s.markKey
  let (name, c) ← anchorName activity s.cursor
  .ok { s.push ⟨kind name, s.cursor.mark, c.mark⟩ with cursor := c, keyAllowed := false }

def atTag (s : Lexer) : Scan Lexer := do
  let s ← s.markKey
  let (kind, c) ← tag s.inFlow s.cursor
  .ok { s.push ⟨kind, s.cursor.mark, c.mark⟩ with cursor := c, keyAllowed := false }

def atBlockScalar (s : Lexer) (literal : Bool) : Scan Lexer := do
  let s ← s.dropKey
  let (t, c) ← block literal s.indent s.cursor
  .ok { s.push t with cursor := c, keyAllowed := true }

def atQuoted (s : Lexer) (single : Bool) : Scan Lexer := do
  let s ← s.markKey
  let (t, c) ← quoted single s.cursor
  .ok { s.push t with cursor := c, keyAllowed := false }

/-- After a line break a new key may begin. -/
def atPlain (s : Lexer) : Scan Lexer := do
  let s ← s.markKey
  let (t, broken, c) ← plain s.inFlow s.indent s.cursor
  .ok { s.push t with cursor := c, keyAllowed := broken }

/-! ### Token after token -/

def byteOrderMark : Char := '\ufeff'

/-- Past blanks, comments and line breaks. Tabs are no blanks where a key of a block may begin. -/
def skipBetween (flow : Bool) : Nat → Bool → Cursor → Bool × Cursor
  | 0, allowed, c => (allowed, c)
  | fuel + 1, allowed, c =>
    let c := if c.mark.index = 0 && c.rest.head? == some byteOrderMark then c.advance 1 else c
    let c := c.skipWhile fun ch => ch == ' ' || (ch == '\t' && (flow || !allowed))
    let c := match c.rest with
      | '#' :: _ => c.skipWhile (!isBreak ·)
      | _ => c
    match c.rest with
    | ch :: _ =>
      if isBreak ch then skipBetween flow fuel (allowed || !flow) c.skipLineBreak else (allowed, c)
    | [] => (allowed, c)

/-- Signs that begin no plain scalar, unless more of it follows directly. -/
def isIndicator (c : Char) : Bool :=
  ['-', '?', ':', ',', '[', ']', '{', '\x7d', '#', '&', '*', '!', '|', '>', '\'', '"', '%', '@',
    '\x60'].contains c

def beginsPlain (flow : Bool) : List Char → Bool
  | [] => false
  | c :: r =>
    !(isBlankOrEnd (c :: r) || isIndicator c) ||
      (c == '-' && !(r.head?.map isSpaceOrTab).getD false) ||
      (!flow && (c == '?' || c == ':') && !isBlankOrEnd r)

/-- The token that begins with a character. -/
def tokenAt (s : Lexer) (c : Char) (r : List Char) : Scan Lexer :=
  let marks := s.inFlow || isBlankOrEnd r
  if s.cursor.mark.column = 0 && c = '%' then s.atDirective
  else if s.cursor.atDocumentMark then s.atDocumentMark
  else if c = '[' then s.atFlowStart .flowSequenceStart
  else if c = '{' then s.atFlowStart .flowMappingStart
  else if c = ']' then s.atFlowEnd .flowSequenceEnd
  else if c = '\x7d' then s.atFlowEnd .flowMappingEnd
  else if c = ',' then s.atFlowEntry
  else if c = '-' && isBlankOrEnd r then s.atBlockEntry
  else if c = '?' && marks then s.atKey
  else if c = ':' && marks then s.atValue
  else if c = '*' then s.atAnchor .aliasName .aliasTo
  else if c = '&' then s.atAnchor .anchor .anchor
  else if c = '!' then s.atTag
  else if c = '|' && !s.inFlow then s.atBlockScalar true
  else if c = '>' && !s.inFlow then s.atBlockScalar false
  else if c = '\'' then s.atQuoted true
  else if c = '"' then s.atQuoted false
  else if beginsPlain s.inFlow (c :: r) then s.atPlain
  else s.cursor.fail .nextToken s.cursor.mark .cannotStartToken

/-- One token more, and the ends of blocks before it. -/
def step (s : Lexer) : Scan Lexer := do
  let (allowed, c) := skipBetween s.inFlow (s.cursor.rest.length + 1) s.keyAllowed s.cursor
  let s ← { s with cursor := c, keyAllowed := allowed }.dropOverdue
  let s := s.closeBlocks c.mark.column
  let s ← match c.rest with
    | [] => s.atEnd
    | ch :: r => s.tokenAt ch r
  s.dropOverdue

def isDone (s : Lexer) : Bool :=
  match s.tokens with
  | t :: _ => t.kind == .streamEnd
  | [] => false

/-- The tokens before the first place of a key that is still open. -/
def settled (s : Lexer) : List Token :=
  let opens := (s.key? :: s.outerKeys).filterMap (·.map KeyStart.number)
  s.tokens.reverse.take (opens.foldl min s.tokens.length)

end Lexer

/-- The tokens of a text, up to its end or to what is wrong with it. -/
structure TokenStream where
  tokens : List Token
  fault? : Option Fault

namespace TokenStream

/-- What comes after the tokens: past the end the end stands again. -/
def after (s : TokenStream) : Scan Token :=
  match s.fault?, s.tokens.getLast? with
  | some f, _ => .error f
  | none, some t => .ok t
  | none, none => .ok ⟨.streamEnd, ⟨0, 0, 0⟩, ⟨0, 0, 0⟩⟩

def run : Nat → Lexer → TokenStream
  | 0, s => ⟨s.tokens.reverse, none⟩
  | fuel + 1, s =>
    if s.isDone then ⟨s.tokens.reverse, none⟩
    else
      match s.step with
      | .ok s => run fuel s
      | .error f => ⟨s.settled, some f⟩

/-- Characters that may occur in a text at all. -/
def isAllowed (c : Char) : Bool :=
  let n := c.toNat
  n == 0x09 || n == 0x0A || n == 0x0D || (0x20 ≤ n && n ≤ 0x7E) || n == 0x85 ||
    (0xA0 ≤ n && n ≤ 0xFFFD) || 0x10000 ≤ n

/-- How many bytes come before the first character that must not occur. -/
def forbidden? : List Char → Option Nat
  | [] => none
  | c :: r => if isAllowed c then (forbidden? r).map (c.utf8Size + ·) else some 0

/-- Every step but the last reads a character. -/
def ofText (cs : List Char) : TokenStream :=
  match forbidden? cs with
  | some n => ⟨[], some ⟨.controlCharacter, .offset n, none⟩⟩
  | none => run (cs.length + 1) (.ofText cs)

end TokenStream
end Phrasebook.Yaml
