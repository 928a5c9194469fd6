import Phrasebook.Fluent.Fault
import Phrasebook.Fluent.Syntax

/-!
Reading a Fluent document. Every reader takes the text that is left and returns what is left after
it. A reader that fails says where it stood. The bound `fuel` of the recursive readers falls with
each call; `document` starts them with more than a text of its length can use up.
-/

namespace Phrasebook.Fluent

/-- A fault together with the text that was left when it was found. -/
structure Stop where
  kind : FaultKind
  rest : List Char

abbrev Read := Except Stop

/-- A value and the text left after it. -/
abbrev Then (α : Type) := α × List Char

def isIdStart (c : Char) : Bool := c.isAlpha

def isIdChar (c : Char) : Bool := c.isAlphanum || c == '_' || c == '-'

/-! ### Blanks and marks -/

/-- Spaces only. -/
def skipSpaces (cs : List Char) : List Char := cs.dropWhile (· == ' ')

/-- What follows a line end, if one stands here. -/
def afterLineEnd? : List Char → Option (List Char)
  | '\n' :: r => some r
  | '\r' :: '\n' :: r => some r
  | _ => none

/-- Past all lines that hold spaces only; `cs` is `line` without the spaces in front. -/
def skipBlankLinesFrom (line : List Char) : List Char → List Char
  | ' ' :: r => skipBlankLinesFrom line r
  | '\n' :: r => skipBlankLinesFrom r r
  | '\r' :: '\n' :: r => skipBlankLinesFrom r r
  | _ => line

def skipBlankLines (cs : List Char) : List Char := skipBlankLinesFrom cs cs

/-- Past spaces and line ends. -/
def skipBlank : List Char → List Char
  | ' ' :: r => skipBlank r
  | '\n' :: r => skipBlank r
  | '\r' :: '\n' :: r => skipBlank r
  | cs => cs

def expect (c : Char) : List Char → Read (List Char)
  | [] => .error ⟨.expectedToken c, []⟩
  | d :: r => if d = c then .ok r else .error ⟨.expectedToken c, d :: r⟩

def identifier : List Char → Read (Then String)
  | [] => .error ⟨.expectedCharRange "a-zA-Z", []⟩
  | c :: r =>
    if isIdStart c then .ok (String.ofList (c :: r.takeWhile isIdChar), r.dropWhile isIdChar)
    else .error ⟨.expectedCharRange "a-zA-Z", c :: r⟩

/-- At least one digit. -/
def digits (cs : List Char) : Read (Then (List Char)) :=
  match cs.takeWhile Char.isDigit with
  | [] => .error ⟨.expectedCharRange "0-9", cs⟩
  | ds => .ok (ds, cs.dropWhile Char.isDigit)

/-- An optional sign, digits, and digits after a point. -/
def number (cs : List Char) : Read (Then String) := do
  let (sign, cs) := match cs with
    | '-' :: r => (['-'], r)
    | _ => ([], cs)
  let (whole, cs) ← digits cs
  match cs with
  | '.' :: r =>
    let (part, cs) ← digits r
    .ok (String.ofList (sign ++ whole ++ '.' :: part), cs)
  | _ => .ok (String.ofList (sign ++ whole), cs)

/-! ### Strings -/

def isHexDigit (c : Char) : Bool :=
  c.isDigit || ('a' ≤ c && c ≤ 'f') || ('A' ≤ c && c ≤ 'F')

/-- The hex digits of a code point escape, which must be `n`. -/
def hexEscape (n : Nat) (cs : List Char) : Read (Then (List Char)) :=
  let ds := (cs.take n).takeWhile isHexDigit
  let rest := cs.drop ds.length
  if ds.length = n then .ok (ds, rest)
  else .error ⟨.invalidUnicodeEscapeSequence (String.ofList (ds ++ rest.take 1)), rest⟩

/-- The first byte of a character in UTF-8. -/
def leadByte (c : Char) : Nat :=
  match (String.singleton c).toUTF8.data[0]? with
  | some b => b.toNat
  | none => 0

/-- The inside of a string, up to the closing quotation mark, which is left. -/
def stringBody : Nat → List Char → Read (Then (List Char))
  | 0, cs => .error ⟨.unterminatedStringLiteral, cs⟩
  | fuel + 1, cs =>
    match cs with
    | [] => .ok ([], [])
    | '"' :: _ => .ok ([], cs)
    | '\n' :: _ => .error ⟨.unterminatedStringLiteral, cs⟩
    | '\\' :: 'u' :: r => do
      let (ds, r) ← hexEscape 4 r
      let (body, r) ← stringBody fuel r
      .ok ('\\' :: 'u' :: ds ++ body, r)
    | '\\' :: 'U' :: r => do
      let (ds, r) ← hexEscape 6 r
      let (body, r) ← stringBody fuel r
      .ok ('\\' :: 'U' :: ds ++ body, r)
    | '\\' :: c :: r =>
      if c = '\\' || c = '{' || c = '"' then do
        let (body, r) ← stringBody fuel r
        .ok ('\\' :: c :: body, r)
      else .error ⟨.unknownEscapeSequence (leadByte c), cs⟩
    | ['\\'] => .error ⟨.unknownEscapeSequence 32, cs⟩
    | c :: r => do
      let (body, r) ← stringBody fuel r
      .ok (c :: body, r)

/-- A string, from after its opening quotation mark. -/
def string (cs : List Char) : Read (Then String) := do
  let (body, cs) ← stringBody (cs.length + 1) cs
  let cs ← expect '"' cs
  .ok (String.ofList body, cs)

/-! ### Text of a pattern -/

/-- How a run of text ends. -/
inductive RunEnd where
  | lineFeed
  | crlf
  | brace
  | textEnd
  deriving DecidableEq

/-- A run of text: up to and with a line feed, or up to a CRLF or an opening brace. After a CRLF the
line feed is left over, and makes a run of its own. -/
structure Run where
  text : List Char
  isBlank : Bool
  ending : RunEnd

def isRunChar (c : Char) : Bool := c != '\n' && c != '{' && c != '}'

def run (cs : List Char) : Read (Then Run) :=
  let line := cs.takeWhile isRunChar
  let blank (t : List Char) := t.all (· == ' ')
  match cs.dropWhile isRunChar with
  | '\n' :: r =>
    if line.getLast? = some '\r' then
      .ok (⟨line.dropLast, blank line.dropLast, .crlf⟩, '\n' :: r)
    else .ok (⟨line ++ ['\n'], blank line, .lineFeed⟩, r)
  | '}' :: r => .error ⟨.unbalancedClosingBrace, '}' :: r⟩
  | '{' :: r => .ok (⟨line, blank line, .brace⟩, '{' :: r)
  | r => .ok (⟨line, blank line, .textEnd⟩, r)

/-- Where a piece of a pattern begins. -/
inductive Position where
  | first
  | lineStart
  | inside
  deriving DecidableEq

def RunEnd.next : RunEnd → Position
  | lineFeed | crlf => .lineStart
  | brace | textEnd => .inside

/-- A piece of a pattern before its lines are moved to the left. `indent` counts the spaces in front
of the text, which are part of it. -/
inductive Piece where
  | text (value : List Char) (indent : Nat) (position : Position) (isBlank : Bool)
  | placeable (content : Expression) (position : Position)

/-- What a piece allows as common indent, if it has a say in it. -/
def Piece.indent? : Piece → Option Nat
  | text _ indent .lineStart false => some indent
  | text .. => none
  | placeable _ .lineStart => some 0
  | placeable .. => none

/-- Whether the pattern must reach as far as this piece. -/
def Piece.isInk : Piece → Bool
  | text _ _ _ isBlank => !isBlank
  | placeable .. => true

/-- What a pattern does not end in. -/
def isClosing (c : Char) : Bool := c == ' ' || c == '\r' || c == '\n'

def trimEnd (cs : List Char) : List Char := (cs.reverse.dropWhile isClosing).reverse

/-- The piece without the common indent; the last one also loses the blanks at its end. -/
def Piece.settle (common? : Option Nat) (isLast : Bool) : Piece → Element
  | text value indent position _ =>
    let value :=
      if position = .lineStart then value.drop (min indent (common?.getD indent)) else value
    .text (String.ofList (if isLast then trimEnd value else value))
  | placeable content _ => .placeable content

/-- The pieces up to the last one with ink. -/
def dropBlankTail (ps : List Piece) : List Piece :=
  (ps.reverse.dropWhile (!·.isInk)).reverse

def settleAll (common? : Option Nat) : List Piece → Pattern
  | [] => []
  | [p] => [p.settle common? true]
  | p :: ps => p.settle common? false :: settleAll common? ps

/-- A pattern from its pieces; none if there is no ink. -/
def assemble (ps : List Piece) : Option Pattern :=
  match dropBlankTail ps with
  | [] => none
  | qs => some (settleAll (ps.filterMap Piece.indent?).min? qs)

/-- Whether a line that begins with `c`, after so many spaces, goes on with the pattern. -/
def goesOn (indent : Nat) (c : Char) : Bool :=
  if indent = 0 then c == '\r' || c == '\n'
  else !(c == '.' || c == '}' || c == '[' || c == '*')

/-- A run is kept unless it is nothing but the indent before a brace. -/
def keeps (position : Position) (t : Run) : Bool :=
  !t.text.isEmpty && (position ≠ .lineStart || !t.isBlank || t.ending = .lineFeed)

/-- The name of a function: capital letters, digits, `_` and `-`. -/
def isCallee (name : String) : Bool :=
  name.toList.all fun c => c.isUpper || c.isDigit || c == '_' || c == '-'

/-- The fault of an operand that cannot select. -/
def selectorFault? : Operand → Option FaultKind
  | .message _ none => some .messageReferenceAsSelector
  | .message _ (some _) => some .messageAttributeAsSelector
  | .term _ none _ => some .termReferenceAsSelector
  | .nested _ => some .expectedSimpleExpressionAsSelector
  | _ => none

def attributeAccessor : List Char → Read (Then (Option String))
  | '.' :: r => do
    let (name, r) ← identifier r
    .ok (some name, r)
  | cs => .ok (none, cs)

/-- The key of a variant, from after its opening bracket. -/
def variantKey (cs : List Char) : Read (Then VariantKey) := do
  let cs := skipBlank cs
  let isNumber := match cs with
    | c :: _ => c.isDigit || c == '-'
    | [] => false
  let (key, cs) ← if isNumber then do
      let (spelling, cs) ← number cs
      .ok (VariantKey.number spelling, cs)
    else do
      let (id, cs) ← identifier cs
      .ok (VariantKey.name id, cs)
  let cs ← expect ']' (skipBlank cs)
  .ok (key, cs)

/-! ### Patterns, expressions and calls -/

mutual

/-- A pattern, none if no ink follows. -/
def pattern : Nat → List Char → Read (Then (Option Pattern))
  | 0, cs => .error ⟨.missingValue, cs⟩
  | fuel + 1, cs => do
    let cs := skipSpaces cs
    let (ps, cs) ← match afterLineEnd? cs with
      | some r => pieces fuel .lineStart (skipBlankLines r)
      | none => pieces fuel .first cs
    .ok (assemble ps, cs)

def pieces : Nat → Position → List Char → Read (Then (List Piece))
  | 0, _, cs => .error ⟨.missingValue, cs⟩
  | _, _, [] => .ok ([], [])
  | fuel + 1, position, '{' :: r => do
    let (content, r) ← placeable fuel r
    let (ps, r) ← pieces fuel .inside r
    .ok (.placeable content position :: ps, r)
  | fuel + 1, position, cs =>
    let spaces := if position = .lineStart then cs.takeWhile (· == ' ') else []
    match cs.drop spaces.length with
    | [] => .ok ([], [])
    | c :: r =>
      if position = .lineStart && !goesOn spaces.length c then .ok ([], cs)
      else do
        let (t, r) ← run (c :: r)
        let (ps, r) ← pieces fuel t.ending.next r
        if keeps position t then
          .ok (.text (spaces ++ t.text) spaces.length position t.isBlank :: ps, r)
        else .ok (ps, r)

/-- From after the opening brace. -/
def placeable : Nat → List Char → Read (Then Expression)
  | 0, cs => .error ⟨.expectedInlineExpression, cs⟩
  | fuel + 1, cs => do
    let (content, cs) ← expression fuel (skipBlank cs)
    let cs ← expect '}' (skipSpaces cs)
    .ok (content, cs)

def expression : Nat → List Char → Read (Then Expression)
  | 0, cs => .error ⟨.expectedInlineExpression, cs⟩
  | fuel + 1, cs => do
    let (operand, cs) ← operand fuel false cs
    match skipBlank cs with
    | '-' :: '>' :: r =>
      match selectorFault? operand with
      | some kind => .error ⟨kind, '-' :: '>' :: r⟩
      | none =>
        match afterLineEnd? (skipSpaces r) with
        | none => .error ⟨.expectedCharRange "\n | \r\n", skipSpaces r⟩
        | some r =>
          let (vs, r) ← variants fuel false (skipBlank r)
          .ok (.select operand vs, r)
    | cs =>
      match operand with
      | .term _ (some _) _ => .error ⟨.termAttributeAsPlaceable, cs⟩
      | _ => .ok (.inline operand, cs)

/-- Variants of a selection; `hasDefault` tells whether a star came before. -/
def variants : Nat → Bool → List Char → Read (Then (List Variant))
  | 0, _, cs => .error ⟨.missingDefaultVariant, cs⟩
  | fuel + 1, hasDefault, cs => do
    let (isDefault, cs) := match cs with
      | '*' :: r => (true, r)
      | _ => (false, cs)
    if isDefault && hasDefault then .error ⟨.multipleDefaultVariants, cs⟩
    else
      match cs with
      | '[' :: r =>
        let (key, r) ← variantKey r
        let (value?, r) ← pattern fuel r
        match value? with
        | none => .error ⟨.missingValue, r⟩
        | some value =>
          let (vs, r) ← variants fuel (hasDefault || isDefault) (skipBlank r)
          .ok (.mk key isDefault value :: vs, r)
      | _ =>
        if hasDefault || isDefault then .ok ([], cs)
        else .error ⟨.missingDefaultVariant, cs⟩

/-- An operand; with `literal` only a string, a number without sign or a name will do. -/
def operand : Nat → Bool → List Char → Read (Then Operand)
  | 0, _, cs => .error ⟨.expectedInlineExpression, cs⟩
  | fuel + 1, literal, cs =>
    match cs with
    | [] => .error ⟨if literal then .expectedLiteral else .expectedInlineExpression, cs⟩
    | c :: r =>
      if c = '"' then do
        let (raw, r) ← string r
        .ok (.string raw, r)
      else if c.isDigit then do
        let (spelling, r) ← number cs
        .ok (.number spelling, r)
      else if c = '-' && !literal then
        match r with
        | d :: _ =>
          if isIdStart d then do
            let (id, r) ← identifier r
            let (attribute?, r) ← attributeAccessor r
            let (arguments?, r) ← arguments fuel r
            .ok (.term id attribute? arguments?, r)
          else do
            let (spelling, r) ← number cs
            .ok (.number spelling, r)
        | [] => do
          let (spelling, r) ← number cs
          .ok (.number spelling, r)
      else if c = '$' && !literal then do
        let (name, r) ← identifier r
        .ok (.variable name, r)
      else if isIdStart c then do
        let (id, r) ← identifier cs
        let (arguments?, r) ← arguments fuel r
        match arguments? with
        | some args =>
          if isCallee id then .ok (.function id args, r) else .error ⟨.forbiddenCallee, r⟩
        | none =>
          let (attribute?, r) ← attributeAccessor r
          .ok (.message id attribute?, r)
      else if c = '{' && !literal then do
        let (content, r) ← placeable fuel r
        .ok (.nested content, r)
      else .error ⟨if literal then .expectedLiteral else .expectedInlineExpression, cs⟩

/-- Arguments in parentheses, if an opening one follows. Blanks before it are skipped either way. -/
def arguments : Nat → List Char → Read (Then (Option Arguments))
  | 0, cs => .error ⟨.expectedInlineExpression, cs⟩
  | fuel + 1, cs =>
    match skipBlank cs with
    | '(' :: r => do
      let ((positional, named), r) ← argumentList fuel [] (skipBlank r)
      .ok (some (.mk positional named), r)
    | cs => .ok (none, cs)

/-- Arguments up to the closing parenthesis; `names` are those taken so far. -/
def argumentList : Nat → List String → List Char → Read (Then (List Operand × List NamedArgument))
  | 0, _, cs => .error ⟨.expectedInlineExpression, cs⟩
  | _, _, [] => .error ⟨.expectedToken ')', []⟩
  | _, _, ')' :: r => .ok (([], []), r)
  | fuel + 1, names, cs => do
    let (value, cs) ← operand fuel false cs
    let afterComma (cs : List Char) : List Char :=
      match skipBlank cs with
      | ',' :: r => skipBlank r
      | cs => cs
    let name? := match value, skipBlank cs with
      | .message id none, ':' :: r => some (id, r)
      | _, _ => none
    match name? with
    | some (id, r) =>
      if names.contains id then .error ⟨.duplicatedNamedArgument id, ':' :: r⟩
      else
        let (v, r) ← operand fuel true (skipBlank r)
        let ((ps, ns), r) ← argumentList fuel (id :: names) (afterComma r)
        .ok ((ps, .mk id v :: ns), r)
    | none =>
      let cs := match value with
        | .message _ none => skipBlank cs
        | _ => cs
      if !names.isEmpty then .error ⟨.positionalArgumentFollowsNamed, cs⟩
      else
        let ((ps, ns), r) ← argumentList fuel names (afterComma cs)
        .ok ((value :: ps, ns), r)

end

/-! ### Entries -/

/-- More than the readers of patterns can use up on this text. -/
def enough (cs : List Char) : Nat := 4 * cs.length + 16

/-- An attribute, from after its dot. -/
def attributeBody (cs : List Char) : Read (Then Attribute) := do
  let (name, cs) ← identifier cs
  let cs ← expect '=' (skipSpaces cs)
  let (value?, cs) ← pattern (enough cs) cs
  match value? with
  | some value => .ok (⟨name, value⟩, cs)
  | none => .error ⟨.missingValue, cs⟩

/-- The attributes that can be read; the first that cannot is left with all that follows. -/
def attributes : Nat → List Char → List Attribute × List Char
  | 0, cs => ([], cs)
  | fuel + 1, cs =>
    match skipSpaces cs with
    | '.' :: r =>
      match attributeBody r with
      | .ok (a, r) =>
        let (as, r) := attributes fuel r
        (a :: as, r)
      | .error _ => ([], cs)
    | _ => ([], cs)

/-- A message or a term. What went wrong with it is told as for any reader. -/
def entry (cs : List Char) : Read (Then Entry) := do
  let (kind, cs) := match cs with
    | '-' :: r => (EntryKind.term, r)
    | _ => (EntryKind.message, cs)
  let (id, cs) ← identifier cs
  let cs ← expect '=' (skipSpaces cs)
  let (value?, cs) ← pattern (enough cs) cs
  let (as, cs) := attributes cs.length (skipBlankLines cs)
  match kind with
  | .message =>
    if value?.isNone && as.isEmpty then .error ⟨.expectedMessageField id, cs⟩
    else .ok (⟨kind, id, value?, as⟩, cs)
  | .term =>
    if value?.isNone then .error ⟨.expectedTermField id, cs⟩
    else .ok (⟨kind, id, value?, as⟩, cs)

def utf8Length (cs : List Char) : Nat := cs.foldl (fun n c => n + c.utf8Size) 0

/-- The next line that begins like an entry; `fresh` tells whether a line begins here. -/
def nextEntry : Bool → List Char → List Char
  | _, [] => []
  | fresh, c :: r =>
    if fresh && (c.isAlpha || c == '-' || c == '#') then c :: r
    else nextEntry (c == '\n') r

/-- Whether `rest`, the end of `cs`, stands at the start of a line. -/
def atLineStart (cs rest : List Char) : Bool :=
  match cs.length - rest.length with
  | 0 => true
  | n + 1 => cs[n]? == some '\n'

/-- The fault of a reader that began an entry at `start` and stopped; `after` is where reading goes
on. A missing field is a fault of the whole entry, any other of one place. -/
def faultOf (source start after : List Char) (stop : Stop) : Fault :=
  let offset (rest : List Char) := utf8Length source - utf8Length rest
  let here := offset stop.rest
  let place : Span := match stop.kind with
    | .expectedMessageField _ | .expectedTermField _ => ⟨offset start, here⟩
    | _ => ⟨here, here + 1⟩
  ⟨stop.kind, place, ⟨offset start, offset after⟩⟩

/-- Entries and faults of what is left of `source`. -/
def entries (source : List Char) : Nat → List Char → List Entry × List Fault
  | 0, _ => ([], [])
  | _, [] => ([], [])
  | fuel + 1, '#' :: r =>
    entries source fuel (skipBlankLines ((r.dropWhile (· != '\n')).drop 1))
  | fuel + 1, cs =>
    match entry cs with
    | .ok (e, r) =>
      let (es, fs) := entries source fuel (skipBlankLines r)
      (e :: es, fs)
    | .error stop =>
      let after := nextEntry (atLineStart source stop.rest) stop.rest
      let (es, fs) := entries source fuel (skipBlankLines after)
      (es, faultOf source cs after stop :: fs)

/-- The entries of a document, or all its faults if there is one. -/
def document (source : String) : Except (List Fault) (List Entry) :=
  let cs := source.toList
  match entries cs (cs.length + 1) (skipBlankLines cs) with
  | (es, []) => .ok es
  | (_, fs) => .error fs

end Phrasebook.Fluent
