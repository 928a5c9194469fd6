import Phrasebook.Yaml.Scalar

/-!
Anchors, aliases and tags, and the directives at the head of a document.
-/

namespace Phrasebook.Yaml

/-! ### Anchors and aliases -/

/-- What may stand directly after the name of an anchor. -/
def endsName : List Char → Bool
  | [] => true
  | c :: r => isBlankOrEnd (c :: r) || ['?', ':', ',', ']', '\x7d', '%', '@', '\x60'].contains c

/-- The name of an anchor or an alias, from its mark. -/
def anchorName (activity : Activity) (c : Cursor) : Scan (String × Cursor) :=
  let start := c.mark
  let c := c.advance 1
  let name := c.rest.takeWhile isWordChar
  let c := c.advance name.length
  if name.isEmpty || !endsName c.rest then c.fail activity start .expectedAlphanumeric
  else .ok (String.ofList name, c)

/-! ### Tags -/

/-- Characters of a tag; inside angle brackets and in directives a few more are allowed. -/
def isUriChar (wide : Bool) (c : Char) : Bool :=
  isWordChar c || [';', '/', '?', ':', '@', '&', '=', '+', '$', '.', '%', '!', '~', '*', '\'', '(',
    ')'].contains c || (wide && [',', '[', ']'].contains c)

/-- How many octets a first octet announces, and its share of the code point. -/
def leadingOctet? (n : Nat) : Option (Nat × Nat) :=
  if n < 0x80 then some (1, n)
  else if n / 0x20 = 0x06 then some (2, n % 0x20)
  else if n / 0x10 = 0x0E then some (3, n % 0x10)
  else if n / 0x08 = 0x1E then some (4, n % 0x08)
  else none

/-- An octet as a percent sign and two hex digits. -/
def uriOctet (activity : Activity) (start : Mark) (c : Cursor) : Scan Nat :=
  match c.rest with
  | '%' :: a :: b :: _ =>
    if isHexDigit a && isHexDigit b then .ok (hexValue [a, b])
    else c.fail activity start .badUriEscape
  | _ => c.fail activity start .badUriEscape

/-- The octets after the first of an escaped character. -/
def uriTrailing (activity : Activity) (start : Mark) : Nat → Nat → Cursor → Scan (Nat × Cursor)
  | 0, code, c => .ok (code, c)
  | left + 1, code, c => do
    let n ← uriOctet activity start c
    if n / 0x40 = 2 then uriTrailing activity start left (0x40 * code + n % 0x40) (c.advance 3)
    else c.fail activity start .badTrailingOctet

/-- An escaped character. -/
def uriEscape (activity : Activity) (start : Mark) (c : Cursor) : Scan (Char × Cursor) := do
  let n ← uriOctet activity start c
  match leadingOctet? n with
  | none => c.fail activity start .badLeadingOctet
  | some (width, code) =>
    let (code, c) ← uriTrailing activity start (width - 1) code (c.advance 3)
    .ok (Char.ofNat code, c)

def uriChars (wide : Bool) (activity : Activity) (start : Mark) :
    Nat → Cursor → Scan (List Char × Cursor)
  | 0, c => .ok ([], c)
  | fuel + 1, c =>
    match c.rest with
    | '%' :: _ => do
      let (ch, c) ← uriEscape activity start c
      let (chs, c) ← uriChars wide activity start fuel c
      .ok (ch :: chs, c)
    | ch :: _ =>
      if isUriChar wide ch then do
        let (chs, c) ← uriChars wide activity start fuel (c.advance 1)
        .ok (ch :: chs, c)
      else .ok ([], c)
    | [] => .ok ([], c)

/-- The rest of a tag. `head` are characters that were read already, from an exclamation mark on,
which is no part of the tag. -/
def uri (wide : Bool) (activity : Activity) (head : List Char) (start : Mark) (c : Cursor) :
    Scan (List Char × Cursor) := do
  let (cs, c) ← uriChars wide activity start (c.rest.length + 1) c
  if head.isEmpty && cs.isEmpty then c.fail activity start .expectedTagUri
  else .ok (head.drop 1 ++ cs, c)

/-- An exclamation mark, word characters, and a second exclamation mark if one follows. -/
def handleChars (c : Cursor) : List Char :=
  let word := (c.rest.drop 1).takeWhile isWordChar
  match c.rest.drop (word.length + 1) with
  | '!' :: _ => '!' :: word ++ ['!']
  | _ => '!' :: word

/-- A handle has a second exclamation mark. -/
def isHandle (cs : List Char) : Bool := 1 < cs.length && cs.getLast? == some '!'

/-- Handle and suffix of a tag. -/
def tagParts (start : Mark) (c : Cursor) : Scan (List Char × List Char × Cursor) := do
  match c.rest with
  | '!' :: '<' :: _ =>
    let (cs, c) ← uri true .tagUri [] start (c.advance 2)
    match c.rest with
    | '>' :: _ => .ok ([], cs, c.advance 1)
    | _ => c.fail .tag start .expectedTagEnd
  | _ =>
    let head := handleChars c
    let c := c.advance head.length
    if isHandle head then
      let (cs, c) ← uri false .tagUri [] start c
      .ok (head, cs, c)
    else
      let (cs, c) ← uri false .tagUri head start c
      if cs.isEmpty then .ok ([], ['!'], c) else .ok (['!'], cs, c)

/-- A tag from its exclamation mark. -/
def tag (flow : Bool) (c : Cursor) : Scan (TokenKind × Cursor) := do
  let start := c.mark
  let (handle, suffix, c) ← tagParts start c
  if isBlankOrEnd c.rest || (flow && c.rest.head? == some ',') then
    .ok (.tag (String.ofList handle) (String.ofList suffix), c)
  else c.fail .tag start .expectedBlankOrLineEnd

/-! ### Directives -/

/-- So many digits may a part of a version have. -/
def versionDigitLimit : Nat := 9

def versionNumber (start : Mark) (c : Cursor) : Scan (Nat × Cursor) :=
  let ds := c.rest.takeWhile Char.isDigit
  if versionDigitLimit < ds.length then
    (c.advance versionDigitLimit).fail .versionDirective start .longVersion
  else if ds.isEmpty then c.fail .versionDirective start .missingVersion
  else .ok (ds.foldl (fun n d => 10 * n + (d.toNat - '0'.toNat)) 0, c.advance ds.length)

def version (start : Mark) (c : Cursor) : Scan (TokenKind × Cursor) := do
  let (major, c) ← versionNumber start (c.skipWhile isSpaceOrTab)
  match c.rest with
  | '.' :: _ =>
    let (minor, c) ← versionNumber start (c.advance 1)
    .ok (.versionDirective major minor, c)
  | _ => c.fail .versionDirective start .expectedDigitOrPoint

/-- A handle in a directive: one exclamation mark, or two with a word between them. -/
def directiveHandle (start : Mark) (c : Cursor) : Scan (List Char × Cursor) :=
  match c.rest with
  | '!' :: _ =>
    let head := handleChars c
    let c := c.advance head.length
    if head = ['!'] || isHandle head then .ok (head, c)
    else c.fail .tagDirectiveHandle start .expectedBang
  | _ => c.fail .tagDirectiveBang start .expectedBang

def tagDefinition (start : Mark) (c : Cursor) : Scan (TokenKind × Cursor) := do
  let (handle, c) ← directiveHandle start (c.skipWhile isSpaceOrTab)
  if !(c.rest.head?.map isSpaceOrTab).getD false then c.fail .tagDirective start .expectedBlank
  else
    let (target, c) ← uri true .tagDirectiveUri [] start (c.skipWhile isSpaceOrTab)
    if isBlankOrEnd c.rest then
      .ok (.tagDirective (String.ofList handle) (String.ofList target), c)
    else c.fail .tagDirective start .expectedBlankOrLineEnd

def directiveBody (start : Mark) (name : List Char) (c : Cursor) : Scan (TokenKind × Cursor) :=
  if name.isEmpty then c.fail .directive start .missingDirectiveName
  else if !isBlankOrEnd c.rest then c.fail .directive start .badDirectiveName
  else if name = ['Y', 'A', 'M', 'L'] then version start c
  else if name = ['T', 'A', 'G'] then tagDefinition start c
  else c.fail .directive start .unknownDirective

/-- A directive from its percent sign to the end of its line. -/
def directive (c : Cursor) : Scan (Token × Cursor) := do
  let start := c.mark
  let name := (c.rest.drop 1).takeWhile isWordChar
  let (kind, c) ← directiveBody start name (c.advance (name.length + 1))
  let stop := c.mark
  let c := c.skipToLineEnd
  if isBreakOrEnd c.rest then .ok (⟨kind, start, stop⟩, c.skipLineBreak)
  else c.fail .directive start .expectedLineEnd

end Phrasebook.Yaml
