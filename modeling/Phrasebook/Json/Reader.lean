import Phrasebook.Json.Fault

/-!
Reading JSON. Readers take the text that is left and return what is left after them. Values can be
read, or skipped; skipping asks less of strings and numbers, since it does not need what they mean.
-/

namespace Phrasebook.Json

/-- Why reading stopped, and where: so many bytes into the text that was left. A misfit that is
found after the fact has no place until the reader around it gives it one. -/
inductive Stop where
  | here (cause : Cause) (rest : List Char) (ahead : Nat)
  | somewhere (cause : Cause)

abbrev Read := Except Stop

/-- A value and the text left after it. -/
abbrev Then (α : Type) := α × List Char

/-- A fault of the next character. -/
def stopAt {α : Type} (cause : Cause) (rest : List Char) : Read α :=
  .error (.here cause rest 1)

/-- A fault of what was just read. -/
def stopAfter {α : Type} (cause : Cause) (rest : List Char) : Read α :=
  .error (.here cause rest 0)

/-- Puts a fault without place where reading stands. -/
def Stop.settle (rest : List Char) : Stop → Stop
  | somewhere cause => here cause rest 0
  | s => s

def isBlank (c : Char) : Bool := c == ' ' || c == '\n' || c == '\t' || c == '\r'

def skipBlanks (cs : List Char) : List Char := cs.dropWhile isBlank

/-! ### Words and numbers -/

/-- The rest of a word. -/
def readWord : List Char → List Char → Read (List Char)
  | [], cs => .ok cs
  | _ :: _, [] => stopAfter .endInValue []
  | w :: ws, c :: cs => if c = w then readWord ws cs else stopAfter .expectedWord cs

def wordSize : Nat := Nat.pow 2 64

def digitValue (c : Char) : Nat := c.toNat - '0'.toNat

/-- Digits added to a number as long as it fits a word; tells whether one did not. -/
def significand (n : Nat) : List Char → Nat × Bool × List Char
  | [] => (n, false, [])
  | c :: r =>
    if c.isDigit then
      if 10 * n + digitValue c < wordSize then significand (10 * n + digitValue c) r
      else (n, true, c :: r)
    else (n, false, c :: r)

/-- `x * 10 ^ e`, one step for every `10 ^ 308`; none if it is too large. -/
def scale : Nat → Float → Int → Option Float
  | 0, x, _ => some x
  | steps + 1, x, e =>
    if e.natAbs ≤ 308 then
      if 0 ≤ e then
        let y := x * Float.ofScientific 1 false e.toNat
        if y.isInf then none else some y
      else some (x / Float.ofScientific 1 false (-e).toNat)
    else if x == 0 then some x
    else if 0 ≤ e then none
    else scale steps (x / Float.ofScientific 1 false 308) (e + 308)

def ofParts (positive : Bool) (n : Nat) (e : Int) (rest : List Char) : Read (Then Number) :=
  match scale 4 n.toFloat e with
  | none => stopAfter .numberOutOfRange rest
  | some x => .ok (.float (if positive then x else -x), rest)

def maxExponent : Nat := Nat.pow 2 31 - 1

/-- Digits of an exponent; tells whether it grew too large. -/
def exponentDigits (n : Nat) : List Char → Nat × Bool × List Char
  | [] => (n, false, [])
  | c :: r =>
    if c.isDigit then
      if 10 * n + digitValue c ≤ maxExponent then exponentDigits (10 * n + digitValue c) r
      else (n, true, r)
    else (n, false, c :: r)

/-- From after the exponent's mark. -/
def exponent (positive : Bool) (n : Nat) (start : Int) (cs : List Char) : Read (Then Number) :=
  let (up, cs) := match cs with
    | '+' :: r => (true, r)
    | '-' :: r => (false, r)
    | _ => (true, cs)
  match cs with
  | [] => stopAfter .endInValue []
  | c :: r =>
    if c.isDigit then
      let (e, tooLarge, r) := exponentDigits (digitValue c) r
      if tooLarge then
        if n != 0 && up then stopAfter .numberOutOfRange r
        else .ok (.float (if positive then 0 else -0), r.dropWhile Char.isDigit)
      else ofParts positive n (if up then start + e else start - e) r
    else stopAfter .invalidNumber r

def exponentOrEnd (positive : Bool) (n : Nat) (e : Int) (cs : List Char) : Read (Then Number) :=
  match cs with
  | 'e' :: r | 'E' :: r => exponent positive n e r
  | _ => ofParts positive n e cs

/-- From after the point. -/
def fraction (positive : Bool) (n : Nat) (start : Int) (cs : List Char) : Read (Then Number) :=
  let (m, full, r) := significand n cs
  let places := cs.length - r.length
  if full then exponentOrEnd positive m (start - places) (r.dropWhile Char.isDigit)
  else if places = 0 then
    match r with
    | [] => stopAt .endInValue []
    | _ => stopAt .invalidNumber r
  else exponentOrEnd positive m (start - places) r

/-- What follows the whole part. -/
def numberTail (positive : Bool) (n : Nat) (cs : List Char) : Read (Then Number) :=
  match cs with
  | '.' :: r => fraction positive n 0 r
  | 'e' :: r | 'E' :: r => exponent positive n 0 r
  | _ =>
    if positive then .ok (.natural n, cs)
    else if 0 < n && n ≤ Nat.pow 2 63 then .ok (.negative n, cs)
    else .ok (.float (-n.toFloat), cs)

/-- A number without its sign. -/
def readNumber (positive : Bool) : List Char → Read (Then Number)
  | [] => stopAfter .endInValue []
  | c :: r =>
    if c = '0' then
      match r with
      | d :: _ => if d.isDigit then stopAt .invalidNumber r else numberTail positive 0 r
      | [] => numberTail positive 0 r
    else if c.isDigit then
      let (n, full, r) := significand (digitValue c) r
      if full then
        let r' := r.dropWhile Char.isDigit
        let e : Int := (r.length - r'.length : Nat)
        match r' with
        | '.' :: r => fraction positive n e r
        | _ => exponentOrEnd positive n e r'
      else numberTail positive n r
    else stopAfter .invalidNumber r

/-! ### Strings -/

def hexValue? (c : Char) : Option Nat :=
  if c.isDigit then some (c.toNat - '0'.toNat)
  else if 'a' ≤ c && c ≤ 'f' then some (c.toNat - 'a'.toNat + 10)
  else if 'A' ≤ c && c ≤ 'F' then some (c.toNat - 'A'.toNat + 10)
  else none

def utf8Length (cs : List Char) : Nat := cs.foldl (fun n c => n + c.utf8Size) 0

/-- Four hex digits. -/
def hexUnitValue (cs : List Char) : Read (Then Nat) :=
  match cs with
  | a :: b :: c :: d :: r =>
    match hexValue? a, hexValue? b, hexValue? c, hexValue? d with
    | some a, some b, some c, some d => .ok (((a * 16 + b) * 16 + c) * 16 + d, r)
    | _, _, _, _ => .error (.here .invalidEscape cs 4)
  | _ =>
    if 4 ≤ utf8Length cs then .error (.here .invalidEscape cs 4) else stopAfter .endInString []

/-- What a letter after a backslash stands for. -/
def simpleEscape? (c : Char) : Option Char :=
  if c = '"' || c = '\\' || c = '/' then some c
  else if c = 'b' then some (Char.ofNat 8)
  else if c = 'f' then some (Char.ofNat 12)
  else if c = 'n' then some '\n'
  else if c = 'r' then some '\r'
  else if c = 't' then some '\t'
  else none

def isLeading (n : Nat) : Bool := 0xD800 ≤ n && n ≤ 0xDBFF

def isTrailing (n : Nat) : Bool := 0xDC00 ≤ n && n ≤ 0xDFFF

/-- The second half of a pair of surrogates. -/
def trailingUnit (cs : List Char) : Read (Then Nat) :=
  match cs with
  | [] => stopAfter .endInString []
  | '\\' :: [] => stopAfter .endInString []
  | '\\' :: 'u' :: r => do
    let (n, r) ← hexUnitValue r
    if isTrailing n then .ok (n, r) else stopAfter .loneSurrogate r
  | '\\' :: r => stopAt .brokenSurrogate r
  | r => stopAt .brokenSurrogate r

/-- An escape, from after its backslash. -/
def escape (cs : List Char) : Read (Then Char) :=
  match cs with
  | [] => stopAfter .endInString []
  | 'u' :: r => do
    let (n, r) ← hexUnitValue r
    if isTrailing n then stopAfter .loneSurrogate r
    else if isLeading n then
      let (m, r) ← trailingUnit r
      .ok (Char.ofNat ((n - 0xD800) * 0x400 + (m - 0xDC00) + 0x10000), r)
    else .ok (Char.ofNat n, r)
  | c :: r =>
    match simpleEscape? c with
    | some d => .ok (d, r)
    | none => stopAfter .invalidEscape r

/-- The characters of a string up to its end; `fuel` is more than their number. -/
def stringChars : Nat → List Char → Read (Then (List Char))
  | 0, cs => stopAfter .endInString cs
  | _, [] => stopAfter .endInString []
  | fuel + 1, c :: r =>
    if c = '"' then .ok ([], r)
    else if c = '\\' then do
      let (d, r) ← escape r
      let (ds, r) ← stringChars fuel r
      .ok (d :: ds, r)
    else if c.toNat < 32 then stopAfter .controlCharacter r
    else do
      let (ds, r) ← stringChars fuel r
      .ok (c :: ds, r)

/-- A string, from after its opening quotation mark. -/
def readString (cs : List Char) : Read (Then String) := do
  let (s, r) ← stringChars (cs.length + 1) cs
  .ok (String.ofList s, r)

/-! ### Lists and objects, one step at a time -/

/-- Before an item of a list: the text at the item, or after the list's end. -/
inductive Step where
  | item (rest : List Char)
  | done (rest : List Char)

def nextItem (isFirst : Bool) (cs : List Char) : Read Step :=
  match skipBlanks cs with
  | [] => stopAt .endInList []
  | c :: r =>
    if c = ']' then .ok (.done (c :: r))
    else if isFirst then .ok (.item (c :: r))
    else if c = ',' then
      match skipBlanks r with
      | [] => stopAt .endInValue []
      | d :: r => if d = ']' then stopAt .trailingComma (d :: r) else .ok (.item (d :: r))
    else stopAt .expectedListEnd (c :: r)

/-- Before a member of an object: the text after its opening quotation mark, or at the end. -/
def nextMember (isFirst : Bool) (cs : List Char) : Read Step :=
  match skipBlanks cs with
  | [] => stopAt .endInObject []
  | c :: r =>
    if c = '\x7d' then .ok (.done (c :: r))
    else if isFirst then
      if c = '"' then .ok (.item r) else stopAt .expectedKey (c :: r)
    else if c = ',' then
      match skipBlanks r with
      | [] => stopAt .endInValue []
      | d :: r =>
        if d = '"' then .ok (.item r)
        else if d = '\x7d' then stopAt .trailingComma (d :: r)
        else stopAt .expectedKey (d :: r)
    else stopAt .expectedObjectEnd (c :: r)

def colon (cs : List Char) : Read (List Char) :=
  match skipBlanks cs with
  | [] => stopAt .endInObject []
  | c :: r => if c = ':' then .ok r else stopAt .expectedColon (c :: r)

/-- The end of a list; even when it is refused, reading goes on to some place. -/
def listEnd (cs : List Char) : Read Unit × List Char :=
  match skipBlanks cs with
  | [] => (stopAt .endInList [], [])
  | c :: r =>
    if c = ']' then (.ok (), r)
    else if c = ',' then
      let r := skipBlanks r
      match r with
      | ']' :: _ => (stopAt .trailingComma r, r)
      | _ => (stopAt .trailingCharacters r, r)
    else (stopAt .trailingCharacters (c :: r), c :: r)

def objectEnd (cs : List Char) : Read Unit × List Char :=
  match skipBlanks cs with
  | [] => (stopAt .endInObject [], [])
  | c :: r =>
    if c = '\x7d' then (.ok (), r)
    else if c = ',' then (stopAt .trailingComma (c :: r), c :: r)
    else (stopAt .trailingCharacters (c :: r), c :: r)

/-- Nothing but blanks may follow. -/
def atEnd (cs : List Char) : Read Unit :=
  match skipBlanks cs with
  | [] => .ok ()
  | r => stopAt .trailingCharacters r

/-! ### Values -/

/-- Lists and objects may stand in one another this deep, less one. -/
def depthLimit : Nat := 128

mutual

def readValue : Nat → Nat → List Char → Read (Then Json)
  | 0, _, cs => stopAt .endInValue cs
  | fuel + 1, depth, cs =>
    match skipBlanks cs with
    | [] => stopAt .endInValue []
    | c :: r =>
      if c = 'n' then do .ok (.null, ← readWord ['u', 'l', 'l'] r)
      else if c = 't' then do .ok (.bool true, ← readWord ['r', 'u', 'e'] r)
      else if c = 'f' then do .ok (.bool false, ← readWord ['a', 'l', 's', 'e'] r)
      else if c = '-' then do
        let (n, r) ← readNumber false r
        .ok (.number n, r)
      else if c.isDigit then do
        let (n, r) ← readNumber true (c :: r)
        .ok (.number n, r)
      else if c = '"' then do
        let (s, r) ← readString r
        .ok (.string s, r)
      else if c = '[' then
        if depth ≤ 1 then stopAt .tooDeep (c :: r)
        else do
          let (items, r) ← readItems fuel (depth - 1) true r
          .ok (.array items, r)
      else if c = '\x7b' then
        if depth ≤ 1 then stopAt .tooDeep (c :: r)
        else do
          let (members, r) ← readMembers fuel (depth - 1) true r
          .ok (.object members, r)
      else stopAt .expectedValue (c :: r)

def readItems : Nat → Nat → Bool → List Char → Read (Then (List Json))
  | 0, _, _, cs => stopAt .endInValue cs
  | fuel + 1, depth, isFirst, cs => do
    match ← nextItem isFirst cs with
    | .done r => .ok ([], r.drop 1)
    | .item r =>
      let (j, r) ← readValue fuel depth r
      let (js, r) ← readItems fuel depth false r
      .ok (j :: js, r)

def readMembers : Nat → Nat → Bool → List Char → Read (Then (List (String × Json)))
  | 0, _, _, cs => stopAt .endInValue cs
  | fuel + 1, depth, isFirst, cs => do
    match ← nextMember isFirst cs with
    | .done r => .ok ([], r.drop 1)
    | .item r =>
      let (name, r) ← readString r
      let (j, r) ← readValue fuel depth (← colon r)
      let (ms, r) ← readMembers fuel depth false r
      .ok ((name, j) :: ms, r)

end

/-- More than reading a value can use up on this text. -/
def enough (cs : List Char) : Nat := 2 * cs.length + 4

/-! ### Skipping -/

def skipExponent (cs : List Char) : Read (List Char) :=
  let cs := match cs with
    | '+' :: r | '-' :: r => r
    | _ => cs
  match cs with
  | [] => stopAfter .invalidNumber []
  | c :: r => if c.isDigit then .ok (r.dropWhile Char.isDigit) else stopAfter .invalidNumber r

def skipExponentOrEnd : List Char → Read (List Char)
  | 'e' :: r | 'E' :: r => skipExponent r
  | cs => .ok cs

def skipNumber : List Char → Read (List Char)
  | [] => stopAfter .invalidNumber []
  | c :: r =>
    let tail (cs : List Char) : Read (List Char) :=
      match cs with
      | '.' :: r =>
        let r' := r.dropWhile Char.isDigit
        if r'.length = r.length then stopAt .invalidNumber r else skipExponentOrEnd r'
      | _ => skipExponentOrEnd cs
    if c = '0' then
      match r with
      | d :: _ => if d.isDigit then stopAt .invalidNumber r else tail r
      | [] => tail r
    else if c.isDigit then tail (r.dropWhile Char.isDigit)
    else stopAfter .invalidNumber r

def skipEscape (cs : List Char) : Read (List Char) :=
  match cs with
  | [] => stopAfter .endInString []
  | 'u' :: r => do
    let (_, r) ← hexUnitValue r
    .ok r
  | c :: r => if (simpleEscape? c).isSome then .ok r else stopAfter .invalidEscape r

def skipStringChars : Nat → List Char → Read (List Char)
  | 0, cs => stopAfter .endInString cs
  | _, [] => stopAfter .endInString []
  | fuel + 1, c :: r =>
    if c = '"' then .ok r
    else if c = '\\' then do skipStringChars fuel (← skipEscape r)
    else if c.toNat < 32 then stopAfter .controlCharacter (c :: r)
    else skipStringChars fuel r

def skipString (cs : List Char) : Read (List Char) := skipStringChars (cs.length + 1) cs

mutual

def skipValue : Nat → List Char → Read (List Char)
  | 0, cs => stopAt .endInValue cs
  | fuel + 1, cs =>
    match skipBlanks cs with
    | [] => stopAt .endInValue []
    | c :: r =>
      if c = 'n' then readWord ['u', 'l', 'l'] r
      else if c = 't' then readWord ['r', 'u', 'e'] r
      else if c = 'f' then readWord ['a', 'l', 's', 'e'] r
      else if c = '-' then skipNumber r
      else if c.isDigit then skipNumber (c :: r)
      else if c = '"' then skipString r
      else if c = '[' then skipItems fuel false r
      else if c = '\x7b' then skipMembers fuel false r
      else stopAt .expectedValue (c :: r)

/-- Items up to the end; `afterItem` tells whether one came before. -/
def skipItems : Nat → Bool → List Char → Read (List Char)
  | 0, _, cs => stopAt .endInList cs
  | fuel + 1, afterItem, cs =>
    match skipBlanks cs with
    | [] => stopAt .endInList []
    | c :: r =>
      if c = ']' then .ok r
      else if !afterItem then do skipItems fuel true (← skipValue fuel (c :: r))
      else if c = ',' then do skipItems fuel true (← skipValue fuel r)
      else stopAt .expectedListEnd (c :: r)

def skipMembers : Nat → Bool → List Char → Read (List Char)
  | 0, _, cs => stopAt .endInObject cs
  | fuel + 1, afterMember, cs =>
    match skipBlanks cs with
    | [] => stopAt .endInObject []
    | c :: r =>
      if c = '\x7d' then .ok r
      else if !afterMember then do skipMembers fuel true (← skipMember fuel (c :: r))
      else if c = ',' then do skipMembers fuel true (← skipMember fuel r)
      else stopAt .expectedObjectEnd (c :: r)

def skipMember : Nat → List Char → Read (List Char)
  | 0, cs => stopAt .endInObject cs
  | fuel + 1, cs =>
    match skipBlanks cs with
    | [] => stopAt .endInObject []
    | c :: r =>
      if c = '"' then do
        let r ← skipString r
        skipValue fuel (← colon r)
      else stopAt .expectedKey (c :: r)

end

/-! ### Whole texts -/

/-- Line and column at a byte offset, counted over the text before it. -/
def placeAt (source : List Char) (offset : Nat) : Place :=
  go source offset ⟨1, 0⟩
where
  go : List Char → Nat → Place → Place
    | [], _, p => p
    | c :: r, n, p =>
      if n = 0 then p
      else if n < c.utf8Size then { p with column := p.column + n }
      else if c = '\n' then go r (n - 1) ⟨p.line + 1, 0⟩
      else go r (n - c.utf8Size) { p with column := p.column + c.utf8Size }

/-- The fault of a reader that was started on `source`. -/
def Stop.fault (source : List Char) : Stop → Fault
  | .somewhere cause => ⟨cause, none⟩
  | .here cause rest ahead =>
    let offset := min (utf8Length source) (utf8Length source - utf8Length rest + ahead)
    ⟨cause, some (placeAt source offset)⟩

/-- Runs a reader over a whole text. -/
def readAll {α : Type} (reader : List Char → Read (Then α)) (text : String) : Except Fault α :=
  let cs := text.toList
  let result : Read α := do
    let (a, rest) ← reader cs
    atEnd rest
    return a
  result.mapError (Stop.fault cs)

/-- The value of a text. -/
def read (text : String) : Except Fault Json :=
  readAll (fun cs => readValue (enough cs) depthLimit cs) text

end Phrasebook.Json
