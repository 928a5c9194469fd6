import Phrasebook.Decimal.Scientific
import Phrasebook.Event
import Phrasebook.Log.Pattern
import Phrasebook.Text.Alphanumeric
import Phrasebook.Text.Blank

/-!
Directives of a log filter: `target[span]=level`, each part optional. The level says which events of
the target, or within the span, are let through.
-/

namespace Phrasebook.Log

/-- How much is let through: nothing, or events of a level and the graver ones. -/
inductive Threshold where
  | off
  | upTo (l : Level)
  deriving DecidableEq, Repr

namespace Threshold

def verbosity : Threshold → Nat
  | off => 0
  | upTo l => l.verbosity

def text : Threshold → String
  | off => "off"
  | upTo .error => "error"
  | upTo .warn => "warn"
  | upTo .info => "info"
  | upTo .debug => "debug"
  | upTo .trace => "trace"

/-- All thresholds, each at the place of its number. -/
def all : List Threshold :=
  [off, upTo .error, upTo .warn, upTo .info, upTo .debug, upTo .trace]

/-- A number without sign or with a plus. -/
def number? (cs : List Char) : Option Nat :=
  let ds := match cs with
    | '+' :: r => r
    | _ => cs
  if ds.isEmpty || !ds.all Char.isDigit then none else some (Decimal.ofDigits ds)

/-- A number up to five, or a word in small or capital letters. -/
def ofText? (s : String) : Option Threshold :=
  match (number? s.toList).bind fun n => all[n]? with
  | some t => some t
  | none => all.find? fun t => t.text.toList == s.toList.map Char.toLower

end Threshold

inductive FilterFault where
  | badDirective
  | badLevel
  | badPattern (cause : PatternFault)
  deriving DecidableEq, Repr

def FilterFault.message : FilterFault → String
  | badDirective => "invalid filter directive"
  | badPattern cause => "invalid field filter: " ++ cause.message
  | badLevel =>
    "error parsing level filter: expected one of \"off\", \"error\", \"warn\", \"info\", " ++
      "\"debug\", \"trace\", or a number 0-5"

/-- The reasons behind a fault, the nearest first. A bad level is its own reason. -/
def FilterFault.causes : FilterFault → List String
  | badDirective => []
  | badLevel => [badLevel.message]
  | badPattern cause => cause.message :: cause.causes

/-- What the value of a field must be: a truth value, a number of one kind, what is no number, or a
text that a pattern stands for. -/
inductive ValuePattern where
  | truth (b : Bool)
  | decimal (x : Float)
  | notNumber
  | negative (n : Nat)
  | count (n : Nat)
  | text (pattern : String)

/-- A field that a span must have, perhaps with a value. -/
structure FieldPattern where
  name : String
  value? : Option ValuePattern

structure Directive where
  target? : Option String
  span? : Option String
  field? : Option FieldPattern
  threshold : Threshold

/-! ### Values of fields -/

namespace ValuePattern

/-- Numbers stand in their usual spelling. -/
def spelling : ValuePattern → String
  | truth b => toString b
  | decimal x => (Decimal.Positional.ofFloat x).text
  | notNumber => "NaN"
  | negative n => toString (-(n : Int))
  | count n => toString n
  | text pattern => pattern

/-- Whether a field may have that value. No field has a value of the other kinds. -/
def covers [Patterns] : ValuePattern → FieldValue → Bool
  | count n, .count m => n == m
  | text pattern, .text s =>
    match Patterns.read pattern with
    | .ok standsFor => standsFor s
    | .error _ => false
  | _, _ => false

def ofWord? : String → Option ValuePattern
  | "true" => some (truth true)
  | "false" => some (truth false)
  | _ => none

/-- A count that a word can hold. -/
def count? (cs : List Char) : Option Nat :=
  (Threshold.number? cs).filter (· < Nat.pow 2 64)

/-- The size of a number below zero that a word can hold. -/
def negative? : List Char → Option Nat
  | '-' :: ds =>
    if ds.isEmpty || !ds.all Char.isDigit then none
    else
      let n := Decimal.ofDigits ds
      if n ≤ Nat.pow 2 63 then some n else none
  | _ => none

def ofDouble (x : Float) : ValuePattern := if x.isNaN then notNumber else decimal x

/-- The first kind of number that a text can be read as. -/
def ofNumber? (cs : List Char) : Option ValuePattern :=
  (count? cs).map count <|> (negative? cs).map negative <|> (Decimal.double? cs).map ofDouble

/-- What is neither a truth value nor a number must be a pattern. -/
def read [Patterns] (s : String) : Except FilterFault ValuePattern :=
  match ofWord? s <|> ofNumber? s.toList with
  | some v => .ok v
  | none =>
    match Patterns.read s with
    | .ok _ => .ok (text s)
    | .error cause => .error (.badPattern cause)

def rank : ValuePattern → Nat
  | truth _ => 0
  | decimal _ => 1
  | notNumber => 2
  | negative _ => 3
  | count _ => 4
  | text _ => 5

/-- By kinds, and within a kind by values. -/
def compareTo : ValuePattern → ValuePattern → Ordering
  | truth a, truth b => compare a b
  | decimal x, decimal y => if x < y then .lt else if y < x then .gt else .eq
  | negative m, negative n => compare n m
  | count m, count n => compare m n
  | text p, text q => compare p q
  | v, w => compare v.rank w.rank

end ValuePattern

namespace FieldPattern

def text (f : FieldPattern) : String :=
  "\x7b" ++ f.name ++ ((f.value?.map ("=" ++ ·.spelling)).getD "") ++ "\x7d"

/-- Whether there is such a field, whatever its value. -/
def isIn (f : FieldPattern) (fields : Fields) : Bool := fields.any (·.1 == f.name)

def covers [Patterns] (f : FieldPattern) (fields : Fields) : Bool :=
  fields.any fun g => g.1 == f.name && (f.value?.map (·.covers g.2)).getD true

/-- A name, and a value after a sign. What comes after a second sign is passed over. -/
def read [Patterns] (cs : List Char) : Except FilterFault FieldPattern :=
  let name := cs.takeWhile (· != '=')
  match cs.drop name.length with
  | _ :: r =>
    (ValuePattern.read (String.ofList (r.takeWhile (· != '=')))).map (⟨String.ofList name, some ·⟩)
  | [] => .ok ⟨String.ofList name, none⟩

end FieldPattern

namespace Directive

/-! ### Text -/

/-- The part in brackets. -/
def spanText (d : Directive) : String :=
  if d.span?.isSome || d.field?.isSome then
    "[" ++ d.span?.getD "" ++ ((d.field?.map FieldPattern.text).getD "") ++ "]"
  else ""

def text (d : Directive) : String :=
  let subject := d.target?.getD "" ++ d.spanText
  if d.target?.isSome || d.span?.isSome || d.field?.isSome then subject ++ "=" ++ d.threshold.text
  else d.threshold.text

/-! ### Reading -/

/-- Without characters of so many bytes. -/
def dropBytes : Nat → List Char → List Char
  | _, [] => []
  | n, c :: r => if n = 0 then c :: r else dropBytes (n - c.utf8Size) r

/-- Characters of so many bytes. -/
def takeBytes : Nat → List Char → List Char
  | _, [] => []
  | n, c :: r => if n = 0 then [] else c :: takeBytes (n - c.utf8Size) r

def byteCount (cs : List Char) : Nat := (String.ofList cs).utf8ByteSize

/-- A stretch of the text of a directive. Its place was found without the blanks around the text,
but it is cut from the text with them. -/
def cut (whole : List Char) (start : Nat) (stretch : List Char) : String :=
  String.ofList (takeBytes (byteCount stretch) (dropBytes start whole))

/-- What is left from a place on. -/
def cutRest (whole : List Char) (start : Nat) : String := String.ofList (dropBytes start whole)

/-- What a directive may begin with, a bracket apart. -/
def beginsName (c : Char) : Bool := c == '-' || c == ':' || c == '_' || Text.isAlphanumeric c

/-- No level asks for everything. -/
def level (s : String) : Except FilterFault Threshold :=
  if s.isEmpty then .ok (.upTo .trace)
  else
    match Threshold.ofText? s with
    | some t => .ok t
    | none => .error .badLevel

/-- The level after a subject, from the sign before it. -/
def withLevel (whole : List Char) (place : Nat) (d : Directive) :
    List Char → Except FilterFault Directive
  | [] => .ok d
  | '=' :: _ => do
    let t ← level (cutRest whole (place + 1))
    .ok { d with threshold := t }
  | _ => .error .badDirective

/-- The part in brackets and the level after it. `place` is where the first character of `cs`
stands, which is the one after the opening bracket. -/
def withSpan [Patterns] (whole : List Char) (target? : Option String) (place : Nat)
    (cs : List Char) : Except FilterFault Directive :=
  let name := cs.takeWhile fun c => c != ']' && c != '{'
  let afterName := place + byteCount name + 1
  match cs.drop name.length with
  | ']' :: r =>
    withLevel whole afterName ⟨target?, some (cut whole place name), none, .upTo .trace⟩ r
  | '{' :: r =>
    let field := r.takeWhile (· != '\x7d')
    match r.drop field.length with
    | '\x7d' :: r =>
      if field.isEmpty then .error .badDirective
      else do
        let pattern ← FieldPattern.read (cut whole afterName field).toList
        let span? := if name.isEmpty then none else some (cut whole place name)
        match r with
        | ']' :: r =>
          withLevel whole (afterName + byteCount field + 2)
            ⟨target?, span?, some pattern, .upTo .trace⟩ r
        | _ => .error .badDirective
    | _ => .error .badDirective
  | _ => .error .badDirective

/-- A lone word is a level if it reads as one, otherwise a target. -/
def ofWord (s : String) : Directive :=
  match Threshold.ofText? s with
  | some t => ⟨none, none, none, t⟩
  | none => ⟨some s, none, none, .upTo .trace⟩

def read [Patterns] (whole : List Char) : Except FilterFault Directive :=
  match Text.trim whole with
  | [] => .error .badDirective
  | '[' :: r => withSpan whole none 1 r
  | c :: r =>
    if !beginsName c then .error .badDirective
    else
      let name := c :: r.takeWhile fun c => c != '=' && c != '['
      let place := byteCount name
      let target := cut whole 0 name
      match (c :: r).drop name.length with
      | '[' :: r => withSpan whole (some target) (place + 1) r
      | '=' :: r => withLevel whole place ⟨some target, none, none, .upTo .trace⟩ ('=' :: r)
      | _ => .ok (ofWord (String.ofList whole))

/-! ### Order -/

/-- Nothing goes first. -/
def compareOption {α : Type} (order : α → α → Ordering) : Option α → Option α → Ordering
  | none, none => .eq
  | none, some _ => .lt
  | some _, none => .gt
  | some a, some b => order a b

/-- One with a value is greater than one without; then names and values count. -/
def compareFields (f g : FieldPattern) : Ordering :=
  (compare f.value?.isSome.toNat g.value?.isSome.toNat).then <|
  (compare f.name g.name).then (compareOption ValuePattern.compareTo f.value? g.value?)

def lengthKey (d : Directive) : Nat :=
  match d.target? with
  | none => 0
  | some t => t.utf8ByteSize + 1

/-- The more specific a directive, the greater: by the length of its target, then by whether it
names a span and a field, then by the texts of all three. -/
def compareTo (d e : Directive) : Ordering :=
  (compare d.lengthKey e.lengthKey).then <|
  (compare d.span?.isSome.toNat e.span?.isSome.toNat).then <|
  (compare d.field?.isSome.toNat e.field?.isSome.toNat).then <|
  (compareOption compare d.target? e.target?).then <|
  (compareOption compare d.span? e.span?).then <|
  compareOption compareFields d.field? e.field?

/-- Puts a directive among others, the greatest first; one with the same subject is replaced. -/
def insertInto (d : Directive) : List Directive → List Directive
  | [] => [d]
  | e :: es =>
    match d.compareTo e with
    | .gt => d :: e :: es
    | .eq => d :: es
    | .lt => e :: d.insertInto es

end Directive
end Phrasebook.Log
