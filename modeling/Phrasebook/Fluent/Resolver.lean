import Phrasebook.Fluent.Syntax
import Phrasebook.Fluent.Value

/-!
Writing out a pattern. References are followed, variables are looked up and variants are chosen;
whatever is missing leaves its name in braces, and a note about it. Every reference stands in a
placeable, and no text has more than `maxPlaceables` of them, which bounds how deep references go.
-/

namespace Phrasebook.Fluent

def maxPlaceables : Nat := 100

/-- What a reference asks for. -/
inductive Reference where
  | message (id : String) (attribute? : Option String)
  | term (id : String) (attribute? : Option String)
  | variable (name : String)
  | function (name : String)
  deriving DecidableEq, Repr

/-- How a reference is shown in place of what is missing. -/
def Reference.text : Reference → String
  | .message id none => id
  | .message id (some a) => id ++ "." ++ a
  | .term id none => "-" ++ id
  | .term id (some a) => "-" ++ id ++ "." ++ a
  | .variable name => "$" ++ name
  | .function name => name ++ "()"

inductive Problem where
  | unknown (r : Reference)
  | noValue (id : String)
  | cyclic
  | tooManyPlaceables
  | missingDefault
  deriving DecidableEq, Repr

def Problem.message : Problem → String
  | unknown (.message id none) => "Resolver error: Unknown message: " ++ id
  | unknown (.message id (some a)) => "Resolver error: Unknown attribute: " ++ id ++ "." ++ a
  | unknown (.term id none) => "Resolver error: Unknown term: -" ++ id
  | unknown (.term id (some a)) => "Resolver error: Unknown attribute: -" ++ id ++ "." ++ a
  | unknown (.variable name) => "Resolver error: Unknown variable: $" ++ name
  | unknown (.function name) => "Resolver error: Unknown function: " ++ name ++ "()"
  | noValue id => "Resolver error: No value: " ++ id
  | cyclic => "Resolver error: Cyclical dependency detected"
  | tooManyPlaceables => "Resolver error: Too many placeables"
  | missingDefault => "Resolver error: No default"

/-! ### Escapes in strings -/

def replacement : Char := Char.ofNat 0xFFFD

/-- The character of a code point in hex digits. -/
def ofHex (ds : List Char) : Char :=
  let value (c : Char) : Nat :=
    if c.isDigit then c.toNat - '0'.toNat else c.toLower.toNat - 'a'.toNat + 10
  let n := ds.foldl (fun n c => 16 * n + value c) 0
  if n.isValidChar then Char.ofNat n else replacement

/-- The character of an escape and what follows it, from after the backslash. -/
def escaped : List Char → Char × List Char
  | '\\' :: r => ('\\', r)
  | '"' :: r => ('"', r)
  | 'u' :: r => (ofHex (r.take 4), r.drop 4)
  | 'U' :: r => (ofHex (r.take 6), r.drop 6)
  | _ :: r => (replacement, r)
  | [] => (replacement, [])

/-- A string as it is written out; `fuel` is at least the length. -/
def unescape : Nat → List Char → List Char
  | 0, _ => []
  | _, [] => []
  | fuel + 1, '\\' :: r => (escaped r).1 :: unescape fuel (escaped r).2
  | fuel + 1, c :: r => c :: unescape fuel r

def unescaped (raw : String) : String :=
  String.ofList (unescape raw.toList.length raw.toList)

/-- The UTF-8 bytes of a character, each as a character. -/
def bytesAsChars (c : Char) : List Char :=
  (String.singleton c).toUTF8.data.toList.map fun b => Char.ofNat b.toNat

def unescapeBytes : Nat → List Char → List Char
  | 0, _ => []
  | _, [] => []
  | fuel + 1, '\\' :: r => (escaped r).1 :: unescapeBytes fuel (escaped r).2
  | fuel + 1, c :: r => bytesAsChars c ++ unescapeBytes fuel r

/-- A string as a value: from the first escape on, other characters fall apart into bytes. -/
def stringValue (raw : String) : String :=
  let cs := raw.toList
  let isPlain (c : Char) := c != '\\'
  String.ofList (cs.takeWhile isPlain ++ unescapeBytes cs.length (cs.dropWhile isPlain))

/-! ### Resolution -/

/-- What a text is resolved against. -/
structure Scope where
  entry? : String → Option Entry
  isolating : Bool
  language : Language
  arguments? : Option ArgumentSet

/-- The state of one resolution: placeables so far, whether it was stopped, the patterns being
written, the arguments of the term being written, and the problems found. -/
structure Progress where
  placeables : Nat := 0
  stopped : Bool := false
  travelled : List Pattern := []
  local? : Option ArgumentSet := none
  problems : List Problem := []

/-- A text in the making. -/
abbrev Write := StateM Progress String

namespace Write

def report (p : Problem) : StateM Progress Unit :=
  modify fun s => { s with problems := s.problems ++ [p] }

/-- The name in braces. -/
def inBraces (name : String) : String := "\x7b" ++ name ++ "\x7d"

/-- Notes that a reference leads nowhere. -/
def unknown (r : Reference) : Write := do
  report (.unknown r)
  return inBraces r.text

end Write

/-- The name of an operand in place of its text. Strings and numbers have none. -/
def Operand.name : Operand → String
  | .message id a => (Reference.message id a).text
  | .term id a _ => (Reference.term id a).text
  | .variable name => (Reference.variable name).text
  | .function name _ => (Reference.function name).text
  | _ => ""

def Expression.name : Expression → String
  | .inline (.nested (.inline o)) => o.name
  | .inline (.nested (.select o _)) => o.name
  | .inline o => o.name
  | .select o _ => o.name

/-- Whether an expression in a longer pattern is put between isolation marks. -/
def Expression.isIsolated : Expression → Bool
  | .inline (.message ..) => false
  | .inline (.term ..) => false
  | .inline (.string _) => false
  | _ => true

def firstStrongIsolate : String := "\u2068"

def popDirectionalIsolate : String := "\u2069"

/-- Whether a variant's key fits the selector. -/
def VariantKey.fits (language : Language) : VariantKey → Value → Bool
  | .name id, .string s => id == s
  | .name id, .number n =>
    match PluralCategory.ofKeyword? id with
    | some c => Plural.category language n.operands == c
    | none => false
  | .number spelling, .number n => (Number.ofSpelling spelling).same n
  | _, _ => false

/-- How a pattern that a reference leads to is written; the name stands in for it if it is being
written already. -/
abbrev Follow := Pattern → String → Write

mutual

/-- The elements of a pattern; `whole` is the pattern itself. -/
def writeElements (scope : Scope) (follow : Follow) (whole : Pattern) : List Element → Write
  | [] => return ""
  | .text value :: rest => do
    if (← get).stopped then return ""
    return value ++ (← writeElements scope follow whole rest)
  | .placeable content :: rest => do
    if (← get).stopped then return ""
    modify fun s => { s with placeables := s.placeables + 1 }
    if (← get).placeables > maxPlaceables then
      modify fun s => { s with stopped := true }
      Write.report .tooManyPlaceables
      return ""
    modify fun s => if s.travelled.isEmpty then { s with travelled := [whole] } else s
    let text ← writeExpression scope follow content
    let text := if (← get).stopped then text ++ Write.inBraces content.name else text
    let text :=
      if scope.isolating && whole.length > 1 && content.isIsolated then
        firstStrongIsolate ++ text ++ popDirectionalIsolate
      else text
    return text ++ (← writeElements scope follow whole rest)

def writeExpression (scope : Scope) (follow : Follow) : Expression → Write
  | .inline operand => writeOperand scope follow operand
  | .select selector variants => do
    let value ← valueOf scope follow selector
    match ← writeFitting scope follow value variants with
    | some text => return text
    | none =>
      match ← writeDefault scope follow variants with
      | some text => return text
      | none =>
        Write.report .missingDefault
        return ""

/-- The first variant whose key fits. -/
def writeFitting (scope : Scope) (follow : Follow) (value : Value) :
    List Variant → StateM Progress (Option String)
  | [] => return none
  | .mk key _ pattern :: rest => do
    if key.fits scope.language value then
      return some (← writeElements scope follow pattern pattern)
    else writeFitting scope follow value rest

def writeDefault (scope : Scope) (follow : Follow) :
    List Variant → StateM Progress (Option String)
  | [] => return none
  | .mk _ isDefault pattern :: rest => do
    if isDefault then return some (← writeElements scope follow pattern pattern)
    else writeDefault scope follow rest

def writeOperand (scope : Scope) (follow : Follow) : Operand → Write
  | .string raw => return unescaped raw
  | .number spelling => return (Number.ofSpelling spelling).text
  | .variable name => do
    match (← get).local? with
    | some args =>
      match args.get? name with
      | some value => return value.text
      | none => return Write.inBraces (Reference.variable name).text
    | none =>
      match scope.arguments?.bind (·.get? name) with
      | some value => return value.text
      | none => Write.unknown (.variable name)
  | .message id attribute? => do
    let r := Reference.message id attribute?
    match (scope.entry? id).filter (·.isMessage) with
    | none => Write.unknown r
    | some e =>
      match attribute? with
      | some a =>
        match e.attribute? a with
        | some pattern => follow pattern r.text
        | none => Write.unknown r
      | none =>
        match e.value? with
        | some pattern => follow pattern r.text
        | none =>
          Write.report (.noValue id)
          return Write.inBraces r.text
  | .term id attribute? arguments? => do
    let r := Reference.term id attribute?
    let args ← match arguments? with
      | some args => argumentsOf scope follow args
      | none => pure []
    modify fun s => { s with local? := some args }
    let pattern? := ((scope.entry? id).filter (!·.isMessage)).bind fun e =>
      match attribute? with
      | some a => e.attribute? a
      | none => e.value?
    let text ← match pattern? with
      | some pattern => follow pattern r.text
      | none => Write.unknown r
    modify fun s => { s with local? := none }
    return text
  | .function name arguments => do
    let _ ← argumentsOf scope follow arguments
    Write.unknown (.function name)
  | .nested content => writeExpression scope follow content

/-- An operand as a value. A variable or function that is not there is an error value. -/
def valueOf (scope : Scope) (follow : Follow) : Operand → StateM Progress Value
  | .string raw => return .string (stringValue raw)
  | .number spelling => return .number (.ofSpelling spelling)
  | .variable name => do
    match (← get).local? with
    | some args => return (args.get? name).getD .error
    | none =>
      match scope.arguments?.bind (·.get? name) with
      | some value => return value
      | none =>
        Write.report (.unknown (.variable name))
        return .error
  | .function _ arguments => do
    let _ ← argumentsOf scope follow arguments
    return .error
  | .message id attribute? => return .string (← writeOperand scope follow (.message id attribute?))
  | .term id attribute? arguments? =>
    return .string (← writeOperand scope follow (.term id attribute? arguments?))
  | .nested content => return .string (← writeExpression scope follow content)

/-- The named arguments of a call, after those without a name. -/
def argumentsOf (scope : Scope) (follow : Follow) : Arguments → StateM Progress ArgumentSet
  | .mk positional named => do
    valuesOf scope follow positional
    namedValuesOf scope follow named

def valuesOf (scope : Scope) (follow : Follow) : List Operand → StateM Progress Unit
  | [] => return ()
  | o :: os => do
    let _ ← valueOf scope follow o
    valuesOf scope follow os

def namedValuesOf (scope : Scope) (follow : Follow) :
    List NamedArgument → StateM Progress ArgumentSet
  | [] => return []
  | .mk name o :: rest => do
    let value ← valueOf scope follow o
    return (name, value) :: (← namedValuesOf scope follow rest)

end

/-- Follows references at most `depth` deep. -/
def followWithin (scope : Scope) : Nat → Follow
  | 0 => fun _ _ => return ""
  | depth + 1 => fun pattern name => do
    if (← get).travelled.any (samePattern pattern) then
      Write.report .cyclic
      return Write.inBraces name
    else
      modify fun s => { s with travelled := pattern :: s.travelled }
      let text ← writeElements scope (followWithin scope depth) pattern pattern
      modify fun s => { s with travelled := s.travelled.drop 1 }
      return text

/-- A pattern as text, with the problems in the order in which they were met. -/
def format (scope : Scope) (pattern : Pattern) : String × List Problem :=
  let (text, s) :=
    (writeElements scope (followWithin scope maxPlaceables) pattern pattern).run {}
  (text, s.problems)

end Phrasebook.Fluent
