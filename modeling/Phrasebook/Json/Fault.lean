import Phrasebook.Json.Basic
import Phrasebook.Text.Quoted

/-!
What can be wrong with a JSON text, or with its fit to a type. A fault has a place unless it
concerns the text as a whole.
-/

namespace Phrasebook.Json

/-- What a value is, in messages. -/
inductive Shape where
  | null
  | bool (b : Bool)
  | number (n : Number)
  | string (s : String)
  | array
  | object

def Shape.text : Shape → String
  | null => "null"
  | bool true => "boolean `true`"
  | bool false => "boolean `false`"
  | number (.float x) => "floating point `" ++ Decimal.compact x ++ "`"
  | number n => "integer `" ++ n.text ++ "`"
  | string s => "string " ++ Text.quoted s
  | array => "sequence"
  | object => "map"

inductive Cause where
  | endInValue
  | endInString
  | endInObject
  | endInList
  | expectedColon
  | expectedListEnd
  | expectedObjectEnd
  | expectedWord
  | expectedValue
  | expectedKey
  | invalidEscape
  | invalidNumber
  | numberOutOfRange
  | loneSurrogate
  | brokenSurrogate
  | controlCharacter
  | trailingCharacters
  | trailingComma
  | tooDeep
  | wrongType (got : Shape) (wanted : String)
  | missingField (name : String)
  | duplicateField (name : String)
  | wrongLength (length : Nat) (wanted : String)
  | noVariant (type : String)

def Cause.text : Cause → String
  | endInValue => "EOF while parsing a value"
  | endInString => "EOF while parsing a string"
  | endInObject => "EOF while parsing an object"
  | endInList => "EOF while parsing a list"
  | expectedColon => "expected `:`"
  | expectedListEnd => "expected `,` or `]`"
  | expectedObjectEnd => "expected `,` or `\x7d`"
  | expectedWord => "expected ident"
  | expectedValue => "expected value"
  | expectedKey => "key must be a string"
  | invalidEscape => "invalid escape"
  | invalidNumber => "invalid number"
  | numberOutOfRange => "number out of range"
  | loneSurrogate => "lone leading surrogate in hex escape"
  | brokenSurrogate => "unexpected end of hex escape"
  | controlCharacter => "control character (\\u0000-\\u001F) found while parsing a string"
  | trailingCharacters => "trailing characters"
  | trailingComma => "trailing comma"
  | tooDeep => "recursion limit exceeded"
  | wrongType got wanted => "invalid type: " ++ got.text ++ ", expected " ++ wanted
  | missingField name => "missing field `" ++ name ++ "`"
  | duplicateField name => "duplicate field `" ++ name ++ "`"
  | wrongLength n wanted => "invalid length " ++ toString n ++ ", expected " ++ wanted
  | noVariant type => "data did not match any variant of untagged enum " ++ type

/-- Line from one, and bytes from the start of the line. -/
structure Place where
  line : Nat
  column : Nat
  deriving DecidableEq, Repr

structure Fault where
  cause : Cause
  place? : Option Place

def Fault.message (f : Fault) : String :=
  match f.place? with
  | none => f.cause.text
  | some p =>
    f.cause.text ++ " at line " ++ toString p.line ++ " column " ++ toString p.column

end Phrasebook.Json
