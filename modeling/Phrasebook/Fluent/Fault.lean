import Phrasebook.Text.Quoted

/-!
What can be wrong with a Fluent document, and how a fault is shown. Places are byte offsets.
-/

namespace Phrasebook.Fluent

inductive FaultKind where
  | expectedToken (c : Char)
  | expectedCharRange (range : String)
  | expectedMessageField (id : String)
  | expectedTermField (id : String)
  | forbiddenCallee
  | missingDefaultVariant
  | missingValue
  | multipleDefaultVariants
  | messageReferenceAsSelector
  | messageAttributeAsSelector
  | termReferenceAsSelector
  | termAttributeAsPlaceable
  | unterminatedStringLiteral
  | positionalArgumentFollowsNamed
  | duplicatedNamedArgument (name : String)
  | unknownEscapeSequence (byte : Nat)
  | invalidUnicodeEscapeSequence (digits : String)
  | unbalancedClosingBrace
  | expectedInlineExpression
  | expectedSimpleExpressionAsSelector
  | expectedLiteral
  deriving DecidableEq, Repr

/-- A half-open range of byte offsets. -/
structure Span where
  start : Nat
  stop : Nat
  deriving DecidableEq, Repr

/-- A fault at `place`; `junk` is the stretch of text that was given up for it. -/
structure Fault where
  kind : FaultKind
  place : Span
  junk : Span
  deriving DecidableEq, Repr

open Text

def FaultKind.text : FaultKind → String
  | expectedToken c => "ExpectedToken(" ++ quotedChar c ++ ")"
  | expectedCharRange r => "ExpectedCharRange \x7b range: " ++ quoted r ++ " \x7d"
  | expectedMessageField id => "ExpectedMessageField \x7b entry_id: " ++ quoted id ++ " \x7d"
  | expectedTermField id => "ExpectedTermField \x7b entry_id: " ++ quoted id ++ " \x7d"
  | forbiddenCallee => "ForbiddenCallee"
  | missingDefaultVariant => "MissingDefaultVariant"
  | missingValue => "MissingValue"
  | multipleDefaultVariants => "MultipleDefaultVariants"
  | messageReferenceAsSelector => "MessageReferenceAsSelector"
  | messageAttributeAsSelector => "MessageAttributeAsSelector"
  | termReferenceAsSelector => "TermReferenceAsSelector"
  | termAttributeAsPlaceable => "TermAttributeAsPlaceable"
  | unterminatedStringLiteral => "UnterminatedStringLiteral"
  | positionalArgumentFollowsNamed => "PositionalArgumentFollowsNamed"
  | duplicatedNamedArgument n => "DuplicatedNamedArgument(" ++ quoted n ++ ")"
  | unknownEscapeSequence b => "UnknownEscapeSequence(" ++ quoted (toString b) ++ ")"
  | invalidUnicodeEscapeSequence d => "InvalidUnicodeEscapeSequence(" ++ quoted d ++ ")"
  | unbalancedClosingBrace => "UnbalancedClosingBrace"
  | expectedInlineExpression => "ExpectedInlineExpression"
  | expectedSimpleExpressionAsSelector => "ExpectedSimpleExpressionAsSelector"
  | expectedLiteral => "ExpectedLiteral"

def Span.text (s : Span) : String := toString s.start ++ ".." ++ toString s.stop

def Fault.text (f : Fault) : String :=
  "ParserError \x7b pos: " ++ f.place.text ++ ", slice: Some(" ++ f.junk.text ++ "), kind: " ++
    f.kind.text ++ " \x7d"

/-- The faults of a document, in the order of its text. -/
def faultsText (fs : List Fault) : String := bracketed (fs.map Fault.text)

end Phrasebook.Fluent
