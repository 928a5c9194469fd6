/-!
Places in a YAML text, what can be wrong with it, and how a fault is told.
-/

namespace Phrasebook.Yaml

/-- A place, counted in characters from zero. -/
structure Mark where
  index : Nat
  line : Nat
  column : Nat
  deriving DecidableEq, Repr, Inhabited

/-- The start of the text is not told as a place. -/
def Mark.isStart (m : Mark) : Bool := m.line == 0 && m.column == 0

def Mark.text (m : Mark) : String :=
  "line " ++ toString (m.line + 1) ++ " column " ++ toString (m.column + 1)

/-- The place with the word before it, or nothing at the start of the text. -/
def Mark.at (m : Mark) : String := if m.isStart then "" else " at " ++ m.text

inductive Problem where
  | controlCharacter
  | cannotStartToken
  | missingColon
  | entryNotAllowed
  | keyNotAllowed
  | valueNotAllowed
  | unknownDirective
  | missingDirectiveName
  | badDirectiveName
  | expectedLineEnd
  | expectedDigitOrPoint
  | longVersion
  | missingVersion
  | expectedBlank
  | expectedBlankOrLineEnd
  | expectedAlphanumeric
  | expectedBang
  | expectedTagEnd
  | expectedTagUri
  | badUriEscape
  | badLeadingOctet
  | badTrailingOctet
  | zeroIndentation
  | tabInIndentation
  | documentMarkInQuotes
  | endInQuotes
  | unknownEscape
  | expectedHexDigit
  | badCodePoint
  | unexpectedColon
  | tabViolatesIndentation
  | expectedDocumentStart
  | duplicateVersion
  | incompatibleVersion
  | duplicateTagDirective
  | undefinedTagHandle
  | expectedNode
  | expectedDash
  | expectedKey
  | expectedSequenceEnd
  | expectedMappingEnd
  | unknownAnchor
  deriving DecidableEq, Repr

def Problem.text : Problem → String
  | controlCharacter => "control characters are not allowed"
  | cannotStartToken => "found character that cannot start any token"
  | missingColon => "could not find expected ':'"
  | entryNotAllowed => "block sequence entries are not allowed in this context"
  | keyNotAllowed => "mapping keys are not allowed in this context"
  | valueNotAllowed => "mapping values are not allowed in this context"
  | unknownDirective => "found unknown directive name"
  | missingDirectiveName => "could not find expected directive name"
  | badDirectiveName => "found unexpected non-alphabetical character"
  | expectedLineEnd => "did not find expected comment or line break"
  | expectedDigitOrPoint => "did not find expected digit or '.' character"
  | longVersion => "found extremely long version number"
  | missingVersion => "did not find expected version number"
  | expectedBlank => "did not find expected whitespace"
  | expectedBlankOrLineEnd => "did not find expected whitespace or line break"
  | expectedAlphanumeric => "did not find expected alphabetic or numeric character"
  | expectedBang => "did not find expected '!'"
  | expectedTagEnd => "did not find the expected '>'"
  | expectedTagUri => "did not find expected tag URI"
  | badUriEscape => "did not find URI escaped octet"
  | badLeadingOctet => "found an incorrect leading UTF-8 octet"
  | badTrailingOctet => "found an incorrect trailing UTF-8 octet"
  | zeroIndentation => "found an indentation indicator equal to 0"
  | tabInIndentation => "found a tab character where an indentation space is expected"
  | documentMarkInQuotes => "found unexpected document indicator"
  | endInQuotes => "found unexpected end of stream"
  | unknownEscape => "found unknown escape character"
  | expectedHexDigit => "did not find expected hexdecimal number"
  | badCodePoint => "found invalid Unicode character escape code"
  | unexpectedColon => "found unexpected ':'"
  | tabViolatesIndentation => "found a tab character that violates indentation"
  | expectedDocumentStart => "did not find expected <document start>"
  | duplicateVersion => "found duplicate %YAML directive"
  | incompatibleVersion => "found incompatible YAML document"
  | duplicateTagDirective => "found duplicate %TAG directive"
  | undefinedTagHandle => "found undefined tag handle"
  | expectedNode => "did not find expected node content"
  | expectedDash => "did not find expected '-' indicator"
  | expectedKey => "did not find expected key"
  | expectedSequenceEnd => "did not find expected ',' or ']'"
  | expectedMappingEnd => "did not find expected ',' or '\x7d'"
  | unknownAnchor => "unknown anchor"

/-- What was being read. -/
inductive Activity where
  | nextToken
  | simpleKey
  | directive
  | versionDirective
  | tagDirective
  | tagDirectiveBang
  | tagDirectiveHandle
  | anchor
  | aliasName
  | tag
  | tagUri
  | tagDirectiveUri
  | blockScalar
  | quotedScalar
  | quotedEscape
  | plainScalar
  | node
  | blockNode
  | flowNode
  | blockCollection
  | blockMapping
  | flowSequence
  | flowMapping
  deriving DecidableEq, Repr

def Activity.text : Activity → String
  | nextToken => "while scanning for the next token"
  | simpleKey => "while scanning a simple key"
  | directive => "while scanning a directive"
  | versionDirective => "while scanning a %YAML directive"
  | tagDirective => "while scanning a %TAG directive"
  | tagDirectiveBang => "while scanning a tag directive"
  | tagDirectiveHandle => "while parsing a tag directive"
  | anchor => "while scanning an anchor"
  | aliasName => "while scanning an alias"
  | tag => "while scanning a tag"
  | tagUri => "while parsing a tag"
  | tagDirectiveUri => "while parsing a %TAG directive"
  | blockScalar => "while scanning a block scalar"
  | quotedScalar => "while scanning a quoted scalar"
  | quotedEscape => "while parsing a quoted scalar"
  | plainScalar => "while scanning a plain scalar"
  | node => "while parsing a node"
  | blockNode => "while parsing a block node"
  | flowNode => "while parsing a flow node"
  | blockCollection => "while parsing a block collection"
  | blockMapping => "while parsing a block mapping"
  | flowSequence => "while parsing a flow sequence"
  | flowMapping => "while parsing a flow mapping"

/-- A mark, or a byte offset where marks are not known yet. -/
inductive Place where
  | mark (m : Mark)
  | offset (n : Nat)
  deriving DecidableEq, Repr

structure Fault where
  problem : Problem
  place : Place
  /-- What was being read, and where that began. -/
  context? : Option (Activity × Mark)
  deriving DecidableEq, Repr

def Place.at : Place → String
  | mark m => m.at
  | offset 0 => ""
  | offset n => " at position " ++ toString n

/-- The beginning is not told where it is the place of the problem. -/
def Fault.contextText (f : Fault) : String :=
  match f.context? with
  | none => ""
  | some (a, start) =>
    let isElsewhere := match f.place with
      | .mark m => start.line != m.line || start.column != m.column
      | .offset _ => true
    ", " ++ a.text ++ if isElsewhere then start.at else ""

def Fault.message (f : Fault) : String := f.problem.text ++ f.place.at ++ f.contextText

end Phrasebook.Yaml
