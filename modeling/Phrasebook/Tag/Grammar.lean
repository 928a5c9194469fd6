import Phrasebook.Event
import Phrasebook.Tag.Token

/-!
Tokens that users may write: with a key, and free of the words and signs of the query language.
-/

namespace Phrasebook

inductive TagError where
  | invalid (expression : String)
  | reserved (key : String)
  deriving DecidableEq, Repr

def TagError.message : TagError → String
  | invalid e => "parse failed: '" ++ e ++ "' is not a valid tag"
  | reserved k => "parse failed: key '" ++ k ++ "' is reserved"

/-- Whether `part` stands somewhere in a text. -/
def occursIn (part : List Char) : List Char → Bool
  | [] => part.isEmpty
  | c :: r => part.isPrefixOf (c :: r) || occursIn part r

namespace Tag

def target : String := "tessera_tags::tag"

/-- Signs of the query language. -/
def querySigns : List Char := [';', '(', ')']

/-- Words of the query language; they count inside other words too. -/
def queryWords : List String := ["AND", "OR"]

def rejected (message field text : String) : Event where
  level := .debug
  target := target
  message := message
  fields := [(field, .text text)]
  spans := []

/-- A tag with a key, from an expression without signs and words of queries. -/
def parse (expression : String) : Logged (Except TagError Tag) :=
  let cs := expression.toList
  if cs.any querySigns.contains then pure (.error (.invalid expression))
  else if queryWords.any fun w => occursIn w.toList cs then pure (.error (.invalid expression))
  else
    let t := split expression
    if t.key.isEmpty then
      ⟨.error (.invalid expression), [rejected "Rejected tag with empty key" "expr" expression]⟩
    else pure (.ok t)

/-- As `parse`, and the key must not belong to the system. -/
def parsePublic (expression : String) : Logged (Except TagError Tag) := do
  match ← parse expression with
  | .error e => return .error e
  | .ok t =>
    if t.isSystem then
      Logged.emit (rejected "Rejected system tag key in user input" "key" t.key)
      return .error (.reserved t.key)
    else return .ok t

end Tag
end Phrasebook
