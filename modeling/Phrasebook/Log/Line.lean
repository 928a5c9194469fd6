import Phrasebook.Json.Basic
import Phrasebook.Log.Setup

/-!
Events written down, each with its time on a line of its own.
-/

namespace Phrasebook.Log

def valueJson : FieldValue → Json
  | .text s => .string s
  | .count n => .number (.natural n)

def fieldsJson (fs : Fields) : List (String × Json) := fs.map fun f => (f.1, valueJson f.2)

def spanJson (s : Span) : Json := .object (fieldsJson s.fields ++ [("name", .string s.name)])

/-- The activities under way, if any: the innermost one, and all of them. -/
def spansJson (spans : List Span) : List (String × Json) :=
  match spans.getLast? with
  | none => []
  | some s => [("span", spanJson s), ("spans", .array (spans.map spanJson))]

def eventJson (time : String) (e : Event) : Json :=
  .object ([("timestamp", .string time), ("level", .string e.level.text),
    ("fields", .object (("message", .string e.message) :: fieldsJson e.fields)),
    ("target", .string e.target)] ++ spansJson e.spans)

def valueText : FieldValue → String
  | .text s => s
  | .count n => toString n

def fieldsText (fs : Fields) : String :=
  String.join (fs.map fun f => " " ++ f.1 ++ "=" ++ valueText f.2)

/-- Levels are written in five columns. The names of activities come before the event, their fields
behind it. -/
def eventText (time : String) (e : Event) : String :=
  time ++ " " ++ "".pushn ' ' (5 - e.level.text.length) ++ e.level.text ++ " " ++
    (if e.spans.isEmpty then "" else String.join (e.spans.map fun s => s.name ++ ":") ++ " ") ++
    e.target ++ ": " ++ e.message ++ fieldsText e.fields ++
    String.join (e.spans.map fun s => fieldsText s.fields)

def line (form : Form) (time : String) (e : Event) : String :=
  (match form with
    | .json => (eventJson time e).text
    | .compact | .pretty => eventText time e) ++ "\n"

def lines (form : Form) (time : String) (events : List Event) : String :=
  String.join (events.map (line form time))

end Phrasebook.Log
