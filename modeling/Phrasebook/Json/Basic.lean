import Phrasebook.Decimal.Compact

/-!
JSON values, and their text without blanks.
-/

namespace Phrasebook

namespace Json

/-- Whole numbers that fit a word keep their value, all others are doubles. -/
inductive Number where
  | natural (n : Nat)
  /-- The number `-n`. -/
  | negative (n : Nat)
  | float (x : Float)

def Number.text : Number → String
  | natural n => toString n
  | negative n => "-" ++ toString n
  | float x => Decimal.compact x

end Json

/-- Members of an object keep their order, and a name may occur twice. -/
inductive Json where
  | null
  | bool (b : Bool)
  | number (n : Json.Number)
  | string (s : String)
  | array (items : List Json)
  | object (members : List (String × Json))

namespace Json

instance : Inhabited Json := ⟨null⟩

/-- A code unit as four small hex digits. -/
def hexUnit (n : Nat) : List Char :=
  let ds := Nat.toDigits 16 n
  List.replicate (4 - ds.length) '0' ++ ds

/-- How a character is written in a string: only quotation mark, backslash and control characters
are escaped. -/
def escapeChar (c : Char) : List Char :=
  if c = '"' then ['\\', '"']
  else if c = '\\' then ['\\', '\\']
  else if c = '\n' then ['\\', 'n']
  else if c = '\r' then ['\\', 'r']
  else if c = '\t' then ['\\', 't']
  else if c.toNat = 8 then ['\\', 'b']
  else if c.toNat = 12 then ['\\', 'f']
  else if c.toNat < 32 then '\\' :: 'u' :: hexUnit c.toNat
  else [c]

def stringText (s : String) : String :=
  String.ofList ('"' :: s.toList.flatMap escapeChar ++ ['"'])

mutual

def text : Json → String
  | null => "null"
  | bool true => "true"
  | bool false => "false"
  | number n => n.text
  | string s => stringText s
  | array items => "[" ++ ",".intercalate (texts items) ++ "]"
  | object members => "\x7b" ++ ",".intercalate (memberTexts members) ++ "\x7d"

def texts : List Json → List String
  | [] => []
  | j :: js => j.text :: texts js

def memberTexts : List (String × Json) → List String
  | [] => []
  | (name, j) :: ms => (stringText name ++ ":" ++ j.text) :: memberTexts ms

end

/-- The first member of that name; `null` if there is none. -/
def field (j : Json) (name : String) : Json :=
  match j with
  | object members => ((members.find? (·.1 == name)).map (·.2)).getD null
  | _ => null

end Json
end Phrasebook
