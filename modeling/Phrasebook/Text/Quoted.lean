import Phrasebook.Text.Printable

/-!
Text between quotation marks with escapes, as it is shown in messages about values.
-/

namespace Phrasebook.Text

/-- The digits of a number in base sixteen, small letters. -/
def hexDigits (n : Nat) : List Char := Nat.toDigits 16 n

/-- How one character is written inside quotation marks; `mark` is the mark to be escaped. -/
def escapeChar (mark : Char → Bool) (c : Char) : List Char :=
  if c = '\x00' then ['\\', '0']
  else if c = '\t' then ['\\', 't']
  else if c = '\r' then ['\\', 'r']
  else if c = '\n' then ['\\', 'n']
  else if c = '\\' || mark c then ['\\', c]
  else if isPrintable c then [c]
  else ['\\', 'u', '\x7b'] ++ hexDigits c.toNat ++ ['\x7d']

/-- A text in double quotes. -/
def quoted (s : String) : String :=
  String.ofList ('"' :: s.toList.flatMap (escapeChar (· = '"')) ++ ['"'])

/-- A path in double quotes; here both quotation marks are escaped. -/
def quotedPath (s : String) : String :=
  String.ofList ('"' :: s.toList.flatMap (escapeChar fun c => c = '"' || c = '\'') ++ ['"'])

/-- A character in single quotes. -/
def quotedChar (c : Char) : String :=
  String.ofList ('\'' :: escapeChar (· = '\'') c ++ ['\''])

/-- A list in brackets, its items as given. -/
def bracketed (items : List String) : String :=
  "[" ++ ", ".intercalate items ++ "]"

end Phrasebook.Text
