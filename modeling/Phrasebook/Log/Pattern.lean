/-!
Patterns for the values of fields. Which texts are patterns and what these stand for is left open:
filters are read and used in any language of patterns.
-/

namespace Phrasebook.Log

/-- Why a text is no pattern. -/
structure PatternFault where
  message : String
  /-- The reasons behind the fault, the nearest first. -/
  causes : List String
  deriving DecidableEq, Repr

/-- A language of patterns: the texts that a pattern stands for. -/
class Patterns where
  read : String → Except PatternFault (String → Bool)

namespace Patterns

/-- What has a meaning of its own in patterns of most languages. -/
def specialChars : List Char :=
  ['\\', '.', '+', '*', '?', '(', ')', '|', '[', ']', '{', '\x7d', '^', '$']

/-- Only texts without such characters are patterns, each for itself. -/
@[reducible] def literal : Patterns where
  read pattern :=
    if pattern.toList.any specialChars.contains then .error ⟨"not a plain text", []⟩
    else .ok (pattern == ·)

end Patterns
end Phrasebook.Log
