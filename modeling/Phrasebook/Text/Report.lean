/-!
Reports of errors: a message, and under it the reasons, each one behind the one before.
-/

namespace Phrasebook.Text

/-- Lines after the first one get a margin. -/
def indented (margin text : String) : String :=
  String.ofList (text.toList.flatMap fun c => if c = '\n' then c :: margin.toList else [c])

/-- A number at the end of five columns. -/
def column (n : Nat) : String := String.ofList ((Nat.toDigits 10 n).leftpad 5 ' ')

/-- Reasons are numbered if there are several. -/
def report (message : String) : List String → String
  | [] => message
  | [reason] => message ++ "\n\nCaused by:\n    " ++ indented "    " reason
  | reasons =>
    message ++ "\n\nCaused by:" ++ String.join (reasons.zipIdx.map fun r =>
      "\n" ++ column r.2 ++ ": " ++ indented "       " r.1)

end Phrasebook.Text
