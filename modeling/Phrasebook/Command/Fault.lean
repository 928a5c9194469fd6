import Phrasebook.Document
import Phrasebook.Json.Fault
import Phrasebook.Tag.Grammar

/-!
Why a command has no output.
-/

namespace Phrasebook

inductive CommandError where
  | loading (cause : LoadError)
  | badTag (cause : TagError)
  | badRecord (cause : Json.Fault)
  /-- An argument of a message that is not written `name=value`. -/
  | badArgument (argument : String)

namespace CommandError

def message : CommandError → String
  | loading cause => "Translation error: " ++ cause.message
  | badTag cause => "Tag error: " ++ cause.message
  | badRecord cause => "Serialization error: " ++ cause.message
  | badArgument a => "Invalid message argument '" ++ a ++ "', expected name=value"

/-- The reasons behind an error, the nearest first. -/
def causes : CommandError → List String
  | loading cause => cause.message :: cause.causes
  | badTag cause => [cause.message]
  | badRecord cause => [cause.message]
  | badArgument _ => []

end CommandError
end Phrasebook
