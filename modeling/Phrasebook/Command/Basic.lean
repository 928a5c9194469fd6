/-!
What the program can be told to do.
-/

namespace Phrasebook

/-- Requested locales, the most preferred first: a list, or the header of a request. -/
structure Preferences where
  locales : List String
  header? : Option String
  deriving DecidableEq, Repr

inductive TagCommand where
  /-- The record of a token; with `strict`, of a token that users may write. -/
  | split (token : String) (strict : Bool)
  /-- The token of a key and a value. -/
  | concat (key : String) (value? : Option String)
  /-- The tags of users among tokens and records. -/
  | user (inputs : List String)
  deriving DecidableEq, Repr

inductive Command where
  /-- The locale to answer in. -/
  | negotiate (preferences : Preferences)
  /-- The text of a message. Arguments are written `name=value`. -/
  | localize (key : String) (arguments : List String) (preferences : Preferences)
  | tags (command : TagCommand)
  deriving DecidableEq, Repr

end Phrasebook
