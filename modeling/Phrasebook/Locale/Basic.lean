import Phrasebook.Text.Blank

/-!
Locale names and the list of them in an `Accept-Language` header. A locale name is any text; names
are compared letter by letter.
-/

namespace Phrasebook

/-- A locale as it is named by a directory, a setting or a request. -/
structure Locale where
  name : String
  deriving DecidableEq, Repr, Inhabited

namespace Locale

instance : Ord Locale := ⟨fun a b => compare a.name b.name⟩

/-- The locale used where no other is set. -/
def fallback : Locale := ⟨"en"⟩

end Locale

/-- The pieces of a text between separators; there is always one. -/
def splitAt (isSeparator : Char → Bool) : List Char → List (List Char)
  | [] => [[]]
  | c :: r =>
    match splitAt isSeparator r with
    | [] => [[c]]
    | piece :: pieces => if isSeparator c then [] :: piece :: pieces else (c :: piece) :: pieces

/-- The locale of one entry of a header: what stands before the weight, without blanks around. -/
def headerEntry (entry : List Char) : String :=
  String.ofList (Text.trim (entry.takeWhile (· != ';')))

/-- The locales of a header in its order. Weights are ignored, and so are entries without locale. -/
def languageHeader (value : String) : List String :=
  ((splitAt (· == ',') value.toList).map headerEntry).filter (!·.isEmpty)

end Phrasebook
