/-!
The environment that the program runs in, apart from files.
-/

namespace Phrasebook

/-- Variables by name. -/
abbrev Environment := String → Option String

/-- Of pairs with the same name the first one counts. -/
def Environment.ofList (pairs : List (String × String)) : Environment :=
  fun name => pairs.lookup name

end Phrasebook
