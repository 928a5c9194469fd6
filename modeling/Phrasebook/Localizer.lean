import Phrasebook.Bundle

/-!
Look-up of a key in bundles, one after another.
-/

namespace Phrasebook

structure Localizer where
  bundles : List Bundle

namespace Localizer

def target : String := "tessera_i18n::localizer"

def locales (l : Localizer) : List Locale := l.bundles.map (·.locale)

/-- The text of the first bundle that has one. -/
def search (key : String) (args? : Option Fluent.ArgumentSet) :
    List Bundle → Logged (Option String)
  | [] => pure none
  | b :: bs => do
    match ← b.format key args? with
    | some text => return some text
    | none => search key args? bs

def missingEvent (l : Localizer) (key : String) : Event where
  level := .warn
  target := target
  message := "Missing translation, using raw key"
  fields := [("key", .text key),
    ("locales", .text (Text.bracketed (l.locales.map Locale.shown)))]
  spans := []

/-- The text of a key; a key that no bundle has stands for itself. -/
def localize (l : Localizer) (key : String) (args? : Option Fluent.ArgumentSet) :
    Logged String := do
  match ← search key args? l.bundles with
  | some text => return text
  | none =>
    Logged.emit (l.missingEvent key)
    return key

def hasMessage (l : Localizer) (key : String) : Bool := l.bundles.any (·.hasMessage key)

def isEmpty (l : Localizer) : Bool := l.bundles.isEmpty

end Localizer
end Phrasebook
