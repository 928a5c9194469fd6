import Phrasebook.Catalog
import Phrasebook.Localizer

/-!
Choice of the locale to answer in: the first requested one that has documents, else the default if
it has, else none.
-/

namespace Phrasebook

structure Negotiator where
  fallback : Locale
  isolating : Bool

namespace Negotiation

def target : String := "tessera_i18n::negotiate"

/-- The first of the requested locales and the default one that has documents. -/
def choose? (c : Catalog) (requested : List String) (fallback : String) : Option Locale :=
  match requested.find? c.supports with
  | some name => some ⟨name⟩
  | none => if c.supports fallback then some ⟨fallback⟩ else none

def noneEvent (requested : List String) (fallback : String) : Event where
  level := .debug
  target := target
  message := "No supported locale"
  fields := [("requested", .text (Text.bracketed (requested.map Text.quoted))),
    ("default_locale", .text fallback)]
  spans := []

/-- The chosen locale, as a list of at most one. -/
def selectLocales (c : Catalog) (requested : List String) (fallback : String) :
    Logged (List Locale) :=
  match choose? c requested fallback with
  | some l => pure [l]
  | none => ⟨[], [noneEvent requested fallback]⟩

end Negotiation

namespace Negotiator

/-- Without a locale of its own a negotiator falls back on the usual one. -/
def standard : Negotiator := ⟨Locale.fallback, true⟩

def select (n : Negotiator) (c : Catalog) (requested : List String) : Logged (List Locale) :=
  Negotiation.selectLocales c requested n.fallback.name

/-- A bundle for each locale that has documents. -/
def bundlesFor (n : Negotiator) (c : Catalog) : List Locale → Logged (List Bundle)
  | [] => pure []
  | l :: ls =>
    match c.get? l.name with
    | none => n.bundlesFor c ls
    | some documents => do
      let b ← Bundle.ofDocuments l documents n.isolating
      let bs ← n.bundlesFor c ls
      return b :: bs

def doneEvent (bs : List Bundle) : Event where
  level := .info
  target := Negotiation.target
  message := "Negotiated translation bundles"
  fields := [("selected", .text (Text.bracketed (bs.map fun b => Text.quoted b.locale.name)))]
  spans := []

/-- The bundles to answer from. -/
def negotiate (n : Negotiator) (c : Catalog) (requested : List String) :
    Logged (List Bundle) := do
  let bs ← n.bundlesFor c (← n.select c requested)
  Logged.emit (doneEvent bs)
  return bs

end Negotiator
end Phrasebook
