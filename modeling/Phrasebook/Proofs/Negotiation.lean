import Mathlib.Data.List.Forall2
import Phrasebook.Negotiation
import Phrasebook.Proofs.Catalog
import Phrasebook.Proofs.FirstEntry

/-!
From a catalog to a text. At most one locale is chosen, the first that is supported of those
requested and the default; its bundle is built from all its documents; and the text of a key is that
of the first bundle which has one, else the key itself.
-/

namespace Phrasebook

namespace Negotiation

theorem choose?_eq (c : Catalog) (requested : List String) (fallback : String) :
    choose? c requested fallback =
      ((requested ++ [fallback]).find? c.supports).map Locale.mk := by
  rw [choose?, List.find?_append]
  cases requested.find? c.supports with
  | some name => rfl
  | none =>
    by_cases supported : c.supports fallback = true <;> simp [supported]

theorem supports_of_choose? {c : Catalog} {requested : List String} {fallback : String}
    {l : Locale} (chosen : choose? c requested fallback = some l) : c.supports l.name = true := by
  rw [choose?_eq] at chosen
  obtain ⟨name, found, rfl⟩ := Option.map_eq_some_iff.mp chosen
  exact List.find?_some found

theorem selectLocales_value (c : Catalog) (requested : List String) (fallback : String) :
    (selectLocales c requested fallback).value = (choose? c requested fallback).toList := by
  unfold selectLocales
  cases choose? c requested fallback <;> rfl

end Negotiation

namespace Negotiator

open Negotiation

theorem bundlesFor_value (n : Negotiator) (c : Catalog) {ls : List Locale}
    (supported : ∀ l ∈ ls, c.supports l.name = true) :
    (n.bundlesFor c ls).value =
      ls.map fun l => (Bundle.ofDocuments l (c.documentsOf l.name) n.isolating).value := by
  induction ls with
  | nil => rfl
  | cons l ls ih =>
    have found := Catalog.get?_of_supports (supported l List.mem_cons_self)
    have rest := ih fun m member => supported m (List.mem_cons_of_mem l member)
    rw [bundlesFor, found, List.map_cons, ← rest]
    rfl

/-- The bundle of the chosen locale, if there is one. -/
theorem negotiate_value (n : Negotiator) (c : Catalog) (requested : List String) :
    (n.negotiate c requested).value =
      (choose? c requested n.fallback.name).toList.map fun l =>
        (Bundle.ofDocuments l (c.documentsOf l.name) n.isolating).value := by
  have built : (n.negotiate c requested).value =
      (n.bundlesFor c (n.select c requested).value).value := rfl
  have selected : (n.select c requested).value =
      (choose? c requested n.fallback.name).toList := selectLocales_value _ _ _
  rw [built, selected, bundlesFor_value]
  intro l member
  exact supports_of_choose? (Option.mem_toList.mp member)

/-- At most one locale is chosen: of those requested and the default the first that has documents.
Each chosen locale gets a bundle, which has all documents of the locale as its sources and answers
every key like a bundle of these documents. -/
theorem negotiate_complete (c : Catalog) (requested : List String) (n : Negotiator) :
    (∀ fallback, (selectLocales c requested fallback).value =
      (((requested ++ [fallback]).find? c.supports).map Locale.mk).toList) ∧
    List.Forall₂
      (fun l b => b.locale = l ∧ ∃ documents, c.get? l.name = some documents ∧
        b.sources = documents.map (·.path) ∧ ∀ key args?, b.format key args? =
          (Bundle.ofDocuments l documents n.isolating).value.format key args?)
      (selectLocales c requested n.fallback.name).value (n.negotiate c requested).value := by
  constructor
  · intro fallback
    rw [selectLocales_value, choose?_eq]
  · rw [selectLocales_value, negotiate_value, List.forall₂_map_right_iff, List.forall₂_same]
    intro l member
    have found := Catalog.get?_of_supports (supports_of_choose? (Option.mem_toList.mp member))
    refine ⟨?_, _, found, ?_, fun _ _ => rfl⟩
    · rw [Bundle.ofDocuments_value]
    · rw [Bundle.ofDocuments_value]

end Negotiator

namespace Localizer

open Fluent

theorem search_value (key : String) (args? : Option ArgumentSet) (bs : List Bundle) :
    (search key args? bs).value = bs.findSome? fun b => (b.format key args?).value := by
  induction bs with
  | nil => rfl
  | cons b bs ih =>
    rw [search, Logged.bind_value, List.findSome?_cons]
    cases (b.format key args?).value with
    | none => exact ih
    | some text => rfl

theorem localize_value (l : Localizer) (key : String) (args? : Option ArgumentSet) :
    (l.localize key args?).value =
      (l.bundles.findSome? fun b => (b.format key args?).value).getD key := by
  rw [localize, Logged.bind_value, search_value]
  cases l.bundles.findSome? fun b => (b.format key args?).value <;> rfl

end Localizer

end Phrasebook
