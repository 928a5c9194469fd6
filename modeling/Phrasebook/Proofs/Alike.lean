import Mathlib.Data.List.Forall2
import Phrasebook.Localizer
import Phrasebook.Proofs.Layering
import Phrasebook.Proofs.Likeness

/-!
Bundles and localizers side by side. If the resolutions of two bundles are alike, so are their
answers; and localizers whose bundles answer alike do so too, the key standing for itself in both.
The simplest likeness is that texts are equal, and of a kind that all parts of documents belong to.
-/

namespace Phrasebook

open Fluent

/-! ### Equal texts of a kind -/

namespace Fluent

variable {σ : Scope} {P : String → Prop}

/-- What a part writes by itself is of the kind. -/
def Part.Has (P : String → Prop) : Part → Prop
  | text value => P value
  | string raw => P (unescaped raw) ∧ P (stringValue raw)
  | reference r => P (Write.inBraces r.text)
  | selector _ | given .. => True

/-- A kind of texts that writing does not leave. -/
structure Scope.Keeps (σ : Scope) (P : String → Prop) : Prop where
  empty : P ""
  append : ∀ {s t}, P s → P t → P (s ++ t)
  isolate : ∀ {s}, P s → P (σ.isolate s)
  braces : P (Write.inBraces "")
  number : ∀ n : Number, P n.text

/-- Only equal texts of the kind are alike. -/
def Likeness.each (P : String → Prop) : Likeness :=
  ⟨fun s t => s = t ∧ P s, fun _ v w => v = w ∧ P v.text⟩

namespace Scope.Keeps

open Likeness

variable (keeps : σ.Keeps P)
include keeps

theorem values {o : Operand} {v w : Value} (values : (each P).Values o v w) :
    v = w ∧ P v.text := by
  cases values with
  | string same => exact ⟨rfl, same.2⟩
  | number => exact ⟨rfl, keeps.number _⟩
  | «variable» alike => exact alike
  | missing | function => exact ⟨rfl, keeps.empty⟩
  | message alike | term alike | nested alike => exact ⟨congrArg Value.string alike.1, alike.2⟩

theorem bears {τ : Scope} {part : Part} (has : part.Has P)
    (given : ∀ name, part = .reference (.variable name) →
      τ.given? name = σ.given? name ∧ ∀ v ∈ σ.given? name, P v.text) : (each P).Bears σ τ part := by
  cases part with
  | text value => exact ⟨rfl, has⟩
  | string raw => exact ⟨⟨rfl, has.1⟩, ⟨rfl, has.2⟩⟩
  | reference r =>
    refine ⟨⟨rfl, has⟩, ?_⟩
    rintro name rfl
    obtain ⟨same, kind⟩ := given name rfl
    rw [same]
    cases found : σ.given? name with
    | none => exact .none
    | some v => exact .some ⟨rfl, kind v found⟩
  | selector o => exact fun _ _ values => (keeps.values values).1
  | given name o => exact fun _ _ values => keeps.values values

/-- Scopes are linked if they differ only in arguments that no entry refers to. -/
theorem links {others? : Option ArgumentSet}
    (has : ∀ id e, σ.entry? id = some e → ∀ part ∈ e.parts, part.Has P)
    (given : ∀ id e, σ.entry? id = some e → ∀ name, .reference (.variable name) ∈ e.parts →
      others?.bind (·.get? name) = σ.given? name ∧ ∀ v ∈ σ.given? name, P v.text) :
    (each P).Links σ { σ with arguments? := others? } where
  entry? := rfl
  language := rfl
  empty := ⟨rfl, keeps.empty⟩
  append first second := ⟨congrArg₂ (· ++ ·) first.1 second.1, keeps.append first.2 second.2⟩
  isolate alike := ⟨congrArg σ.isolate alike.1, keeps.isolate alike.2⟩
  braces := ⟨rfl, keeps.braces⟩
  number n := ⟨rfl, keeps.number n⟩
  argument alike := ⟨congrArg Value.text alike.1, alike.2⟩
  entries id e found part member := by
    apply keeps.bears (has id e found part member)
    rintro name rfl
    exact given id e found name member

end Scope.Keeps

end Fluent

/-! ### Answers -/

/-- Texts that are related, or none, and the same reports. -/
structure Logged.Alike {α : Type} (R : α → α → Prop) (x y : Logged α) : Prop where
  value : R x.value y.value
  events : y.events = x.events

theorem Logged.Alike.eq {α : Type} {R : α → α → Prop} {x y : Logged α} (alike : x.Alike R y)
    (same : ∀ a b, R a b → a = b) : x = y := by
  cases x
  cases y
  obtain ⟨value, events⟩ := alike
  cases same _ _ value
  cases events
  rfl

variable {key : String} {args? others? : Option ArgumentSet}

namespace Bundle

variable {b c : Bundle}

theorem Built.mem_partsOf {ds : List Document} (built : Built ds b) {id : String} {e : Entry}
    (found : b.entry? id = some e) {part : Part} (member : part ∈ e.parts) : part ∈ partsOf ds := by
  rw [built.entry?_eq] at found
  obtain ⟨d, present, listed⟩ := List.mem_flatMap.mp (List.mem_of_find?_eq_some found)
  exact List.mem_flatMap.mpr ⟨d, present, List.mem_flatMap.mpr ⟨e, listed, member⟩⟩

theorem exists_of_pattern? {p : Pattern} (found : b.pattern? key = some p) :
    ∃ id e, b.entry? id = some e ∧ ∃ attribute?, e.asked? attribute? = some p := by
  obtain ⟨e, message, asked⟩ := Option.bind_eq_some_iff.mp found
  refine ⟨_, e, (Option.filter_eq_some_iff.mp message).1, ?_⟩
  rcases Option.or_eq_some_iff.mp asked with isAttribute | ⟨-, isValue⟩
  · obtain ⟨a, -, given⟩ := Option.bind_eq_some_iff.mp isAttribute
    exact ⟨some a, given⟩
  · exact ⟨none, isValue⟩

theorem pattern?_congr (same : c.entry? = b.entry?) : c.pattern? key = b.pattern? key := by
  unfold pattern? message?
  rw [same]

/-- Two bundles that answer a key alike. -/
structure Agree (R : String → String → Prop) (key : String)
    (args? others? : Option ArgumentSet) (b c : Bundle) : Prop where
  locale : c.locale = b.locale
  answer : (b.format key args?).Alike (Option.Rel R) (c.format key others?)

theorem agree_of_links {T : Likeness} (links : T.Links (b.scope args?) (c.scope others?))
    (locale : c.locale = b.locale) (key : String) :
    Agree T.text key args? others? b c := by
  refine ⟨locale, ?_⟩
  have pattern : c.pattern? key = b.pattern? key := pattern?_congr links.entry?
  cases found : b.pattern? key with
  | none =>
    rw [format, format, pattern, found]
    exact ⟨.none, rfl⟩
  | some p =>
    obtain ⟨id, e, entry, attribute?, asked⟩ := exists_of_pattern? found
    have borne : T.BearsAll (b.scope args?) (c.scope others?) (partsOfPattern p) := by
      intro part member
      exact links.entries id e entry part (Entry.mem_parts_of_asked? asked member)
    obtain ⟨text, problems⟩ := links.format borne
    rw [format, format, pattern, found]
    refine ⟨.some text, ?_⟩
    have events : c.problemEvent key = b.problemEvent key := by
      funext problem
      simp only [problemEvent, locale]
    simp only [problems, events]

end Bundle

namespace Localizer

open Phrasebook.Bundle

variable {R : String → String → Prop} {bs cs : List Bundle} {l m : Localizer}

theorem search_alike (alike : List.Forall₂ (Agree R key args? others?) bs cs) :
    (search key args? bs).Alike (Option.Rel R) (search key others? cs) := by
  induction alike with
  | nil => exact ⟨.none, rfl⟩
  | @cons b c bs cs first _ ih =>
    obtain ⟨text, events⟩ := first.answer
    rw [search, search]
    generalize b.format key args? = x, c.format key others? = y at text events
    obtain ⟨s?, es⟩ := x
    obtain ⟨t?, fs⟩ := y
    subst events
    cases text with
    | some related => exact ⟨.some related, rfl⟩
    | none => exact ⟨ih.value, congrArg (fs ++ ·) ih.events⟩

theorem localize_alike (alike : List.Forall₂ (Agree R key args? others?) l.bundles m.bundles)
    (own : R key key) : (l.localize key args?).Alike R (m.localize key others?) := by
  have locales : m.locales = l.locales := by
    unfold Localizer.locales
    generalize l.bundles = bs, m.bundles = cs at alike
    induction alike with
    | nil => rfl
    | cons first _ ih => rw [List.map_cons, List.map_cons, first.locale, ih]
  have missing : m.missingEvent key = l.missingEvent key := by
    simp only [missingEvent, locales]
  obtain ⟨text, events⟩ := search_alike alike
  rw [localize, localize, missing]
  generalize search key args? l.bundles = x, search key others? m.bundles = y at text events
  obtain ⟨s?, es⟩ := x
  obtain ⟨t?, fs⟩ := y
  subst events
  cases text with
  | some related => exact ⟨related, rfl⟩
  | none => exact ⟨own, rfl⟩

end Localizer
end Phrasebook
