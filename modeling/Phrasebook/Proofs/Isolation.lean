import Phrasebook.Proofs.Alike
import Phrasebook.Proofs.Marks
import Phrasebook.Proofs.Negotiation
import Phrasebook.Proofs.Unmentioned

/-!
Texts with isolation and without. Isolation puts pairs of marks around placeables and changes nothing
else, unless a variant is chosen by a text that was written before: an attribute of a term, or a
message that a term was given for a variable.
-/

namespace Phrasebook

open Fluent

/-- A variant is chosen by an attribute of a term. -/
def SelectsByAttribute (parts : List Part) : Prop :=
  ∃ id a arguments?, .selector (.term id (some a) arguments?) ∈ parts

/-- A variant is chosen by a variable, and some term is given the text of a message for it. -/
def SelectsByMessage (parts : List Part) : Prop :=
  ∃ name id attribute?, .selector (.variable name) ∈ parts ∧ .given name (.message id attribute?) ∈ parts

/-! ### Equal texts but for marks -/

namespace Fluent.Likeness

/-- Arguments are equal, unless they can be messages; these are equal but for marks like all texts. -/
def upToMarks (parts : List Part) : Likeness where
  text s t := withoutMarks s = withoutMarks t
  argument name v w := withoutMarks v.text = withoutMarks w.text ∧
    ((∀ id attribute?, .given name (.message id attribute?) ∉ parts) → v = w)

variable {σ τ : Scope} {parts : List Part}

theorem upToMarks_selector {o : Operand} {v w : Value} (lawful : o.CanSelect)
    (noAttribute : ¬SelectsByAttribute parts) (noMessage : ¬SelectsByMessage parts)
    (member : .selector o ∈ parts) (values : (upToMarks parts).Values o v w) : v = w := by
  cases values with
  | string | number | missing | function => rfl
  | «variable» alike =>
    apply alike.2
    intro id attribute? given
    exact noMessage ⟨_, id, attribute?, member, given⟩
  | message | nested => exact lawful.elim
  | @term id attribute? arguments? =>
    cases attribute? with
    | none => exact lawful.elim
    | some a => exact (noAttribute ⟨id, a, arguments?, member⟩).elim

theorem upToMarks_given {name : String} {o : Operand} {v w : Value} (lawful : o.CanBeGiven)
    (member : .given name o ∈ parts) (values : (upToMarks parts).Values o v w) :
    (upToMarks parts).argument name v w := by
  cases values with
  | string | number | function => exact ⟨rfl, fun _ => rfl⟩
  | @message id attribute? _ _ alike =>
    refine ⟨alike, ?_⟩
    intro free
    exact (free id attribute? member).elim
  | «variable» | missing | term | nested => exact lawful.elim

theorem upToMarks_bears (arguments : τ.arguments? = σ.arguments?) (lawful : AllLawful parts)
    (noAttribute : ¬SelectsByAttribute parts) (noMessage : ¬SelectsByMessage parts) {part : Part}
    (member : part ∈ parts) : (upToMarks parts).Bears σ τ part := by
  cases part with
  | text value => exact rfl
  | string raw => exact ⟨rfl, rfl⟩
  | reference r =>
    refine ⟨rfl, ?_⟩
    rintro name -
    have same : τ.given? name = σ.given? name := by simp only [Scope.given?, arguments]
    rw [same]
    cases σ.given? name with
    | none => exact .none
    | some v => exact .some ⟨rfl, fun _ => rfl⟩
  | selector o =>
    intro v w values
    exact upToMarks_selector (lawful _ member) noAttribute noMessage member values
  | given name o =>
    intro v w values
    exact upToMarks_given (lawful _ member) member values

end Fluent.Likeness

/-! ### Bundles with and without isolation -/

namespace Bundle

def isolatingAs (b : Bundle) (value : Bool) : Bundle := { b with isolating := value }

variable {ds : List Document} {b : Bundle} {args? : Option ArgumentSet}

theorem Built.upToMarks_links (built : Built ds b) (isolates : b.isolating = true)
    (read : ∀ d ∈ ds, d.IsRead) (noAttribute : ¬SelectsByAttribute (partsOf ds))
    (noMessage : ¬SelectsByMessage (partsOf ds)) (args? : Option ArgumentSet) :
    (Likeness.upToMarks (partsOf ds)).Links (b.scope args?) ((b.isolatingAs false).scope args?) where
  entry? := rfl
  language := rfl
  empty := rfl
  append {s t s' t'} first second := by
    change withoutMarks (s ++ s') = withoutMarks (t ++ t')
    rw [withoutMarks_append, withoutMarks_append, first, second]
  isolate {s t} alike := by
    have marked : (b.scope args?).isolate s = firstStrongIsolate ++ s ++ popDirectionalIsolate :=
      if_pos isolates
    change withoutMarks ((b.scope args?).isolate s) = withoutMarks t
    rw [marked, withoutMarks_isolated, alike]
  braces := rfl
  number _ := rfl
  argument alike := alike.1
  entries id e found part member := by
    have inDocuments := built.mem_partsOf found member
    exact Likeness.upToMarks_bears rfl (allLawful_partsOf read) noAttribute noMessage inDocuments

end Bundle

/-! ### Paired marks -/

namespace Fluent

/-- What isolation makes of texts without marks: paired marks if it is on, else none. -/
def Sound : Bool → String → Prop
  | true, s => Paired s.toList
  | false, s => Unmarked s

/-- Neither a text nor a string of a document has marks. -/
def Part.IsUnmarked : Part → Prop
  | text value => Unmarked value
  | string raw => Unmarked (unescaped raw)
  | reference _ | selector _ | given .. => True

theorem Sound.of_unmarked {s : String} (plain : Unmarked s) (isolating : Bool) :
    Sound isolating s := by
  cases isolating with
  | true => exact .of_plain plain
  | false => exact plain

theorem Sound.keeps (σ : Scope) : σ.Keeps (Sound σ.isolating) where
  empty := .of_unmarked (by decide) _
  append {s t} first second := by
    generalize σ.isolating = isolating at first second ⊢
    cases isolating with
    | true =>
      rw [Sound, String.toList_append]
      exact Paired.append first second
    | false => exact unmarked_append first second
  isolate {s} sound := by
    unfold Scope.isolate
    generalize σ.isolating = isolating at sound ⊢
    cases isolating with
    | true => exact Paired.isolate sound
    | false => exact sound
  braces := .of_unmarked (by decide) _
  number n := .of_unmarked n.unmarked _

theorem Part.IsUnmarked.has {part : Part} (plain : part.IsUnmarked) (lawful : part.Lawful)
    (isolating : Bool) : part.Has (Sound isolating) := by
  cases part with
  | text value => exact .of_unmarked plain _
  | string raw => exact ⟨.of_unmarked plain _, .of_unmarked (unmarked_stringValue plain) _⟩
  | reference r => exact .of_unmarked (unmarked_inBraces (Reference.IsNamed.unmarked lawful)) _
  | selector | given => trivial

end Fluent

/-! ### Localizers with and without isolation -/

namespace Bundle

theorem addAll_isolatingAs (b : Bundle) (value : Bool) (ds : List Document) :
    (b.isolatingAs value).addAll ds =
      ⟨(b.addAll ds).value.isolatingAs value, (b.addAll ds).events⟩ := by
  induction ds generalizing b with
  | nil => rfl
  | cons d ds ih =>
    have step : (b.isolatingAs value).add d = ⟨((b.add d).value.1.isolatingAs value,
        (b.add d).value.2), (b.add d).events⟩ := rfl
    simp only [addAll, step, bind, ih]

theorem ofDocuments_isolatingAs (locale : Locale) (ds : List Document) (value : Bool) :
    ofDocuments locale ds value = ⟨((ofDocuments locale ds true).value.isolatingAs value),
      (ofDocuments locale ds true).events⟩ := by
  have start (v : Bool) : { empty locale with isolating := v } = (empty locale).isolatingAs v := rfl
  simp only [ofDocuments, start, addAll_isolatingAs, bind]
  rfl

end Bundle

namespace Negotiator

variable (fallback : Locale) (c : Catalog)

theorem bundlesFor_isolatingAs (ls : List Locale) : (bundlesFor ⟨fallback, true⟩ c ls).Alike
    (fun bs cs => cs = bs.map (·.isolatingAs false)) (bundlesFor ⟨fallback, false⟩ c ls) := by
  induction ls with
  | nil => exact ⟨rfl, rfl⟩
  | cons l ls ih =>
    unfold bundlesFor
    cases c.get? l.name with
    | none => exact ih
    | some documents =>
      obtain ⟨value, events⟩ := ih
      simp only [Bundle.ofDocuments_isolatingAs l documents false, bind, pure, value, events]
      exact ⟨rfl, rfl⟩

theorem negotiate_isolatingAs (requested : List String) :
    (negotiate ⟨fallback, true⟩ c requested).Alike (fun bs cs => cs = bs.map (·.isolatingAs false))
      (negotiate ⟨fallback, false⟩ c requested) := by
  obtain ⟨value, events⟩ := bundlesFor_isolatingAs fallback c
    (select ⟨fallback, true⟩ c requested).value
  have selected : select ⟨fallback, false⟩ c requested = select ⟨fallback, true⟩ c requested := rfl
  have done (bs : List Bundle) : doneEvent (bs.map (·.isolatingAs false)) = doneEvent bs := by
    simp only [doneEvent, List.map_map]
    rfl
  simp only [negotiate, selected, bind, pure, value, events, done]
  exact ⟨rfl, rfl⟩

variable {n : Negotiator} {c : Catalog} {requested : List String} {b : Bundle}

theorem isolating_of_mem (member : b ∈ (n.negotiate c requested).value) :
    b.isolating = n.isolating := by
  rw [negotiate_value] at member
  obtain ⟨l, -, rfl⟩ := List.mem_map.mp member
  rw [Bundle.ofDocuments_value]

/-- The bundles of a negotiator are built from documents of the catalog. -/
theorem built_of_mem (member : b ∈ (n.negotiate c requested).value) :
    ∃ s ∈ c.shelves, Bundle.Built s.documents b := by
  rw [negotiate_value] at member
  obtain ⟨l, chosen, rfl⟩ := List.mem_map.mp member
  have supported := Negotiation.supports_of_choose? (Option.mem_toList.mp chosen)
  obtain ⟨s, found, documents⟩ := Option.map_eq_some_iff.mp (Catalog.get?_of_supports supported)
  refine ⟨s, List.mem_of_find?_eq_some found, ?_⟩
  rw [documents]
  exact Bundle.built_ofDocuments l _ n.isolating

end Negotiator

/-! ### Texts with isolation and without -/

namespace Localizer

variable {key : String} {args? : Option ArgumentSet} {l : Localizer}

theorem localize_sound {isolating : Bool} (isolates : ∀ b ∈ l.bundles, b.isolating = isolating)
    (built : ∀ b ∈ l.bundles, ∃ ds, Bundle.Built ds b ∧ (∀ d ∈ ds, d.IsRead) ∧
      ∀ part ∈ partsOf ds, part.IsUnmarked)
    (given : ∀ name v, args?.bind (·.get? name) = some v → Unmarked v.text)
    (own : Unmarked key) : Sound isolating (l.localize key args?).value := by
  suffices alike : (l.localize key args?).Alike (fun s t => s = t ∧ Sound isolating s)
    (l.localize key args?) from alike.value.2
  apply localize_alike _ ⟨rfl, .of_unmarked own isolating⟩
  apply List.forall₂_same.mpr
  intro b member
  obtain ⟨ds, ofDocuments, read, written⟩ := built b member
  rw [← isolates b member]
  apply Bundle.agree_of_links (T := .each (Sound b.isolating)) _ rfl key
  apply (Sound.keeps (b.scope args?)).links
  · intro id e found part inEntry
    have inDocuments := ofDocuments.mem_partsOf found inEntry
    exact (written part inDocuments).has (allLawful_partsOf read part inDocuments) _
  · intro id e found name inEntry
    exact ⟨rfl, fun v isGiven => .of_unmarked (given name v isGiven) _⟩

theorem localize_upToMarks (isolates : ∀ b ∈ l.bundles, b.isolating = true)
    (built : ∀ b ∈ l.bundles, ∃ ds, Bundle.Built ds b ∧ (∀ d ∈ ds, d.IsRead) ∧
      ¬SelectsByAttribute (partsOf ds) ∧ ¬SelectsByMessage (partsOf ds)) :
    (l.localize key args?).Alike (fun s t => withoutMarks s = withoutMarks t)
      (localize ⟨l.bundles.map (·.isolatingAs false)⟩ key args?) := by
  apply localize_alike (R := fun s t => withoutMarks s = withoutMarks t) _ rfl
  rw [List.forall₂_map_right_iff]
  apply List.forall₂_same.mpr
  intro b member
  obtain ⟨ds, ofDocuments, read, noAttribute, noMessage⟩ := built b member
  have links := ofDocuments.upToMarks_links (isolates b member) read noAttribute noMessage args?
  exact Bundle.agree_of_links links rfl key

end Localizer

namespace Negotiator

variable {c : Catalog} (read : ∀ s ∈ c.shelves, ∀ d ∈ s.documents, d.IsRead)
  (requested : List String) {key : String} {args? : Option ArgumentSet}
include read

theorem localize_sound (n : Negotiator)
    (written : ∀ s ∈ c.shelves, ∀ part ∈ partsOf s.documents, part.IsUnmarked)
    (given : ∀ name v, args?.bind (·.get? name) = some v → Unmarked v.text)
    (own : Unmarked key) : Sound n.isolating
      (Localizer.localize ⟨(n.negotiate c requested).value⟩ key args?).value := by
  apply Localizer.localize_sound (fun b => isolating_of_mem) _ given own
  intro b member
  obtain ⟨s, shelf, built⟩ := built_of_mem member
  exact ⟨s.documents, built, read s shelf, written s shelf⟩

theorem localize_upToMarks (fallback : Locale) (seesNoMark : ∀ s ∈ c.shelves,
      ¬SelectsByAttribute (partsOf s.documents) ∧ ¬SelectsByMessage (partsOf s.documents)) :
    (Localizer.localize ⟨(negotiate ⟨fallback, true⟩ c requested).value⟩ key args?).Alike
      (fun s t => withoutMarks s = withoutMarks t)
      (Localizer.localize ⟨(negotiate ⟨fallback, false⟩ c requested).value⟩ key args?) := by
  rw [(negotiate_isolatingAs fallback c requested).value]
  apply Localizer.localize_upToMarks (fun b => isolating_of_mem)
  intro b member
  obtain ⟨s, shelf, built⟩ := built_of_mem member
  exact ⟨s.documents, built, read s shelf, seesNoMark s shelf⟩

end Negotiator

/-- With isolation the same locale is chosen, the same bundles are built but for their isolation, and
the same is reported as without. Where no variant is chosen by an attribute of a term, nor by a
variable for which a term is given a message, a key leads to the same reports and to texts that are
equal but for marks. If documents, arguments and key have no marks, the text without isolation has
none, and in the one with isolation they are paired. -/
theorem isolation_adds_marks (c : Catalog) (read : ∀ s ∈ c.shelves, ∀ d ∈ s.documents, d.IsRead)
    (requested : List String) (fallback : Locale) (key : String) (args? : Option ArgumentSet) :
    let isolating : Negotiator := ⟨fallback, true⟩
    let plain : Negotiator := ⟨fallback, false⟩
    let marked := Localizer.localize ⟨(isolating.negotiate c requested).value⟩ key args?
    let unmarked := Localizer.localize ⟨(plain.negotiate c requested).value⟩ key args?
    plain.select c requested = isolating.select c requested ∧
    (plain.negotiate c requested).events = (isolating.negotiate c requested).events ∧
    (plain.negotiate c requested).value =
      (isolating.negotiate c requested).value.map (·.isolatingAs false) ∧
    (∀ b ∈ (isolating.negotiate c requested).value, b.isolating = true) ∧
    ((∀ s ∈ c.shelves,
        ¬SelectsByAttribute (partsOf s.documents) ∧ ¬SelectsByMessage (partsOf s.documents)) →
      unmarked.events = marked.events ∧ withoutMarks unmarked.value = withoutMarks marked.value) ∧
    ((∀ s ∈ c.shelves, ∀ part ∈ partsOf s.documents, part.IsUnmarked) →
      (∀ name v, args?.bind (·.get? name) = some v → Unmarked v.text) → Unmarked key →
      Unmarked unmarked.value ∧ Paired marked.value.toList) := by
  intro isolating plain marked unmarked
  obtain ⟨bundles, events⟩ := Negotiator.negotiate_isolatingAs fallback c requested
  refine ⟨rfl, events, bundles, fun b => Negotiator.isolating_of_mem, ?_, ?_⟩
  · intro seesNoMark
    have alike : marked.Alike _ unmarked :=
      Negotiator.localize_upToMarks read requested fallback seesNoMark
    exact ⟨alike.events, alike.value.symm⟩
  · intro written given own
    exact ⟨plain.localize_sound read requested written given own,
      isolating.localize_sound read requested written given own⟩

/-! ### One document -/

/-- A catalog of one document, in English. -/
def english (d : Document) : Catalog := Catalog.empty.push ⟨"en"⟩ d

theorem forall_english {d : Document} {P : Shelf → Prop} (holds : P ⟨⟨"en"⟩, [d]⟩) :
    ∀ s ∈ (english d).shelves, P s := List.forall_mem_singleton.mpr holds

theorem english_isRead {d : Document} (read : d.IsRead) :
    ∀ s ∈ (english d).shelves, ∀ e ∈ s.documents, e.IsRead :=
  forall_english (List.forall_mem_singleton.mpr read)

/-- What is said to a key from one document. -/
def englishText (d : Document) (isolating : Bool) (key : String) (args : ArgumentSet) : String :=
  (Localizer.localize
    ⟨(Negotiator.negotiate ⟨⟨"en"⟩, isolating⟩ (english d) ["en"]).value⟩ key (some args)).value

theorem englishText_eq {d : Document} {isolating : Bool} {key : String} {p : Pattern}
    (found : (Bundle.ofDocuments ⟨"en"⟩ [d] isolating).value.pattern? key = some p)
    (args : ArgumentSet) :
    englishText d isolating key args =
      (Fluent.format ((Bundle.ofDocuments ⟨"en"⟩ [d] isolating).value.scope (some args)) p).1 := by
  have bundles : (Negotiator.negotiate ⟨⟨"en"⟩, isolating⟩ (english d) ["en"]).value =
      [(Bundle.ofDocuments ⟨"en"⟩ [d] isolating).value] := rfl
  rw [englishText, bundles, Localizer.localize, Localizer.search, Bundle.format, found]
  rfl

def salutation : Document :=
  ⟨⟨"t/en/a.ftl"⟩,
    [⟨.message, "hello", some [.text "Hello, ", .placeable (.inline (.variable "name"))], []⟩]⟩

theorem salutation_isRead : salutation.IsRead :=
  ⟨⟨"t/en/a.ftl"⟩, "hello = Hello, \x7b $name \x7d\n",
    Except.toOption_eq_some_iff.mp (by decide +kernel)⟩

theorem salutation_text (isolating : Bool) :
    englishText salutation isolating "hello" [("name", .string "Ada")] =
      if isolating then "Hello, \u2068Ada\u2069" else "Hello, Ada" := by
  rw [englishText_eq rfl]
  simp only [Fluent.format, writeElements, writeExpression, writeOperand]
  cases isolating <;> decide +kernel

theorem salutation_isolated :
    englishText salutation true "hello" [("name", .string "Ada")] = "Hello, \u2068Ada\u2069" ∧
    Paired (englishText salutation true "hello" [("name", .string "Ada")]).toList ∧
    englishText salutation false "hello" [("name", .string "Ada")] = "Hello, Ada" ∧
    Unmarked (englishText salutation false "hello" [("name", .string "Ada")]) ∧
    withoutMarks (englishText salutation false "hello" [("name", .string "Ada")]) =
      withoutMarks (englishText salutation true "hello" [("name", .string "Ada")]) := by
  have parts : partsOf [salutation] = [.text "Hello, ", .reference (.variable "name")] := rfl
  obtain ⟨-, -, -, -, alike, paired⟩ := isolation_adds_marks (english salutation)
    (english_isRead salutation_isRead) ["en"] ⟨"en"⟩ "hello" (some [("name", .string "Ada")])
  have chosenFreely : ¬SelectsByAttribute (partsOf [salutation]) ∧
      ¬SelectsByMessage (partsOf [salutation]) := by
    simp [SelectsByAttribute, SelectsByMessage, parts]
  have written : ∀ part ∈ partsOf [salutation], part.IsUnmarked := by
    have text : Unmarked "Hello, " := by decide
    rw [parts]
    exact List.forall_mem_cons.mpr ⟨text, List.forall_mem_singleton.mpr trivial⟩
  have given : ∀ name v, ArgumentSet.get? [("name", .string "Ada")] name = some v →
      Unmarked v.text := by
    intro name v isGiven
    rw [ArgumentSet.get?_cons] at isGiven
    split at isGiven
    · cases isGiven
      decide
    · cases isGiven
  obtain ⟨plain, pairs⟩ := paired (forall_english written) given (by decide)
  exact ⟨salutation_text true, pairs, salutation_text false, plain,
    (alike (forall_english chosenFreely)).2⟩

/-- A term that chooses by a variable, and a message that gives it another message for it. -/
def messageGiven : Document :=
  ⟨⟨"t/en/a.ftl"⟩,
    [⟨.message, "n", some [.text "a", .placeable (.inline (.variable "x"))], []⟩,
      ⟨.term, "t", some [.placeable (.select (.variable "v")
        [.mk (.name "ab") false [.text "yes"], .mk (.name "other") true [.text "no"]])], []⟩,
      ⟨.message, "m", some [.placeable (.inline
        (.term "t" none (some (.mk [] [.mk "v" (.message "n" none)]))))], []⟩]⟩

theorem messageGiven_isRead : messageGiven.IsRead :=
  ⟨⟨"t/en/a.ftl"⟩, "n = a\x7b $x \x7d\n-t = \x7b $v ->\n    [ab] yes\n   *[other] no\n \x7d\n" ++
    "m = \x7b -t(v: n) \x7d\n", Except.toOption_eq_some_iff.mp (by decide +kernel)⟩

/-- One step of following, stated of a pattern, so that a rewrite goes no deeper than that step. -/
theorem followWithin_succ (scope : Scope) (depth : Nat) (p : Pattern) (name : String) :
    followWithin scope (depth + 1) p name = do
      if (← get).travelled.any (samePattern p) then
        Write.report .cyclic
        return Write.inBraces name
      else
        modify fun s => { s with travelled := p :: s.travelled }
        let text ← writeElements scope (followWithin scope depth) p p
        modify fun s => { s with travelled := s.travelled.drop 1 }
        return text := rfl

/-- With marks, the message that the term is given is not the name that a variant has. -/
theorem messageGiven_text (isolating : Bool) :
    englishText messageGiven isolating "m" [("x", .string "b")] =
      if isolating then "no" else "yes" := by
  have inner (args? : Option ArgumentSet) :
      Option.filter (·.isMessage)
        (Scope.entry? ((Bundle.ofDocuments ⟨"en"⟩ [messageGiven] isolating).value.scope args?) "n") =
      some ⟨.message, "n", some [.text "a", .placeable (.inline (.variable "x"))], []⟩ := rfl
  have chooser (args? : Option ArgumentSet) :
      Option.filter (!·.isMessage)
        (Scope.entry? ((Bundle.ofDocuments ⟨"en"⟩ [messageGiven] isolating).value.scope args?) "t") =
      some ⟨.term, "t", some [.placeable (.select (.variable "v")
        [.mk (.name "ab") false [.text "yes"], .mk (.name "other") true [.text "no"]])], []⟩ := rfl
  rw [englishText_eq rfl]
  simp only [Fluent.format, maxPlaceables, followWithin_succ, writeElements, writeExpression,
    writeOperand, writeFitting, writeDefault, valueOf, valuesOf, namedValuesOf, argumentsOf,
    inner, chooser, Option.bind_some]
  cases isolating <;> decide +kernel

/-- The marks within a message can keep a variant from being chosen by it. -/
theorem isolation_changes_choice :
    ¬∀ (c : Catalog) (requested : List String) (fallback : Locale) (key : String)
      (args? : Option ArgumentSet), (∀ s ∈ c.shelves, ∀ d ∈ s.documents, d.IsRead) →
      (∀ s ∈ c.shelves, ¬SelectsByAttribute (partsOf s.documents)) →
      withoutMarks (Localizer.localize
        ⟨(Negotiator.negotiate ⟨fallback, false⟩ c requested).value⟩ key args?).value =
      withoutMarks (Localizer.localize
        ⟨(Negotiator.negotiate ⟨fallback, true⟩ c requested).value⟩ key args?).value := by
  intro same
  have chosenByVariable : ¬SelectsByAttribute (partsOf [messageGiven]) := by
    have parts : partsOf [messageGiven] = [.text "a", .reference (.variable "x"),
      .selector (.variable "v"), .reference (.variable "v"), .text "yes", .text "no",
      .reference (.term "t" none), .given "v" (.message "n" none),
      .reference (.message "n" none)] := rfl
    simp [SelectsByAttribute, parts]
  have marked := messageGiven_text true
  have unmarked := messageGiven_text false
  have equal : withoutMarks (englishText messageGiven false "m" [("x", .string "b")]) =
      withoutMarks (englishText messageGiven true "m" [("x", .string "b")]) :=
    same (english messageGiven) ["en"] ⟨"en"⟩ "m" (some [("x", .string "b")])
      (english_isRead messageGiven_isRead) (forall_english chosenByVariable)
  rw [marked, unmarked] at equal
  exact absurd equal (by decide)

end Phrasebook
