import Phrasebook.Proofs.Keys
import Phrasebook.Proofs.Negotiation

/-!
A localizer asks its bundles in turn. The first that has a text for the key answers, and it alone is
heard; if there is none, the key stands for itself and there is one warning. A bundle may have the
message of a key and still no text for it.
-/

namespace Phrasebook

open Fluent

variable {key : String} {args? : Option ArgumentSet}

namespace Bundle

variable {b : Bundle}

def answers (b : Bundle) (key : String) (args? : Option ArgumentSet) : Bool :=
  (b.format key args?).value.isSome

theorem answers_eq (b : Bundle) (key : String) (args? : Option ArgumentSet) :
    b.answers key args? = (b.pattern? key).isSome := format_isSome b key args?

theorem format_of_silent (silent : b.answers key args? = false) :
    b.format key args? = ⟨none, []⟩ := by
  have none : b.pattern? key = none := by
    apply Option.not_isSome_iff_eq_none.mp
    rw [← answers_eq, silent]
    exact Bool.false_ne_true
  rw [format_eq_told, none]
  rfl

theorem level_of_format {event : Event} (member : event ∈ (b.format key args?).events) :
    event.level = .error := by
  rw [format_eq_told] at member
  cases found : b.pattern? key with
  | none =>
    rw [found] at member
    cases member
  | some p =>
    rw [found] at member
    obtain ⟨problem, -, rfl⟩ := List.mem_map.mp member
    rfl

/-- A message without a text for the key has neither the attribute nor a value. -/
theorem empty_of_silent {id : String} {attribute? : Option String} (noDot : '.' ∉ id.toList)
    (silent : b.answers (writtenKey id attribute?) args? = false) {e : Entry}
    (found : b.message? id = some e) :
    e.value? = none ∧ ∀ name ∈ attribute?, ∀ a ∈ e.attributes, a.name ≠ name := by
  rw [answers_eq, pattern?_writtenKey b noDot, found] at silent
  have none : e.patternFor? attribute? = none := by simpa using silent
  obtain ⟨noAttribute, noValue⟩ := Option.or_eq_none_iff.mp none
  refine ⟨noValue, ?_⟩
  rintro name rfl
  exact Entry.attribute?_eq_none_iff.mp noAttribute

end Bundle

namespace Localizer

variable {l : Localizer}

/-! ### Who answers -/

theorem search_of_silent {xs : List Bundle} (silent : ∀ b ∈ xs, b.answers key args? = false)
    (ys : List Bundle) : search key args? (xs ++ ys) = search key args? ys := by
  induction xs with
  | nil => rfl
  | cons b xs ih =>
    obtain ⟨first, rest⟩ := List.forall_mem_cons.mp silent
    rw [List.cons_append, search, Bundle.format_of_silent first, ← ih rest]
    rfl

theorem search_of_answer {b : Bundle} {text : String}
    (given : (b.format key args?).value = some text) (ys : List Bundle) :
    search key args? (b :: ys) = ⟨some text, (b.format key args?).events⟩ := by
  simp only [search, bind, given, pure, List.append_nil]

theorem localize_of_silent (silent : ∀ b ∈ l.bundles, b.answers key args? = false) :
    l.localize key args? = ⟨key, [l.missingEvent key]⟩ := by
  have none := search_of_silent silent []
  rw [List.append_nil] at none
  rw [localize, none]
  rfl

theorem localize_of_answer {before after : List Bundle} {b : Bundle} {text : String}
    (split : l.bundles = before ++ b :: after) (silent : ∀ c ∈ before, c.answers key args? = false)
    (given : (b.format key args?).value = some text) :
    l.localize key args? = ⟨text, (b.format key args?).events⟩ := by
  simp only [localize, split, search_of_silent silent, search_of_answer given, bind, pure,
    List.append_nil]

theorem exists_answer {bs : List Bundle} (answered : ∃ b ∈ bs, b.answers key args? = true) :
    ∃ before b after text, bs = before ++ b :: after ∧
      (∀ c ∈ before, c.answers key args? = false) ∧ (b.format key args?).value = some text := by
  have found : (bs.find? (·.answers key args?)).isSome = true := List.find?_isSome.mpr answered
  obtain ⟨b, first⟩ := Option.isSome_iff_exists.mp found
  obtain ⟨answers, before, after, split, silent⟩ := List.find?_eq_some_iff_append.mp first
  obtain ⟨text, given⟩ := Option.isSome_iff_exists.mp answers
  exact ⟨before, b, after, text, split, by simpa using silent, given⟩

/-- Every list of bundles has one that answers first, or is silent. -/
theorem answer_or_silent (bs : List Bundle) (key : String) (args? : Option ArgumentSet) :
    (∃ before b after text, bs = before ++ b :: after ∧
      (∀ c ∈ before, c.answers key args? = false) ∧ (b.format key args?).value = some text) ∨
    ∀ b ∈ bs, b.answers key args? = false := by
  by_cases answered : ∃ b ∈ bs, b.answers key args? = true
  · exact .inl (exists_answer answered)
  · right
    simpa using answered

/-! ### Longer and shorter chains -/

variable {xs : List Bundle}

theorem localize_append_of_answer (answered : ∃ b ∈ xs, b.answers key args? = true)
    (ys : List Bundle) : localize ⟨xs ++ ys⟩ key args? = localize ⟨xs⟩ key args? := by
  obtain ⟨before, b, after, text, rfl, silent, given⟩ := exists_answer answered
  have longer : (before ++ b :: after) ++ ys = before ++ b :: (after ++ ys) := by simp
  rw [longer, localize_of_answer rfl silent given, localize_of_answer rfl silent given]

theorem localize_append_of_silent (silent : ∀ b ∈ xs, b.answers key args? = false)
    (ys : List Bundle) :
    (localize ⟨xs ++ ys⟩ key args?).value = (localize ⟨ys⟩ key args?).value := by
  have none : xs.findSome? (fun b => (b.format key args?).value) = none :=
    List.findSome?_eq_none_iff.mpr (by simpa [Bundle.answers] using silent)
  rw [localize_value, localize_value, List.findSome?_append, none, Option.none_or]

theorem localize_without_silent {b : Bundle} (silent : b.answers key args? = false)
    (xs ys : List Bundle) :
    (localize ⟨xs ++ b :: ys⟩ key args?).value = (localize ⟨xs ++ ys⟩ key args?).value := by
  have none : (b.format key args?).value = none := by simpa [Bundle.answers] using silent
  simp only [localize_value, List.findSome?_append, List.findSome?_cons, none]

/-! ### Reports -/

/-- The warning that a key stands for itself. -/
def isMissing (event : Event) : Bool :=
  event.level == .warn && event.message == "Missing translation, using raw key"

theorem countP_isMissing_format (b : Bundle) (key : String) (args? : Option ArgumentSet) :
    (b.format key args?).events.countP isMissing = 0 := by
  apply List.countP_eq_zero.mpr
  intro event member
  simp [isMissing, Bundle.level_of_format member]

theorem silent_of_not_hasMessage (absent : l.hasMessage key = false) :
    ∀ b ∈ l.bundles, b.answers key args? = false := by
  intro b member
  have noMessage : b.hasMessage key = false := by
    simpa using List.any_eq_false.mp absent b member
  obtain ⟨id, attribute?, noDot, rfl⟩ := exists_writtenKey key
  rw [Bundle.hasMessage_writtenKey b noDot, Option.isSome_eq_false_iff, Option.isNone_iff_eq_none]
    at noMessage
  rw [Bundle.answers_eq, Bundle.pattern?_writtenKey b noDot, noMessage]
  rfl

theorem missing_iff_silent : (l.localize key args?).value = key ∧
    (l.localize key args?).events.countP isMissing = 1 ↔
      ∀ b ∈ l.bundles, b.answers key args? = false := by
  constructor
  · rintro ⟨-, once⟩
    rcases answer_or_silent l.bundles key args? with ⟨_, b, _, _, split, before, given⟩ | silent
    · rw [localize_of_answer split before given, countP_isMissing_format] at once
      cases once
    · exact silent
  · intro silent
    rw [localize_of_silent silent]
    exact ⟨rfl, rfl⟩

/-- Errors are reported by the bundle that answers. -/
theorem answer_of_error {event : Event} (member : event ∈ (l.localize key args?).events)
    (grave : event.level = .error) :
    ∃ before b after, l.bundles = before ++ b :: after ∧
      (∀ c ∈ before, c.answers key args? = false) ∧
      (b.format key args?).value = some (l.localize key args?).value ∧
      (b.format key args?).events = (l.localize key args?).events := by
  rcases answer_or_silent l.bundles key args? with
    ⟨before, b, after, text, split, silent, given⟩ | silent
  · have answer := localize_of_answer split silent given
    exact ⟨before, b, after, split, silent, by rw [answer, given], by rw [answer]⟩
  · rw [localize_of_silent silent] at member
    rw [List.mem_singleton.mp member] at grave
    cases grave

/-- The key itself is the text, and all that is reported is that it is missing. -/
def FallsBack (l : Localizer) (key : String) (args? : Option ArgumentSet) : Prop :=
  l.localize key args? = ⟨key, [l.missingEvent key]⟩

theorem fallsBack_iff : l.FallsBack key args? ↔ ∀ b ∈ l.bundles, b.answers key args? = false := by
  constructor
  · intro falls
    apply missing_iff_silent.mp
    rw [falls]
    exact ⟨rfl, rfl⟩
  · exact localize_of_silent

/-- The first bundle that has a text for a key answers, with its text and its reports; those behind
it are not asked, and those before it might as well not be there. The key stands for itself, with one
warning, if and only if no bundle has a text for it. That is so if none has its message, and otherwise
only if those that have it lack both the attribute and a value. -/
theorem localize_first_answer (key : String) (args? : Option ArgumentSet) :
    (∀ xs ys,
      ((∃ b ∈ xs, b.answers key args? = true) →
        localize ⟨xs ++ ys⟩ key args? = localize ⟨xs⟩ key args?) ∧
      ((∀ b ∈ xs, b.answers key args? = false) →
        (localize ⟨xs ++ ys⟩ key args?).value = (localize ⟨ys⟩ key args?).value)) ∧
    (∀ xs b ys, b.answers key args? = false →
      (localize ⟨xs ++ b :: ys⟩ key args?).value = (localize ⟨xs ++ ys⟩ key args?).value) ∧
    ∀ l : Localizer,
      ((l.localize key args?).value = key ∧
          (l.localize key args?).events.countP isMissing = 1 ↔
        ∀ b ∈ l.bundles, b.answers key args? = false) ∧
      (∀ event ∈ (l.localize key args?).events, event.level = .error →
        ∃ before b after, l.bundles = before ++ b :: after ∧
          (∀ c ∈ before, c.answers key args? = false) ∧
          (b.format key args?).value = some (l.localize key args?).value ∧
          (b.format key args?).events = (l.localize key args?).events) ∧
      (l.hasMessage key = false → l.FallsBack key args?) ∧
      (l.hasMessage key = true → l.FallsBack key args? → ∀ id attribute?, '.' ∉ id.toList →
        key = writtenKey id attribute? → ∀ b ∈ l.bundles, ∀ e, b.message? id = some e →
          e.value? = none ∧ ∀ name ∈ attribute?, ∀ a ∈ e.attributes, a.name ≠ name) := by
  refine ⟨?_, ?_, ?_⟩
  · intro xs ys
    exact ⟨fun answered => localize_append_of_answer answered ys,
      fun silent => localize_append_of_silent silent ys⟩
  · intro xs b ys silent
    exact localize_without_silent silent xs ys
  · intro l
    refine ⟨missing_iff_silent, fun _ => answer_of_error, ?_, ?_⟩
    · intro absent
      exact localize_of_silent (silent_of_not_hasMessage absent)
    · rintro - falls id attribute? noDot rfl b member e found
      exact Bundle.empty_of_silent noDot (fallsBack_iff.mp falls b member) found

/-- A message with an attribute and no value, and one with both. -/
def frenchMenu : Bundle :=
  ⟨⟨"fr"⟩, true, [⟨"fr/menu.ftl"⟩],
    [⟨.message, "menu", none, [⟨"label", [.text "Menu principal"]⟩]⟩]⟩

def englishMenu : Bundle :=
  ⟨⟨"en"⟩, true, [⟨"en/menu.ftl"⟩],
    [⟨.message, "menu", some [.text "Menu"], [⟨"label", [.text "Main menu"]⟩]⟩]⟩

theorem menus_answer :
    frenchMenu.hasMessage "menu" = true ∧ frenchMenu.answers "menu" none = false ∧
    frenchMenu.answers "menu.label" none = true ∧
    (localize ⟨[frenchMenu, englishMenu]⟩ "menu" none).value = "Menu" ∧
    (localize ⟨[frenchMenu, englishMenu]⟩ "menu.label" none).value = "Menu principal" := by
  have silent : frenchMenu.answers "menu" none = false := by
    rw [Bundle.answers_eq]
    decide
  have french : (frenchMenu.format "menu.label" none).value = some "Menu principal" := by
    have pattern : frenchMenu.pattern? "menu.label" = some [.text "Menu principal"] := rfl
    rw [Bundle.format_value, pattern, Option.map_some, Bundle.format_text]
  have answers : frenchMenu.answers "menu.label" none = true := by
    rw [Bundle.answers, french]
    rfl
  have english : (englishMenu.format "menu" none).value = some "Menu" := by
    have pattern : englishMenu.pattern? "menu" = some [.text "Menu"] := rfl
    rw [Bundle.format_value, pattern, Option.map_some, Bundle.format_text]
  have second := ((localize_first_answer "menu" none).1 [frenchMenu] [englishMenu]).2
    (List.forall_mem_singleton.mpr silent)
  have first := ((localize_first_answer "menu.label" none).1 [frenchMenu] [englishMenu]).1
    ⟨frenchMenu, List.mem_singleton_self _, answers⟩
  rw [List.singleton_append] at second first
  refine ⟨by decide, silent, answers, ?_, ?_⟩
  · rw [second, localize_value, List.findSome?_singleton, english, Option.getD_some]
  · rw [first, localize_value, List.findSome?_singleton, french, Option.getD_some]

end Localizer
end Phrasebook
