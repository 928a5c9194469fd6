import Phrasebook.Proofs.Identifier
import Phrasebook.Proofs.Layering

/-!
Keys and what a bundle says to them. The part of a key before its first dot has to name a message;
the first attribute of the other part's name answers, else the value. Whether there is an answer is a
matter of the documents and the key alone.
-/

namespace Phrasebook

open Fluent

/-! ### The two parts of a key -/

theorem exists_writtenKey (key : String) :
    ∃ id attribute?, '.' ∉ id.toList ∧ key = writtenKey id attribute? := by
  by_cases dotted : '.' ∈ key.toList
  · obtain ⟨id, name, split, noDot⟩ := List.eq_append_cons_of_mem dotted
    refine ⟨String.ofList id, some (String.ofList name), by simpa using noDot, ?_⟩
    apply String.toList_inj.mp
    simp [writtenKey, split]
  · exact ⟨key, none, dotted, rfl⟩

theorem exists_dotted {id : String} {attribute? : Option String} (noDot : '.' ∉ id.toList)
    (dots : 2 ≤ (writtenKey id attribute?).toList.count '.') :
    ∃ name, attribute? = some name ∧ '.' ∈ name.toList := by
  have before : id.toList.count '.' = 0 := List.count_eq_zero.mpr noDot
  cases attribute? with
  | none =>
    rw [writtenKey, before] at dots
    omega
  | some name =>
    have spelled : (writtenKey id (some name)).toList = id.toList ++ '.' :: name.toList := by
      simp [writtenKey]
    rw [spelled, List.count_append, List.count_cons_self, before] at dots
    exact ⟨name, rfl, List.count_pos_iff.mp (by omega)⟩

/-! ### What a message has for a key -/

namespace Fluent.Entry

/-- The pattern of the first attribute of that name; where there is none, the value. -/
inductive Offers (e : Entry) : Option String → Pattern → Prop
  | attribute {before after : List Attribute} {a : Attribute}
      (split : e.attributes = before ++ a :: after) (first : ∀ x ∈ before, x.name ≠ a.name) :
      Offers e (some a.name) a.value
  | value {attribute? : Option String} {p : Pattern}
      (absent : ∀ name ∈ attribute?, ∀ a ∈ e.attributes, a.name ≠ name)
      (value : e.value? = some p) : Offers e attribute? p

variable {e : Entry} {p : Pattern} {name : String}

theorem attribute?_eq_some_iff : e.attribute? name = some p ↔
    ∃ before a after, e.attributes = before ++ a :: after ∧ (∀ x ∈ before, x.name ≠ name) ∧
      a.name = name ∧ a.value = p := by
  rw [attribute?, Option.map_eq_some_iff]
  constructor
  · rintro ⟨a, found, rfl⟩
    obtain ⟨same, before, after, split, fresh⟩ := List.find?_eq_some_iff_append.mp found
    exact ⟨before, a, after, split, by simpa using fresh, eq_of_beq same, rfl⟩
  · rintro ⟨before, a, after, split, fresh, same, rfl⟩
    refine ⟨a, List.find?_eq_some_iff_append.mpr ⟨by simpa using same, before, after, split, ?_⟩, rfl⟩
    simpa using fresh

theorem attribute?_eq_none_iff :
    e.attribute? name = none ↔ ∀ a ∈ e.attributes, a.name ≠ name := by
  simp [attribute?]

theorem offers_iff {attribute? : Option String} :
    e.Offers attribute? p ↔ e.patternFor? attribute? = some p := by
  constructor
  · rintro (⟨split, first⟩ | ⟨absent, value⟩)
    · have found := attribute?_eq_some_iff.mpr ⟨_, _, _, split, first, rfl, rfl⟩
      simp [patternFor?, found]
    · cases attribute? with
      | none => simpa [patternFor?] using value
      | some name =>
        have none := attribute?_eq_none_iff.mpr (absent name rfl)
        simpa [patternFor?, none] using value
  · intro found
    cases attribute? with
    | none => exact .value (by simp) (by simpa [patternFor?] using found)
    | some name =>
      cases has : e.attribute? name with
      | none =>
        apply Offers.value
        · intro other same
          rw [← Option.mem_some.mp same]
          exact attribute?_eq_none_iff.mp has
        · simpa [patternFor?, has] using found
      | some q =>
        have same : q = p := by simpa [patternFor?, has] using found
        obtain ⟨before, a, after, split, first, rfl, rfl⟩ := attribute?_eq_some_iff.mp has
        rw [← same]
        exact .attribute split first

/-- No attribute has a dot in its name, so a name with a dot is as good as none. -/
theorem WellNamed.patternFor?_dotted (named : e.WellNamed) (dotted : '.' ∈ name.toList) :
    e.patternFor? (some name) = e.patternFor? none := by
  have absent : e.attribute? name = none := by
    apply attribute?_eq_none_iff.mpr
    rintro a member rfl
    exact (named.attributes a member).noDot dotted
  simp [patternFor?, absent]

end Fluent.Entry

/-! ### Documents that were read -/

def Document.IsRead (d : Document) : Prop := ∃ path source, Document.read path source = .ok d

theorem Document.IsRead.entry_read {d : Document} (read : d.IsRead) {e : Entry}
    (listed : e ∈ d.entries) : ∃ cs rest, entry cs = .ok (e, rest) := by
  obtain ⟨path, source, read⟩ := read
  unfold Document.read at read
  split at read
  · next es parsed =>
    cases read
    exact document_read parsed e listed
  · cases read

theorem Document.IsRead.wellNamed {d : Document} (read : d.IsRead) :
    ∀ e ∈ d.entries, e.WellNamed := by
  intro e listed
  obtain ⟨cs, rest, entered⟩ := read.entry_read listed
  exact entry_wellNamed entered

namespace Bundle

theorem wellNamed_of_messageOf? {ds : List Document} {id : String} {e : Entry}
    (read : ∀ d ∈ ds, d.IsRead) (found : messageOf? ds id = some e) : e.WellNamed ∧ e.id = id := by
  have first := (Option.filter_eq_some_iff.mp found).1
  obtain ⟨d, present, member⟩ := List.mem_flatMap.mp (List.mem_of_find?_eq_some first)
  exact ⟨(read d present).wellNamed e member, by simpa using List.find?_some first⟩

/-! ### Answers -/

/-- What is said to a key: nothing, or a text, with the problems on the way to it reported. -/
def told (b : Bundle) (key : String) : Option (String × List Problem) → Logged (Option String)
  | none => ⟨none, []⟩
  | some (text, problems) => ⟨some text, problems.map (b.problemEvent key)⟩

variable {ds : List Document} {b : Bundle}

theorem format_eq_told (b : Bundle) (key : String) (args? : Option ArgumentSet) :
    b.format key args? = b.told key ((b.pattern? key).map (Fluent.format (b.scope args?))) := by
  cases found : b.pattern? key with
  | none =>
    rw [format, found]
    rfl
  | some p =>
    rw [format, found]
    rfl

theorem format_isSome (b : Bundle) (key : String) (args? : Option ArgumentSet) :
    (b.format key args?).value.isSome = (b.pattern? key).isSome := by
  rw [format_value, Option.isSome_map]

section Built

variable (built : Built ds b) {id : String} (noDot : '.' ∉ id.toList) {attribute? : Option String}
include built noDot

theorem Built.pattern?_eq : b.pattern? (writtenKey id attribute?) =
    (messageOf? ds id).bind (·.patternFor? attribute?) := by
  rw [pattern?_writtenKey b noDot, built.message?_eq]

theorem Built.pattern?_eq_some_iff {p : Pattern} : b.pattern? (writtenKey id attribute?) = some p ↔
    ∃ e, messageOf? ds id = some e ∧ e.Offers attribute? p := by
  simp only [built.pattern?_eq noDot, Option.bind_eq_some_iff, Entry.offers_iff]

theorem Built.hasMessage_iff :
    b.hasMessage (writtenKey id attribute?) = true ↔ ∃ e, messageOf? ds id = some e := by
  rw [hasMessage_writtenKey b noDot, built.message?_eq, Option.isSome_iff_exists]

theorem Built.format_of_offers {e : Entry} {p : Pattern} (found : messageOf? ds id = some e)
    (offers : e.Offers attribute? p) (args? : Option ArgumentSet) :
    b.format (writtenKey id attribute?) args? =
      b.told (writtenKey id attribute?) (some (Fluent.format (b.scope args?) p)) := by
  rw [format_eq_told, (built.pattern?_eq_some_iff noDot).mpr ⟨e, found, offers⟩]
  rfl

theorem Built.format_of_nothing
    (nothing : ∀ e p, messageOf? ds id = some e → ¬e.Offers attribute? p)
    (args? : Option ArgumentSet) :
    b.format (writtenKey id attribute?) args? = b.told (writtenKey id attribute?) none := by
  have none : b.pattern? (writtenKey id attribute?) = none := by
    apply Option.eq_none_iff_forall_ne_some.mpr
    intro p found
    obtain ⟨e, first, offers⟩ := (built.pattern?_eq_some_iff noDot).mp found
    exact nothing e p first offers
  rw [format_eq_told, none]
  rfl

theorem Built.pattern?_dotted (read : ∀ d ∈ ds, d.IsRead) {name : String}
    (dotted : '.' ∈ name.toList) :
    b.pattern? (writtenKey id (some name)) = b.pattern? (writtenKey id none) := by
  rw [built.pattern?_eq noDot, built.pattern?_eq noDot]
  cases found : messageOf? ds id with
  | none => rfl
  | some e => exact (wellNamed_of_messageOf? read found).1.patternFor?_dotted dotted

/-- After a second dot nothing is left for a key but the value of its message. -/
theorem Built.format_dotted (read : ∀ d ∈ ds, d.IsRead)
    (dots : 2 ≤ (writtenKey id attribute?).toList.count '.') (args? : Option ArgumentSet) :
    ∃ answer?, b.format (writtenKey id attribute?) args? =
        b.told (writtenKey id attribute?) answer? ∧ b.format id args? = b.told id answer? := by
  obtain ⟨name, rfl, dotted⟩ := exists_dotted noDot dots
  refine ⟨(b.pattern? id).map (Fluent.format (b.scope args?)), ?_, format_eq_told b id args?⟩
  rw [format_eq_told, built.pattern?_dotted noDot read dotted]
  rfl

end Built

/-- Every key has two parts. It is answered if the first names a message that has a pattern for the
second, and then with that pattern written out; neither arguments, isolation, locale nor problems
decide on it. A second dot makes a key as good as its first part, and every attribute answers under
its own name unless one before it has the name too. -/
theorem answers_of_keys (built : Built ds b) (read : ∀ d ∈ ds, d.IsRead) :
    (∀ key, ∃ id attribute?, '.' ∉ id.toList ∧ key = writtenKey id attribute?) ∧
    (∀ id, b.message? id = messageOf? ds id) ∧
    (∀ id attribute?, '.' ∉ id.toList →
      (b.hasMessage (writtenKey id attribute?) = true ↔ ∃ e, messageOf? ds id = some e) ∧
      (∀ e p, messageOf? ds id = some e → e.Offers attribute? p → ∀ args?,
        b.format (writtenKey id attribute?) args? =
          b.told (writtenKey id attribute?) (some (Fluent.format (b.scope args?) p))) ∧
      ((∀ e p, messageOf? ds id = some e → ¬e.Offers attribute? p) → ∀ args?,
        b.format (writtenKey id attribute?) args? = b.told (writtenKey id attribute?) none) ∧
      (2 ≤ (writtenKey id attribute?).toList.count '.' → ∀ args?, ∃ answer?,
        b.format (writtenKey id attribute?) args? = b.told (writtenKey id attribute?) answer? ∧
        b.format id args? = b.told id answer?)) ∧
    (∀ c, Built ds c → ∀ key args? others?,
      (b.format key args?).value.isSome = (c.format key others?).value.isSome) ∧
    ∀ id e before a after, messageOf? ds id = some e → e.attributes = before ++ a :: after →
      (∀ x ∈ before, x.name ≠ a.name) → ∀ args?,
        b.format (writtenKey id (some a.name)) args? =
          b.told (writtenKey id (some a.name)) (some (Fluent.format (b.scope args?) a.value)) := by
  refine ⟨exists_writtenKey, built.message?_eq, ?_, ?_, ?_⟩
  · intro id attribute? noDot
    refine ⟨built.hasMessage_iff noDot, ?_, built.format_of_nothing noDot,
      built.format_dotted noDot read⟩
    intro e p found offers
    exact built.format_of_offers noDot found offers
  · intro c other key args? others?
    obtain ⟨id, attribute?, noDot, rfl⟩ := exists_writtenKey key
    rw [format_isSome, format_isSome, built.pattern?_eq noDot, other.pattern?_eq noDot]
  · intro id e before a after found split first
    obtain ⟨named, rfl⟩ := wellNamed_of_messageOf? read found
    exact built.format_of_offers named.id.noDot found (.attribute split first)

/-- A message with two attributes of one name. -/
def menu : Document :=
  ⟨⟨"en/menu.ftl"⟩, [⟨.message, "menu", some [.text "Menu"],
    [⟨"label", [.text "Main menu"]⟩, ⟨"label", [.text "Other menu"]⟩]⟩]⟩

theorem menu_isRead : menu.IsRead :=
  ⟨⟨"en/menu.ftl"⟩, "menu = Menu\n    .label = Main menu\n    .label = Other menu\n",
    Except.toOption_eq_some_iff.mp (by decide +kernel)⟩

theorem menu_answers :
    Built [menu] (ofDocuments ⟨"en"⟩ [menu] true).value ∧ (∀ d ∈ [menu], d.IsRead) ∧
    (ofDocuments ⟨"en"⟩ [menu] true).value.format "menu.label" none = ⟨some "Main menu", []⟩ ∧
    (ofDocuments ⟨"en"⟩ [menu] true).value.format "menu.label.x" none = ⟨some "Menu", []⟩ ∧
    (ofDocuments ⟨"en"⟩ [menu] true).value.format "label" none = ⟨none, []⟩ := by
  have built : Built [menu] (ofDocuments ⟨"en"⟩ [menu] true).value := built_ofDocuments _ _ _
  have read : ∀ d ∈ [menu], d.IsRead := List.forall_mem_singleton.mpr menu_isRead
  obtain ⟨-, -, keys, -, attributes⟩ := answers_of_keys built read
  refine ⟨built, read, ?_, ?_, ?_⟩
  · have label := attributes "menu" _ [] ⟨"label", [.text "Main menu"]⟩ _ rfl rfl (by simp) none
    rw [format_text] at label
    exact label
  · have value : Entry.Offers ⟨.message, "menu", some [.text "Menu"],
        [⟨"label", [.text "Main menu"]⟩, ⟨"label", [.text "Other menu"]⟩]⟩ (some "label.x")
        [.text "Menu"] := .value (by simp) rfl
    have dotted := (keys "menu" (some "label.x") (by decide)).2.1 _ _ rfl value none
    rw [format_text] at dotted
    exact dotted
  · have absent : messageOf? [menu] "label" = none := rfl
    exact (keys "label" none (by decide)).2.2.1 (by simp [absent]) none

end Bundle
end Phrasebook
