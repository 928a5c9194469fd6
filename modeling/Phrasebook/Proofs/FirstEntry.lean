import Phrasebook.Bundle
import Phrasebook.Proofs.Cut
import Phrasebook.Proofs.Except
import Phrasebook.Proofs.Sameness

/-!
What a bundle finds under a name is the first entry of that name in its documents, whichever
document it stands in. Messages and terms share the table, so a term hides the messages of its name
that come after it; where none does, the first message of the first document that defines it answers.
-/

namespace Phrasebook

open Fluent

/-! ### Look-up in a table -/

theorem lookup_append (table more : List Entry) (id : String) :
    lookup (table ++ more) id = (lookup table id).or (lookup more id) := List.find?_append

theorem lookup_cons (e : Entry) (table : List Entry) (id : String) :
    lookup (e :: table) id = if e.id = id then some e else lookup table id := by
  unfold lookup
  by_cases same : e.id = id <;> simp [same]

/-- What was in a table stays, and the first of the new entries is found behind it. -/
theorem lookup_enter (table es : List Entry) (id : String) :
    lookup (enter table es).1 id = (lookup table id).or (lookup es id) := by
  induction es generalizing table with
  | nil => simp [enter, lookup]
  | cons e es ih =>
    rw [lookup_cons]
    by_cases late : (lookup table e.id).isSome = true
    · have kept : (enter table (e :: es)).1 = (enter table es).1 := by simp [enter, late]
      rw [kept, ih]
      by_cases same : e.id = id
      · subst id
        obtain ⟨earlier, found⟩ := Option.isSome_iff_exists.mp late
        simp [found]
      · simp [same]
    · have added : (enter table (e :: es)).1 = (enter (table ++ [e]) es).1 := by
        simp [enter, late]
      rw [added, ih, lookup_append, lookup_cons, Option.or_assoc]
      by_cases same : e.id = id <;> simp [same, lookup]

theorem enter_append (table es fs : List Entry) :
    (enter table (es ++ fs)).1 = (enter (enter table es).1 fs).1 := by
  induction es generalizing table with
  | nil => simp [enter]
  | cons e es ih =>
    by_cases late : (lookup table e.id).isSome = true
    · simpa [enter, late] using ih table
    · simpa [enter, late] using ih (table ++ [e])

/-! ### The table of a bundle -/

namespace Bundle

/-- All entries of documents, the earlier before the later. -/
def entriesOf (ds : List Document) : List Entry := ds.flatMap (·.entries)

theorem add_value (b : Bundle) (d : Document) :
    (b.add d).value.1 =
      { b with sources := b.sources ++ [d.path], table := (enter b.table d.entries).1 } := rfl

theorem addAll_value (b : Bundle) (ds : List Document) :
    (b.addAll ds).value =
      { b with sources := b.sources ++ ds.map (·.path),
               table := (enter b.table (entriesOf ds)).1 } := by
  induction ds generalizing b with
  | nil => simp [addAll, entriesOf, enter]
  | cons d ds ih =>
    have step : (b.addAll (d :: ds)).value = ((b.add d).value.1.addAll ds).value := rfl
    rw [step, ih, add_value]
    simp [entriesOf, enter_append]

theorem ofDocuments_value (locale : Locale) (ds : List Document) (isolating : Bool) :
    (ofDocuments locale ds isolating).value =
      ⟨locale, isolating, ds.map (·.path), (enter [] (entriesOf ds)).1⟩ := by
  have built : (ofDocuments locale ds isolating).value =
      (Bundle.addAll { empty locale with isolating := isolating } ds).value := rfl
  rw [built, addAll_value]
  rfl

theorem entry?_ofDocuments (locale : Locale) (ds : List Document) (isolating : Bool)
    (id : String) :
    Bundle.entry? (ofDocuments locale ds isolating).value id = lookup (entriesOf ds) id := by
  unfold Bundle.entry?
  rw [ofDocuments_value, lookup_enter]
  rfl

end Bundle

/-! ### Keys -/

/-- The key of a message, or of one of its attributes. -/
def writtenKey (id : String) : Option String → String
  | none => id
  | some name => id ++ "." ++ name

theorem splitKey_writtenKey {id : String} (noDot : '.' ∉ id.toList) (attribute? : Option String) :
    splitKey (writtenKey id attribute?) = (id, attribute?) := by
  have plain := Text.bne_of_not_mem noDot
  cases attribute? with
  | none =>
    have noRest : id.toList.dropWhile (· != '.') = [] := List.dropWhile_eq_nil_iff.mpr plain
    simp [splitKey, writtenKey, noRest]
  | some name =>
    have spelled : (writtenKey id (some name)).toList = id.toList ++ '.' :: name.toList := by
      simp [writtenKey]
    have front := Text.takeWhile_cut plain (Text.bne_self '.') name.toList
    have back := Text.dropWhile_cut plain (Text.bne_self '.') name.toList
    simp [splitKey, spelled, front, back]

/-- The pattern that a key with that attribute stands for in a message. -/
def Fluent.Entry.patternFor? (e : Entry) (attribute? : Option String) : Option Pattern :=
  (attribute?.bind e.attribute?).or e.value?

namespace Bundle

theorem hasMessage_writtenKey (b : Bundle) {id : String} (noDot : '.' ∉ id.toList)
    (attribute? : Option String) :
    b.hasMessage (writtenKey id attribute?) = (b.message? id).isSome := by
  rw [hasMessage, splitKey_writtenKey noDot]

theorem pattern?_writtenKey (b : Bundle) {id : String} (noDot : '.' ∉ id.toList)
    (attribute? : Option String) :
    b.pattern? (writtenKey id attribute?) = (b.message? id).bind (·.patternFor? attribute?) := by
  rw [pattern?, splitKey_writtenKey noDot]
  rfl

/-- A text without placeables is written as it stands. -/
theorem format_text (scope : Scope) (text : String) :
    Fluent.format scope [.text text] = (text, []) := by
  have empty (follow : Follow) (whole : Pattern) :
      writeElements scope follow whole [] = pure "" := by rw [writeElements]
  have single : Fluent.format scope [.text text] = (text ++ "", []) := by
    rw [Fluent.format, writeElements]
    simp only [empty]
    rfl
  rw [single, String.append_empty]

theorem format_value (b : Bundle) (key : String) (args? : Option ArgumentSet) :
    (b.format key args?).value = (b.pattern? key).map fun p => (Fluent.format (b.scope args?) p).1 := by
  cases found : b.pattern? key <;> simp [format, found]

/-! ### The first message of a name -/

/-- The first message of a name in the first document that defines the name. -/
def firstMessage? (ds : List Document) (id : String) : Option Entry :=
  (ds.find? (·.defines id)).bind fun d => d.entries.find? fun e => e.isMessage && e.id == id

/-- A term of that name stands before the messages of that name. -/
def HiddenByTerm (ds : List Document) (id : String) : Prop :=
  ∃ before term after, entriesOf ds = before ++ term :: after ∧ term.kind = .term ∧
    term.id = id ∧ ∀ e ∈ before, e.id = id → e.kind = .term

theorem defines_iff (d : Document) (id : String) :
    d.defines id = true ↔ ∃ e ∈ d.entries, e.isMessage = true ∧ e.id = id := by
  simp only [Document.defines, Document.messageIds, List.contains_iff_mem, List.mem_map,
    List.mem_filter, and_assoc]

theorem firstMessage?_eq (ds : List Document) (id : String) :
    firstMessage? ds id = (entriesOf ds).find? fun e => e.isMessage && e.id == id := by
  induction ds with
  | nil => rfl
  | cons d ds ih =>
    have split : entriesOf (d :: ds) = d.entries ++ entriesOf ds := rfl
    rw [split, List.find?_append, ← ih]
    by_cases defined : d.defines id = true
    · obtain ⟨e, member, isMessage, same⟩ := (defines_iff d id).mp defined
      have found : (d.entries.find? fun e => e.isMessage && e.id == id).isSome = true := by
        rw [List.find?_isSome]
        exact ⟨e, member, by simp [isMessage, same]⟩
      obtain ⟨first, isFirst⟩ := Option.isSome_iff_exists.mp found
      simp [firstMessage?, defined, isFirst]
    · have none : (d.entries.find? fun e => e.isMessage && e.id == id) = none := by
        rw [List.find?_eq_none]
        intro e member passes
        have both : e.isMessage = true ∧ e.id = id := by simpa using passes
        exact defined ((defines_iff d id).mpr ⟨e, member, both⟩)
      simp [firstMessage?, defined, none]

theorem firstMessage?_isSome (ds : List Document) (id : String) :
    (firstMessage? ds id).isSome = true ↔ ∃ d ∈ ds, d.defines id = true := by
  rw [firstMessage?_eq, List.find?_isSome]
  simp only [entriesOf, List.mem_flatMap, defines_iff, Bool.and_eq_true, beq_iff_eq]
  constructor
  · rintro ⟨e, ⟨d, inList, inDocument⟩, isMessage, same⟩
    exact ⟨d, inList, e, inDocument, isMessage, same⟩
  · rintro ⟨d, inList, e, inDocument, isMessage, same⟩
    exact ⟨e, ⟨d, inList, inDocument⟩, isMessage, same⟩

theorem hiddenByTerm_iff (ds : List Document) (id : String) :
    HiddenByTerm ds id ↔ ∃ term, lookup (entriesOf ds) id = some term ∧ term.kind = .term := by
  constructor
  · rintro ⟨before, term, after, split, isTerm, same, onlyTerms⟩
    rw [split, lookup_append, lookup_cons, if_pos same]
    cases found : lookup before id with
    | none => exact ⟨term, rfl, isTerm⟩
    | some e =>
      have sameId : e.id = id := by simpa using List.find?_some found
      exact ⟨e, rfl, onlyTerms e (List.mem_of_find?_eq_some found) sameId⟩
  · rintro ⟨term, found, isTerm⟩
    obtain ⟨same, before, after, split, fresh⟩ := List.find?_eq_some_iff_append.mp found
    refine ⟨before, term, after, split, isTerm, by simpa using same, ?_⟩
    intro e member sameId
    simpa [sameId] using fresh e member

instance (ds : List Document) (id : String) : Decidable (HiddenByTerm ds id) :=
  decidable_of_iff (((lookup (entriesOf ds) id).any (·.kind == .term)) = true) (by
    rw [hiddenByTerm_iff]
    simp [Option.any_eq_true_iff_get, Option.eq_some_iff_get_eq])

theorem message?_ofDocuments (locale : Locale) (ds : List Document) (isolating : Bool)
    (id : String) : (ofDocuments locale ds isolating).value.message? id =
      (lookup (entriesOf ds) id).filter (·.isMessage) := by
  rw [message?, entry?_ofDocuments]

theorem message?_of_hidden {ds : List Document} {id : String} (hidden : HiddenByTerm ds id)
    (locale : Locale) (isolating : Bool) :
    (ofDocuments locale ds isolating).value.message? id = none := by
  obtain ⟨term, found, isTerm⟩ := (hiddenByTerm_iff ds id).mp hidden
  rw [message?_ofDocuments, found]
  simp [Option.filter, Entry.isMessage, isTerm]

theorem message?_of_not_hidden {ds : List Document} {id : String} (open? : ¬HiddenByTerm ds id)
    (locale : Locale) (isolating : Bool) :
    (ofDocuments locale ds isolating).value.message? id = firstMessage? ds id := by
  rw [message?_ofDocuments, firstMessage?_eq]
  cases found : lookup (entriesOf ds) id with
  | none =>
    have absent : ((entriesOf ds).find? fun e => e.isMessage && e.id == id) = none := by
      rw [List.find?_eq_none]
      intro e member passes
      have other := List.find?_eq_none.mp found e member
      simp_all
    rw [absent]
    rfl
  | some e =>
    have isMessage : e.kind = .message := by
      cases kind : e.kind with
      | message => rfl
      | term => exact absurd ((hiddenByTerm_iff ds id).mpr ⟨e, found, kind⟩) open?
    obtain ⟨same, before, after, split, fresh⟩ := List.find?_eq_some_iff_append.mp found
    have first : ((entriesOf ds).find? fun e => e.isMessage && e.id == id) = some e := by
      rw [List.find?_eq_some_iff_append]
      refine ⟨by simpa [Entry.isMessage, isMessage] using same, before, after, split, ?_⟩
      intro earlier member
      simp [by simpa using fresh earlier member]
    rw [first]
    simp [Option.filter, Entry.isMessage, isMessage]

/-- Unless a term hides them, the messages of a name answer as the first of them in the first
document that defines the name; hidden messages do not answer at all. -/
theorem ofDocuments_first_message (locale : Locale) (ds : List Document) (isolating : Bool)
    {id : String} (noDot : '.' ∉ id.toList) :
    (¬HiddenByTerm ds id →
      ((ofDocuments locale ds isolating).value.hasMessage id = true ↔
        ∃ d ∈ ds, d.defines id = true) ∧
      ∀ attribute? args?,
        ((ofDocuments locale ds isolating).value.format (writtenKey id attribute?) args?).value =
          ((firstMessage? ds id).bind (·.patternFor? attribute?)).map fun p =>
            (Fluent.format ((ofDocuments locale ds isolating).value.scope args?) p).1) ∧
    (HiddenByTerm ds id →
      (ofDocuments locale ds isolating).value.hasMessage id = false ∧
      ∀ attribute? args?,
        ((ofDocuments locale ds isolating).value.format (writtenKey id attribute?) args?).value =
          none) := by
  have answers : (ofDocuments locale ds isolating).value.hasMessage id =
      ((ofDocuments locale ds isolating).value.message? id).isSome :=
    hasMessage_writtenKey _ noDot none
  constructor
  · intro notHidden
    rw [answers, message?_of_not_hidden notHidden]
    refine ⟨firstMessage?_isSome ds id, ?_⟩
    intro attribute? args?
    rw [format_value, pattern?_writtenKey _ noDot, message?_of_not_hidden notHidden]
  · intro hidden
    rw [answers, message?_of_hidden hidden]
    refine ⟨rfl, ?_⟩
    intro attribute? args?
    rw [format_value, pattern?_writtenKey _ noDot, message?_of_hidden hidden]
    rfl

/-- Two documents of one locale; the second has a term before its message. -/
def greetingA : Document :=
  ⟨⟨"en/a.ftl"⟩, [⟨.message, "greeting", some [.text "Hello from A"], [⟨"title", [.text "A"]⟩]⟩]⟩

def greetingB : Document :=
  ⟨⟨"en/b.ftl"⟩, [⟨.term, "greeting", some [.text "Hello"], []⟩,
    ⟨.message, "greeting", some [.text "Hello from B"], []⟩]⟩

theorem first_message_of_two :
    '.' ∉ "greeting".toList ∧ ¬HiddenByTerm [greetingA, greetingB] "greeting" ∧
    ((ofDocuments ⟨"en"⟩ [greetingA, greetingB] true).value.format "greeting.title" none).value =
      some "A" ∧
    HiddenByTerm [greetingB, greetingA] "greeting" ∧
    ((ofDocuments ⟨"en"⟩ [greetingB, greetingA] true).value.format "greeting.title" none).value =
      none := by
  have noDot : '.' ∉ "greeting".toList := by decide
  have visible : ¬HiddenByTerm [greetingA, greetingB] "greeting" := by decide
  have hidden : HiddenByTerm [greetingB, greetingA] "greeting" := by decide
  have key : writtenKey "greeting" (some "title") = "greeting.title" := by decide
  have answered := ((ofDocuments_first_message ⟨"en"⟩ [greetingA, greetingB] true noDot).1
    visible).2 (some "title") none
  have silent := ((ofDocuments_first_message ⟨"en"⟩ [greetingB, greetingA] true noDot).2
    hidden).2 (some "title") none
  rw [key] at answered silent
  have pattern : (firstMessage? [greetingA, greetingB] "greeting").bind
      (·.patternFor? (some "title")) = some [.text "A"] := rfl
  rw [pattern, Option.map_some, format_text] at answered
  exact ⟨noDot, visible, answered, hidden, silent⟩

/-- A document that defines a message which its bundle does not have. -/
theorem term_hides_message :
    ∃ d, Document.read ⟨"en/a.ftl"⟩ "-brand = Tessera\nbrand = Files\n" = .ok d ∧
      d.defines "brand" = true ∧
      (ofDocuments ⟨"en"⟩ [d] true).value.hasMessage "brand" = false := by
  have read : Document.read ⟨"en/a.ftl"⟩ "-brand = Tessera\nbrand = Files\n" =
      .ok ⟨⟨"en/a.ftl"⟩, [⟨.term, "brand", some [.text "Tessera"], []⟩,
        ⟨.message, "brand", some [.text "Files"], []⟩]⟩ :=
    Except.toOption_eq_some_iff.mp (by decide +kernel)
  exact ⟨_, read, rfl, rfl⟩

end Bundle
end Phrasebook
