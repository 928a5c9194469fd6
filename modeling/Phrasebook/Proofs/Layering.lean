import Mathlib.Data.List.Basic
import Phrasebook.Proofs.FirstEntry

/-!
Bundles built one document at a time. The table of a bundle holds the first entry of each name in
its documents. An entry that comes too late is reported, whether the one before it stands in an
earlier document or further up in its own; so a report names what earlier documents have only if the
document repeats no other name.
-/

namespace Phrasebook

open Fluent

namespace Bundle

/-- Bundles that can be had from documents, the earlier before the later. -/
inductive Built : List Document → Bundle → Prop
  | empty (locale : Locale) : Built [] (empty locale)
  | isolating {ds : List Document} {b : Bundle} (built : Built ds b) (value : Bool) :
      Built ds { b with isolating := value }
  | add {ds : List Document} {b : Bundle} (built : Built ds b) (d : Document) :
      Built (ds ++ [d]) (b.add d).value.1

variable {ds : List Document} {b : Bundle}

theorem Built.entry?_eq (built : Built ds b) (id : String) :
    b.entry? id = lookup (entriesOf ds) id := by
  induction built with
  | empty locale => rfl
  | isolating _ value ih => exact ih
  | @add ds b _ d ih =>
    have documents : entriesOf (ds ++ [d]) = entriesOf ds ++ d.entries := by simp [entriesOf]
    have table : lookup b.table id = lookup (entriesOf ds) id := ih
    rw [Bundle.entry?, add_value, lookup_enter, table, documents, lookup_append]

/-- The message of a name: the first entry of the name, if that is no term. -/
def messageOf? (ds : List Document) (id : String) : Option Entry :=
  (lookup (entriesOf ds) id).filter (·.isMessage)

theorem Built.message?_eq (built : Built ds b) (id : String) :
    b.message? id = messageOf? ds id := by
  rw [Bundle.message?, built.entry?_eq, messageOf?]

theorem Built.addAll (built : Built ds b) (es : List Document) :
    Built (ds ++ es) (b.addAll es).value := by
  induction es generalizing ds b with
  | nil => simpa [Bundle.addAll] using built
  | cons d es ih => simpa [Bundle.addAll] using ih (built.add d)

theorem built_ofDocuments (locale : Locale) (ds : List Document) (isolating : Bool) :
    Built ds (ofDocuments locale ds isolating).value :=
  ((Built.empty locale).isolating isolating).addAll ds

end Bundle

/-! ### What is reported -/

/-- Whether an entry, be it a message or a term, has that name. -/
def isNamed (es : List Entry) (id : String) : Bool := es.any (·.id == id)

/-- The entries that come after one of their name, `earlier` being those before the list. -/
def repeats (earlier : List Entry) : List Entry → List Entry
  | [] => []
  | e :: es =>
    if isNamed earlier e.id then e :: repeats (earlier ++ [e]) es
    else repeats (earlier ++ [e]) es

theorem isNamed_iff {es : List Entry} {id : String} :
    isNamed es id = true ↔ ∃ e ∈ es, e.id = id := by
  simp [isNamed]

theorem isNamed_append (es fs : List Entry) (id : String) :
    isNamed (es ++ fs) id = (isNamed es id || isNamed fs id) := List.any_append

theorem lookup_isSome (es : List Entry) (id : String) :
    (lookup es id).isSome = isNamed es id := by
  rw [lookup, isNamed, Bool.eq_iff_iff, List.find?_isSome, List.any_eq_true]

theorem lookup_ne_none {es : List Entry} {id : String} (named : isNamed es id = true) :
    lookup es id ≠ none := by
  rw [← Option.isSome_iff_ne_none, lookup_isSome, named]

theorem lookup_ignored {xs ys : List Entry} (taken : ∀ y ∈ ys, isNamed xs y.id = true)
    (id : String) : lookup (xs ++ ys) id = lookup xs id := by
  rw [lookup_append]
  cases found : lookup xs id with
  | some x => rfl
  | none =>
    apply List.find?_eq_none.mpr
    intro y member same
    have named : isNamed xs id = true := by
      rw [← eq_of_beq same]
      exact taken y member
    exact lookup_ne_none named found

/-- A table stands for all entries that led to it. -/
theorem enter_late {table earlier : List Entry}
    (same : ∀ id, lookup table id = lookup earlier id) (es : List Entry) :
    (enter table es).2 = repeats earlier es := by
  induction es generalizing table earlier with
  | nil => rfl
  | cons e es ih =>
    have taken : (lookup table e.id).isSome = isNamed earlier e.id := by
      rw [same, lookup_isSome]
    -- Late or not, the table goes on standing for all entries so far.
    by_cases late : isNamed earlier e.id = true
    · have kept : ∀ id, lookup table id = lookup (earlier ++ [e]) id := by
        intro id
        rw [same, lookup_ignored (List.forall_mem_singleton.mpr late)]
      simp [enter, repeats, taken, late, ih kept]
    · have added : ∀ id, lookup (table ++ [e]) id = lookup (earlier ++ [e]) id := by
        intro id
        rw [lookup_append, lookup_append, same]
      simp [enter, repeats, taken, late, ih added]

theorem repeats_of_taken {earlier es : List Entry}
    (taken : ∀ e ∈ es, isNamed earlier e.id = true) : repeats earlier es = es := by
  induction es generalizing earlier with
  | nil => rfl
  | cons e es ih =>
    obtain ⟨first, rest⟩ := List.forall_mem_cons.mp taken
    have more : ∀ f ∈ es, isNamed (earlier ++ [e]) f.id = true := by
      intro f member
      rw [isNamed_append, rest f member, Bool.true_or]
    rw [repeats, if_pos first, ih more]

theorem filter_sublist_repeats (earlier seen es : List Entry) :
    (es.filter fun e => isNamed earlier e.id).Sublist (repeats (earlier ++ seen) es) := by
  induction es generalizing seen with
  | nil => exact List.Sublist.refl []
  | cons e es ih =>
    have rest := ih (seen ++ [e])
    rw [← List.append_assoc] at rest
    rw [repeats, isNamed_append, List.filter_cons]
    by_cases taken : isNamed earlier e.id = true
    · rw [taken, Bool.true_or, if_pos rfl, if_pos rfl]
      exact rest.cons_cons e
    · rw [if_neg taken]
      split
      · exact rest.cons e
      · exact rest

/-- If both entries have one name, it is taken from the start. -/
def Shared (earlier : List Entry) (x e : Entry) : Prop :=
  x.id = e.id → isNamed earlier e.id = true

/-- The repeats are the entries whose name is taken from the start, unless another name comes
twice. -/
theorem repeats_eq_filter_iff (earlier seen es : List Entry) :
    repeats (earlier ++ seen) es = (es.filter fun e => isNamed earlier e.id) ↔
      (∀ x ∈ seen, ∀ e ∈ es, Shared earlier x e) ∧ es.Pairwise (Shared earlier) := by
  induction es generalizing seen with
  | nil => simp [repeats]
  | cons e es ih =>
    have rest := ih (seen ++ [e])
    rw [← List.append_assoc] at rest
    simp only [List.forall_mem_append, List.forall_mem_singleton, and_assoc] at rest
    rw [repeats, isNamed_append, List.filter_cons, List.pairwise_cons]
    simp only [List.forall_mem_cons, forall₂_and, and_assoc]
    by_cases taken : isNamed earlier e.id = true
    · have first : ∀ x ∈ seen, Shared earlier x e := fun _ _ _ => taken
      rw [taken, Bool.true_or, if_pos rfl, if_pos rfl, List.cons.injEq, and_iff_right rfl, rest,
        and_iff_right first]
    · by_cases again : isNamed seen e.id = true
      · -- A repeat that the start does not account for makes the list too long for the choice.
        have longer : e :: repeats (earlier ++ seen ++ [e]) es ≠
            es.filter fun e => isNamed earlier e.id := by
          intro same
          have atMost := (filter_sublist_repeats earlier (seen ++ [e]) es).length_le
          rw [← same, List.length_cons, List.append_assoc] at atMost
          omega
        obtain ⟨x, member, same⟩ := isNamed_iff.mp again
        rw [again, Bool.or_true, if_pos rfl, if_neg taken]
        refine iff_of_false longer ?_
        rintro ⟨shared, -⟩
        exact taken (shared x member same)
      · have first : ∀ x ∈ seen, Shared earlier x e := by
          intro x member same
          exact absurd (isNamed_iff.mpr ⟨x, member, same⟩) again
        have fresh : (isNamed earlier e.id || isNamed seen e.id) = false := by simp [taken, again]
        rw [fresh, if_neg Bool.false_ne_true, if_neg taken, rest, and_iff_right first]

theorem names_of_repeats_iff (earlier es : List Entry) :
    (repeats earlier es).map (·.id) = (es.filter fun e => isNamed earlier e.id).map (·.id) ↔
      es.Pairwise (Shared earlier) := by
  have whole := repeats_eq_filter_iff earlier [] es
  have among := filter_sublist_repeats earlier [] es
  simp only [List.append_nil, List.not_mem_nil, false_implies, implies_true, true_and]
    at whole among
  rw [← whole]
  constructor
  · intro names
    have lengths := congrArg List.length names
    simp only [List.length_map] at lengths
    exact (among.eq_of_length lengths.symm).symm
  · intro same
    rw [same]

namespace Bundle

variable {ds : List Document} {b : Bundle}

theorem Built.add_late (built : Built ds b) (d : Document) :
    (enter b.table d.entries).2 = repeats (entriesOf ds) d.entries :=
  enter_late built.entry?_eq d.entries

theorem Built.add_names (built : Built ds b) (d : Document) :
    (b.add d).value.2 = (repeats (entriesOf ds) d.entries).map (·.id) := by
  rw [← built.add_late]
  rfl

theorem Built.add_events (built : Built ds b) (d : Document) :
    (b.add d).events = (repeats (entriesOf ds) d.entries).map (b.lateEvent d.path) := by
  rw [← built.add_late]
  rfl

/-- Of a document those entries are reported whose name is taken, by an earlier document or further
up in the document; each is reported with a warning that names the document. So the names reported
are those that earlier documents have if, and only if, the document has no other name twice. -/
theorem add_reports (built : Built ds b) (d : Document) :
    (b.add d).value.2 = (repeats (entriesOf ds) d.entries).map (·.id) ∧
    (b.add d).events = (repeats (entriesOf ds) d.entries).map (b.lateEvent d.path) ∧
    (∀ event ∈ (b.add d).events, event.level = .warn ∧
      ("path", .text d.path.text) ∈ event.fields) ∧
    ((b.add d).value.2 =
        (d.entries.filter fun e => isNamed (entriesOf ds) e.id).map (·.id) ↔
      d.entries.Pairwise (Shared (entriesOf ds))) ∧
    ((∀ e ∈ d.entries, isNamed (entriesOf ds) e.id = false) →
      ((b.add d).value.2 = [] ↔ (d.entries.map (·.id)).Nodup)) := by
  refine ⟨built.add_names d, built.add_events d, ?_, ?_, ?_⟩
  · intro event member
    rw [built.add_events] at member
    obtain ⟨e, -, rfl⟩ := List.mem_map.mp member
    exact ⟨rfl, by simp [lateEvent]⟩
  · rw [built.add_names, names_of_repeats_iff]
  · intro apart
    have nothing : (d.entries.filter fun e => isNamed (entriesOf ds) e.id) = [] :=
      List.filter_eq_nil_iff.mpr (by simpa using apart)
    have none := names_of_repeats_iff (entriesOf ds) d.entries
    rw [nothing, List.map_nil, ← built.add_names] at none
    rw [none, List.Nodup, List.pairwise_map]
    apply List.Pairwise.iff_of_mem
    intro x e _ member
    simp [Shared, apart e member]

/-- A document with a name of its own, one that an earlier document has, and each once more. -/
def greetingC : Document :=
  ⟨⟨"en/c.ftl"⟩, [⟨.message, "title", some [.text "Files"], []⟩,
    ⟨.message, "greeting", some [.text "Hello from C"], []⟩,
    ⟨.message, "title", some [.text "All files"], []⟩,
    ⟨.term, "greeting", some [.text "Hello"], []⟩]⟩

theorem greetings_reported :
    Built [greetingA] ((empty ⟨"en"⟩).add greetingA).value.1 ∧
    (((empty ⟨"en"⟩).add greetingA).value.1.add greetingB).value.2 = ["greeting", "greeting"] ∧
    (((empty ⟨"en"⟩).add greetingA).value.1.add greetingC).value.2 =
      ["greeting", "title", "greeting"] := by
  have built : Built [greetingA] ((empty ⟨"en"⟩).add greetingA).value.1 :=
    (Built.empty ⟨"en"⟩).add greetingA
  refine ⟨built, ?_, ?_⟩
  · rw [(add_reports built greetingB).1]
    decide
  · rw [(add_reports built greetingC).1]
    decide

/-- A name that no earlier document has is reported if its own document has it twice. -/
theorem repeated_name_reported :
    ∃ d, Document.read ⟨"en/a.ftl"⟩ "size = Size\nsize = Length\n" = .ok d ∧
      Built [] (empty ⟨"en"⟩) ∧ (∀ e ∈ d.entries, isNamed (entriesOf []) e.id = false) ∧
      ((empty ⟨"en"⟩).add d).value.2 = ["size"] := by
  have read : Document.read ⟨"en/a.ftl"⟩ "size = Size\nsize = Length\n" =
      .ok ⟨⟨"en/a.ftl"⟩, [⟨.message, "size", some [.text "Size"], []⟩,
        ⟨.message, "size", some [.text "Length"], []⟩]⟩ :=
    Except.toOption_eq_some_iff.mp (by decide +kernel)
  exact ⟨_, read, .empty ⟨"en"⟩, fun _ _ => rfl, rfl⟩

end Bundle
end Phrasebook
