import Mathlib.Logic.Relation
import Phrasebook.Proofs.Layering

/-!
What a bundle answers depends on its documents only through the first entry of each name. So entries
may be moved to other documents, documents without a common name may be put in another order, and
entries that come too late may be left out or come once more.
-/

namespace Phrasebook

open Fluent Phrasebook.Bundle

/-- Every name has the same first entry in both, or none in both. -/
def SameFirst (ds es : List Document) : Prop :=
  ∀ id, lookup (entriesOf ds) id = lookup (entriesOf es) id

/-- No name is in both documents. -/
def Document.Apart (d e : Document) : Prop := ∀ x ∈ d.entries, ∀ y ∈ e.entries, x.id ≠ y.id

/-- Changes of documents that leave the first entry of each name. -/
inductive Rearranged : List Document → List Document → Prop
  | regroup {ds es : List Document} (same : entriesOf ds = entriesOf es) : Rearranged ds es
  | permute (before after : List Document) {ds es : List Document} (perm : ds.Perm es)
      (apart : ds.Pairwise Document.Apart) :
      Rearranged (before ++ ds ++ after) (before ++ es ++ after)
  | drop (before after : List Document) (path : Path) (xs ys : List Entry) {e : Entry}
      (late : isNamed (entriesOf before ++ xs) e.id = true) :
      Rearranged (before ++ ⟨path, xs ++ e :: ys⟩ :: after) (before ++ ⟨path, xs ++ ys⟩ :: after)
  | again (before after : List Document) {d : Document} (present : d ∈ before) :
      Rearranged (before ++ d :: after) (before ++ after)

/-! ### First entries -/

theorem entriesOf_append (ds es : List Document) :
    entriesOf (ds ++ es) = entriesOf ds ++ entriesOf es := List.flatMap_append

theorem entriesOf_cons (d : Document) (ds : List Document) :
    entriesOf (d :: ds) = d.entries ++ entriesOf ds := List.flatMap_cons

theorem SameFirst.within {ds es : List Document} (same : SameFirst ds es)
    (before after : List Document) : SameFirst (before ++ ds ++ after) (before ++ es ++ after) := by
  intro id
  simp only [entriesOf_append, lookup_append, same id]

namespace Document.Apart

variable {d e : Document}

theorem symm (apart : d.Apart e) : e.Apart d := fun x inE y inD same => apart y inD x inE same.symm

theorem lookup_comm (apart : d.Apart e) (id : String) :
    (lookup d.entries id).or (lookup e.entries id) =
      (lookup e.entries id).or (lookup d.entries id) := by
  cases inD : lookup d.entries id with
  | none => simp
  | some x =>
    cases inE : lookup e.entries id with
    | none => simp
    | some y =>
      have first : x.id = id := by simpa using List.find?_some inD
      have second : y.id = id := by simpa using List.find?_some inE
      exact absurd (first.trans second.symm)
        (apart x (List.mem_of_find?_eq_some inD) y (List.mem_of_find?_eq_some inE))

end Document.Apart

theorem sameFirst_of_perm {ds es : List Document} (perm : ds.Perm es)
    (apart : ds.Pairwise Document.Apart) : SameFirst ds es := by
  induction perm with
  | nil => exact fun _ => rfl
  | cons d _ ih =>
    intro id
    have rest := ih (List.pairwise_cons.mp apart).2 id
    rw [entriesOf_cons, entriesOf_cons, lookup_append, lookup_append, rest]
  | swap d e ds =>
    intro id
    have pair : e.Apart d := (List.pairwise_cons.mp apart).1 d List.mem_cons_self
    simp only [entriesOf_cons, lookup_append]
    rw [← Option.or_assoc, pair.lookup_comm, Option.or_assoc]
  | trans first _ ih ih' =>
    intro id
    exact (ih apart id).trans (ih' (first.pairwise apart Document.Apart.symm) id)

/-- Entries whose name is taken are not missed. -/
theorem lookup_without {xs ys : List Entry} (taken : ∀ y ∈ ys, isNamed xs y.id = true)
    (zs : List Entry) (id : String) : lookup (xs ++ ys ++ zs) id = lookup (xs ++ zs) id := by
  rw [lookup_append, lookup_ignored taken, lookup_append]

theorem isNamed_of_mem {ds : List Document} {d : Document} (present : d ∈ ds) :
    ∀ e ∈ d.entries, isNamed (entriesOf ds) e.id = true := by
  intro e member
  exact isNamed_iff.mpr ⟨e, List.mem_flatMap.mpr ⟨d, present, member⟩, rfl⟩

theorem Rearranged.sameFirst {ds es : List Document} (rearranged : Rearranged ds es) :
    SameFirst ds es := by
  cases rearranged with
  | regroup same =>
    intro id
    rw [same]
  | permute before after perm apart => exact (sameFirst_of_perm perm apart).within before after
  | drop before after path xs ys late =>
    intro id
    have one := lookup_without (List.forall_mem_singleton.mpr late) (ys ++ entriesOf after) id
    simpa [entriesOf_append, entriesOf_cons, List.append_assoc] using one
  | again before after present =>
    intro id
    rw [entriesOf_append, entriesOf_cons, ← List.append_assoc,
      lookup_without (isNamed_of_mem present), entriesOf_append]

theorem sameFirst_of_steps {ds es : List Document}
    (steps : Relation.ReflTransGen Rearranged ds es) : SameFirst ds es := by
  induction steps with
  | refl => exact fun _ => rfl
  | tail _ step ih =>
    intro id
    exact (ih id).trans (step.sameFirst id)

/-! ### Answers -/

namespace Bundle

/-- No key tells the bundles apart, neither by its text nor by what is reported of it. -/
def AnswersAlike (b c : Bundle) : Prop :=
  ∀ key, b.hasMessage key = c.hasMessage key ∧ ∀ args?, b.format key args? = c.format key args?

variable {ds es : List Document} {b c : Bundle}

theorem answersAlike_of_entry?_eq (locale : b.locale = c.locale)
    (isolating : b.isolating = c.isolating) (found : ∀ id, b.entry? id = c.entry? id) :
    AnswersAlike b c := by
  have message? : ∀ id, b.message? id = c.message? id := by
    intro id
    rw [Bundle.message?, Bundle.message?, found]
  intro key
  constructor
  · rw [hasMessage, hasMessage, message?]
  · intro args?
    have pattern? : b.pattern? key = c.pattern? key := by
      simp only [Bundle.pattern?, message?]
    have scope : b.scope args? = c.scope args? := by
      rw [Bundle.scope, Bundle.scope, locale, isolating, funext found]
    have problem : b.problemEvent key = c.problemEvent key := by
      funext p
      rw [problemEvent, problemEvent, locale]
    rw [format, format, pattern?, scope, problem]

theorem Built.answersAlike (left : Built ds b) (right : Built es c) (locale : b.locale = c.locale)
    (isolating : b.isolating = c.isolating) (same : SameFirst ds es) : AnswersAlike b c := by
  apply answersAlike_of_entry?_eq locale isolating
  intro id
  rw [left.entry?_eq, right.entry?_eq, same id]

/-- Bundles answer alike if every name has the same first entry in their documents, as it has when
one list of documents comes from the other by rearrangements. A document that is there already is
reported entry by entry, and changes no answer. -/
theorem determined_by_first_entries (left : Built ds b) (right : Built es c)
    (locale : b.locale = c.locale) (isolating : b.isolating = c.isolating) :
    (SameFirst ds es → AnswersAlike b c) ∧
    (Relation.ReflTransGen Rearranged ds es → AnswersAlike b c) ∧
    ∀ d ∈ ds, (b.add d).value.2 = d.entries.map (·.id) ∧
      (b.add d).events = d.entries.map (b.lateEvent d.path) ∧
      AnswersAlike (b.add d).value.1 b := by
  refine ⟨left.answersAlike right locale isolating, ?_, ?_⟩
  · intro steps
    apply left.answersAlike right locale isolating
    exact sameFirst_of_steps steps
  · intro d present
    have all := repeats_of_taken (isNamed_of_mem present)
    refine ⟨?_, ?_, ?_⟩
    · rw [left.add_names, all]
    · rw [left.add_events, all]
    · have again := (Rearranged.again ds [] present).sameFirst
      rw [List.append_nil] at again
      exact (left.add d).answersAlike left rfl rfl again

/-- A later greeting says nothing, wherever it stands. -/
theorem greetings_alike :
    SameFirst [greetingA, greetingB] [greetingA] ∧
    Relation.ReflTransGen Rearranged [greetingA, greetingC, greetingA] [greetingA, greetingC] ∧
    AnswersAlike (ofDocuments ⟨"en"⟩ [greetingA, greetingB] true).value
      (ofDocuments ⟨"en"⟩ [greetingA] true).value ∧
    AnswersAlike (ofDocuments ⟨"en"⟩ [greetingA, greetingC, greetingA] true).value
      (ofDocuments ⟨"en"⟩ [greetingA, greetingC] true).value := by
  have built (ds : List Document) := built_ofDocuments ⟨"en"⟩ ds true
  have taken : ∀ e ∈ greetingB.entries, isNamed greetingA.entries e.id = true := by decide
  have hidden : SameFirst [greetingA, greetingB] [greetingA] := fun id => lookup_ignored taken id
  have twice : Rearranged [greetingA, greetingC, greetingA] [greetingA, greetingC] :=
    .again [greetingA, greetingC] [] (by simp)
  refine ⟨hidden, .single twice, ?_, ?_⟩
  · apply (determined_by_first_entries (built _) (built _) ?_ ?_).1 hidden
    all_goals rw [ofDocuments_value, ofDocuments_value]
  · apply (determined_by_first_entries (built _) (built _) ?_ ?_).2.1 (.single twice)
    all_goals rw [ofDocuments_value, ofDocuments_value]

end Bundle
end Phrasebook
