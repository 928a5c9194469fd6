import Mathlib.Data.List.Forall2
import Phrasebook.Loading
import Phrasebook.Proofs.Catalog

/-!
Loading does not depend on the order in which reads are done. While no read fails, a run holds the
documents of the entries read so far, each in the place of its entry; when all are read, they stand
in the order of the entries. The first read that fails, in the order of the run, is the result.
-/

namespace Phrasebook

/-! ### One entry -/

namespace SourceEntry

/-- The entry is read, and its text has no fault. -/
def Gives (e : SourceEntry) (d : Document) : Prop :=
  ∃ text entries, e.content = .ok text ∧ Fluent.document text = .ok entries ∧ d = ⟨e.path, entries⟩

/-- The entry cannot be read, or its text has faults. -/
def FailsWith (e : SourceEntry) (err : LoadError) : Prop :=
  (∃ cause, e.content = .error cause ∧ err = .unreadable e.path cause) ∨
    ∃ text faults, e.content = .ok text ∧ Fluent.document text = .error faults ∧
      err = .malformed e.path faults

end SourceEntry

namespace Loading

open SourceEntry

theorem complete_eq_ok_iff (e : SourceEntry) (d : Document) :
    complete e = .ok d ↔ e.Gives d := by
  unfold complete Gives Document.read
  cases e.content with
  | error cause => simp
  | ok text => cases reading : Fluent.document text <;> simp [reading, eq_comm]

theorem complete_eq_error_iff (e : SourceEntry) (err : LoadError) :
    complete e = .error err ↔ e.FailsWith err := by
  unfold complete FailsWith Document.read
  cases e.content with
  | error cause => simp [eq_comm]
  | ok text => cases reading : Fluent.document text <;> simp [reading, eq_comm]

/-- What an entry fails with, if it fails. -/
def failure? (e : SourceEntry) : Option LoadError :=
  match complete e with
  | .error err => some err
  | .ok _ => none

theorem failure?_eq_some_iff (e : SourceEntry) (err : LoadError) :
    failure? e = some err ↔ e.FailsWith err := by
  rw [← complete_eq_error_iff, failure?]
  cases complete e <;> simp

theorem failure?_eq_none_iff (e : SourceEntry) : failure? e = none ↔ ∃ d, e.Gives d := by
  simp only [← complete_eq_ok_iff, failure?]
  cases complete e <;> simp

/-! ### One step and a run of reads -/

/-- The reads of these entries are done. -/
def reached (ds : List Document) (done : List Nat) : Pending :=
  ds.mapIdx fun i d => if i ∈ done then some d else none

theorem reached_nil (ds : List Document) : reached ds [] = ds.map fun _ => none := by
  simp [reached, List.mapIdx_eq_zipIdx_map]

theorem finish_reached {ds : List Document} {i : Nat} {d : Document} (here : ds[i]? = some d)
    (done : List Nat) : (reached ds done).finish i d = reached ds (i :: done) := by
  apply List.ext_getElem?
  intro j
  by_cases same : i = j
  · subst j
    obtain ⟨inside, atPlace⟩ := List.getElem?_eq_some_iff.mp here
    simp [Pending.finish, reached, inside, atPlace]
  · have other : j ≠ i := fun equal => same equal.symm
    simp [Pending.finish, reached, List.getElem?_set_ne same, other]

theorem reached_of_outside {ds : List Document} {i : Nat} (outside : ds[i]? = none)
    (done : List Nat) : reached ds (i :: done) = reached ds done := by
  apply List.ext_getElem?
  intro j
  by_cases same : j = i
  · subst j
    simp [reached, outside]
  · simp [reached, same]

theorem reached_of_all {ds : List Document} {done : List Nat} (all : ∀ i < ds.length, i ∈ done) :
    (reached ds done).filterMap id = ds := by
  have full : reached ds done = ds.map some := by
    apply List.ext_getElem?
    intro j
    cases here : ds[j]? with
    | none => simp [reached, here]
    | some d =>
      obtain ⟨inside, _⟩ := List.getElem?_eq_some_iff.mp here
      simp [reached, here, all j inside]
  rw [full]
  simp

variable {base : Path} {entries : List SourceEntry} {ds : List Document}

/-! A step passes over a place without entry, goes on after a read that gives a document, and ends
at one that fails. -/

theorem run_outside {i : Nat} (place : entries[i]? = none) (is : List Nat) (p : Pending) :
    run base entries (i :: is) p = run base entries is p := by
  rw [run, place]

theorem run_gives {i : Nat} {e : SourceEntry} {d : Document} (place : entries[i]? = some e)
    (given : complete e = .ok d) (is : List Nat) (p : Pending) :
    (run base entries (i :: is) p).value = (run base entries is (p.finish i d)).value := by
  rw [run, place]
  simp only [given]
  rfl

theorem run_fails {i : Nat} {e : SourceEntry} {err : LoadError} (place : entries[i]? = some e)
    (failed : complete e = .error err) (is : List Nat) (p : Pending) :
    (run base entries (i :: is) p).value = .error err := by
  rw [run, place]
  simp only [failed]
  rfl

theorem run_of_gives (gives : List.Forall₂ Gives entries ds) (order done : List Nat) :
    (run base entries order (reached ds done)).value = .ok (reached ds (order.reverse ++ done)) := by
  induction order generalizing done with
  | nil => rfl
  | cons i is ih =>
    rw [List.reverse_cons, List.append_assoc, List.singleton_append]
    cases place : entries[i]? with
    | none =>
      have outside : ds[i]? = none := by
        rw [List.getElem?_eq_none_iff] at place ⊢
        exact gives.length_eq ▸ place
      rw [run_outside place, ← reached_of_outside outside done]
      exact ih (i :: done)
    | some e =>
      obtain ⟨inside, atPlace⟩ := List.getElem?_eq_some_iff.mp place
      have insideToo : i < ds.length := gives.length_eq ▸ inside
      have here : ds[i]? = some ds[i] := List.getElem?_eq_getElem insideToo
      have given : complete e = .ok ds[i] := by
        rw [complete_eq_ok_iff, ← atPlace]
        exact gives.get inside insideToo
      rw [run_gives place given, finish_reached here]
      exact ih (i :: done)

theorem run_of_failure {order : List Nat} {err : LoadError}
    (fails : order.findSome? (fun i => entries[i]?.bind failure?) = some err) (p : Pending) :
    (run base entries order p).value = .error err := by
  induction order generalizing p with
  | nil => simp at fails
  | cons i is ih =>
    rw [List.findSome?_cons] at fails
    cases place : entries[i]? with
    | none =>
      rw [run_outside place]
      simp only [place, Option.bind_none] at fails
      exact ih fails p
    | some e =>
      simp only [place, Option.bind_some] at fails
      cases result : complete e with
      | error first =>
        have same : first = err := by simpa [failure?, result] using fails
        rw [run_fails place result, same]
      | ok d =>
        have later : is.findSome? (fun i => entries[i]?.bind failure?) = some err := by
          simpa [failure?, result] using fails
        rw [run_gives place result]
        exact ih later (p.finish i d)

/-! ### Loading -/

theorem loadInOrder_value {s : Source} (listed : s.entries.value = .ok entries)
    (order : List Nat) : (loadInOrder s order).value =
      (run s.base entries order (entries.map fun _ => none)).value.map fun p =>
        file s.base (p.filterMap id) := by
  simp only [loadInOrder, Logged.during, Logged.bind_value, listed, readInOrder]
  cases (run s.base entries order (entries.map fun _ => none)).value <;> rfl

theorem loadInOrder_of_gives {s : Source} (listed : s.entries.value = .ok entries)
    (gives : List.Forall₂ Gives entries ds) {order : List Nat}
    (all : ∀ i < entries.length, i ∈ order) :
    (loadInOrder s order).value = .ok (file s.base ds) := by
  have start : (entries.map fun _ => none) = reached ds [] := by
    rw [reached_nil, List.map_const', List.map_const', gives.length_eq]
  have done : ∀ i < ds.length, i ∈ order.reverse ++ [] := by
    intro i inside
    simpa using all i (gives.length_eq ▸ inside)
  rw [loadInOrder_value listed, start, run_of_gives gives, Except.map, reached_of_all done]

theorem loadInOrder_of_failure {s : Source} (listed : s.entries.value = .ok entries)
    {order : List Nat} {err : LoadError}
    (fails : order.findSome? (fun i => entries[i]?.bind failure?) = some err) :
    (loadInOrder s order).value = .error err := by
  rw [loadInOrder_value listed, run_of_failure fails]
  rfl

theorem exists_forall₂ {α β : Type} {R : α → β → Prop} {as : List α}
    (total : ∀ a ∈ as, ∃ b, R a b) : ∃ bs, List.Forall₂ R as bs := by
  induction as with
  | nil => exact ⟨[], .nil⟩
  | cons a as ih =>
    obtain ⟨b, related⟩ := total a List.mem_cons_self
    obtain ⟨bs, rest⟩ := ih fun c member => total c (List.mem_cons_of_mem a member)
    exact ⟨b :: bs, .cons related rest⟩

/-- However the reads are scheduled, entries that all give documents are filed in the order of the
entries; otherwise there is an error and no catalog, and the error is that of an entry which itself
cannot be read or has faults. -/
theorem loadInOrder_of_schedule (s : Source) (entries : List SourceEntry)
    (listed : s.entries.value = .ok entries) :
    ((∀ e ∈ entries, ∃ d, e.Gives d) → ∃ ds, List.Forall₂ Gives entries ds ∧
      ∀ order, order.Perm (List.range entries.length) → (loadInOrder s order).value =
        .ok (ds.foldl (fun c d => c.push (localeForPath s.base d.path) d) .empty)) ∧
    ((∃ e ∈ entries, ∃ err, e.FailsWith err) →
      ∀ order, order.Perm (List.range entries.length) → ∃ e ∈ entries, ∃ err, e.FailsWith err ∧
        (loadInOrder s order).value = .error err) := by
  constructor
  · intro allGive
    obtain ⟨ds, gives⟩ := exists_forall₂ allGive
    refine ⟨ds, gives, ?_⟩
    intro order schedule
    rw [loadInOrder_of_gives listed gives fun i inside =>
      schedule.mem_iff.mpr (List.mem_range.mpr inside)]
    simp [file, Catalog.ofList, List.foldl_map]
  · rintro ⟨e, member, err, fails⟩ order schedule
    obtain ⟨i, inside, atPlace⟩ := List.getElem_of_mem member
    have someFailure : (order.findSome? fun i => entries[i]?.bind failure?).isSome = true := by
      rw [List.findSome?_isSome_iff]
      refine ⟨i, schedule.mem_iff.mpr (List.mem_range.mpr inside), ?_⟩
      rw [List.getElem?_eq_getElem inside, atPlace, Option.bind_some,
        (failure?_eq_some_iff e err).mpr fails]
      rfl
    obtain ⟨first, found⟩ := Option.isSome_iff_exists.mp someFailure
    obtain ⟨j, _, failed⟩ := List.exists_of_findSome?_eq_some found
    obtain ⟨f, place, fFails⟩ := Option.bind_eq_some_iff.mp failed
    exact ⟨f, List.mem_of_getElem? place, first, (failure?_eq_some_iff f first).mp fFails,
      loadInOrder_of_failure listed found⟩

/-- Two texts, the second of which is done first. -/
def greetings : List SourceEntry :=
  [⟨⟨"translations/en/a.ftl"⟩, .ok "greeting = A\n"⟩,
    ⟨⟨"translations/en/b.ftl"⟩, .ok "greeting = B\n"⟩]

/-- A text and a file that holds none. -/
def halfReadable : List SourceEntry :=
  [⟨⟨"translations/en/a.ftl"⟩, .ok "greeting = A\n"⟩, ⟨⟨"translations/en/b.ftl"⟩, .error .notUtf8⟩]

theorem second_read_first :
    [1, 0].Perm (List.range 2) ∧
    (∃ ds, List.Forall₂ Gives greetings ds ∧
      (loadInOrder ⟨⟨"translations"⟩, pure (.ok greetings)⟩ [1, 0]).value =
        .ok (ds.foldl (fun c d => c.push (localeForPath ⟨"translations"⟩ d.path) d) .empty)) ∧
    ∃ e ∈ halfReadable, ∃ err, e.FailsWith err ∧
      (loadInOrder ⟨⟨"translations"⟩, pure (.ok halfReadable)⟩ [1, 0]).value = .error err := by
  have schedule : [1, 0].Perm (List.range 2) := by decide
  have whole : ∀ e ∈ greetings, ∃ d, e.Gives d := by
    intro e member
    rw [← failure?_eq_none_iff]
    simp only [greetings, List.mem_cons, List.not_mem_nil, or_false] at member
    rcases member with rfl | rfl <;> decide +kernel
  have broken : ∃ e ∈ halfReadable, ∃ err, e.FailsWith err :=
    ⟨_, List.mem_cons_of_mem _ List.mem_cons_self, _, .inl ⟨.notUtf8, rfl, rfl⟩⟩
  obtain ⟨ds, gives, loaded⟩ :=
    (loadInOrder_of_schedule ⟨⟨"translations"⟩, pure (.ok greetings)⟩ greetings rfl).1 whole
  refine ⟨schedule, ⟨ds, gives, loaded [1, 0] schedule⟩, ?_⟩
  exact (loadInOrder_of_schedule ⟨⟨"translations"⟩, pure (.ok halfReadable)⟩ halfReadable rfl).2
    broken [1, 0] schedule

/-! ### Loading in the order of discovery -/

theorem findSome?_range (entries : List SourceEntry) (f : SourceEntry → Option LoadError) :
    (List.range entries.length).findSome? (fun i => entries[i]?.bind f) =
      entries.findSome? f := by
  induction entries with
  | nil => rfl
  | cons e es ih =>
    rw [List.length_cons, List.range_succ_eq_map, List.findSome?_cons, List.findSome?_cons,
      List.findSome?_map, ← ih]
    rfl

theorem load_of_gives {s : Source} (listed : s.entries.value = .ok entries)
    (gives : List.Forall₂ Gives entries ds) : (load s).value = .ok (file s.base ds) := by
  rw [load, discoveryOrder, listed]
  exact loadInOrder_of_gives listed gives fun i inside => List.mem_range.mpr inside

theorem load_of_failure {s : Source} (listed : s.entries.value = .ok entries) {err : LoadError}
    (fails : entries.findSome? failure? = some err) : (load s).value = .error err := by
  rw [load, discoveryOrder, listed]
  exact loadInOrder_of_failure listed ((findSome?_range entries failure?).trans fails)

theorem findSome?_failure?_eq_some_iff {err : LoadError} :
    entries.findSome? failure? = some err ↔ ∃ before e after, entries = before ++ e :: after ∧
      (∀ f ∈ before, ∃ d, f.Gives d) ∧ e.FailsWith err := by
  simp only [List.findSome?_eq_some_iff, failure?_eq_some_iff, failure?_eq_none_iff]
  constructor
  · rintro ⟨before, e, after, split, fails, earlier⟩
    exact ⟨before, e, after, split, earlier, fails⟩
  · rintro ⟨before, e, after, split, earlier, fails⟩
    exact ⟨before, e, after, split, fails, earlier⟩

/-- Loading fails with the first entry that cannot be read or has faults. -/
theorem load_eq_error_iff {s : Source} (listed : s.entries.value = .ok entries) {err : LoadError} :
    (load s).value = .error err ↔ ∃ before e after, entries = before ++ e :: after ∧
      (∀ f ∈ before, ∃ d, f.Gives d) ∧ e.FailsWith err := by
  rw [← findSome?_failure?_eq_some_iff]
  constructor
  · intro failed
    cases found : entries.findSome? failure? with
    | none =>
      have allGive : ∀ e ∈ entries, ∃ d, e.Gives d := by
        intro e member
        exact (failure?_eq_none_iff e).mp (List.findSome?_eq_none_iff.mp found e member)
      obtain ⟨ds, gives⟩ := exists_forall₂ allGive
      rw [load_of_gives listed gives] at failed
      cases failed
    | some first =>
      rw [load_of_failure listed found] at failed
      cases failed
      rfl
  · exact load_of_failure listed

theorem load_of_undiscovered {s : Source} {err : LoadError} (failed : s.entries.value = .error err) :
    (load s).value = .error err := by
  simp only [load, loadInOrder, Logged.during, Logged.bind_value, failed]
  rfl

theorem get?_file (base : Path) (ds : List Document) (name : String) :
    (file base ds).get? name =
      Catalog.shelved (ds.filter fun d => (localeForPath base d.path).name == name) := by
  rw [file, Catalog.get?_ofList, Catalog.pushedFor, List.filter_map, List.map_map]
  simp [Function.comp_def]

/-! ### Texts in memory -/

/-- The document that a text reads to. -/
def Reads (f : Path × String) (d : Document) : Prop := Document.read f.1 f.2 = .ok d

theorem gives_iff_reads (f : Path × String) (d : Document) :
    Gives ⟨f.1, .ok f.2⟩ d ↔ Reads f d := (complete_eq_ok_iff ⟨f.1, .ok f.2⟩ d).symm

/-- Either all texts have documents, or there is a first one that has faults. -/
theorem reads_or_fault (files : List (Path × String)) :
    (∀ f ∈ files, ∃ d, Reads f d) ∨
      ∃ before f after faults, files = before ++ f :: after ∧ (∀ g ∈ before, ∃ d, Reads g d) ∧
        Fluent.document f.2 = .error faults := by
  induction files with
  | nil => exact .inl (by simp)
  | cons f files ih =>
    cases result : Fluent.document f.2 with
    | error faults => exact .inr ⟨[], f, files, faults, rfl, by simp, result⟩
    | ok entries =>
      have first : Reads f ⟨f.1, entries⟩ := by simp [Reads, Document.read, result]
      rcases ih with rest | ⟨before, g, after, faults, split, earlier, faulty⟩
      · exact .inl (List.forall_mem_cons.mpr ⟨⟨_, first⟩, rest⟩)
      · refine .inr ⟨f :: before, g, after, faults, by rw [split, List.cons_append], ?_, faulty⟩
        exact List.forall_mem_cons.mpr ⟨⟨_, first⟩, earlier⟩

theorem load_ofMemory_of_reads (base : Path) {files : List (Path × String)}
    (reads : List.Forall₂ Reads files ds) :
    (load (.ofMemory base files)).value = .ok (file base ds) := by
  have listed : (Source.ofMemory base files).entries.value =
      .ok (files.map fun f => ⟨f.1, .ok f.2⟩) := rfl
  have gives : List.Forall₂ Gives (files.map fun f => ⟨f.1, .ok f.2⟩) ds := by
    rw [List.forall₂_map_left_iff]
    exact reads.imp fun f d => (gives_iff_reads f d).mpr
  exact load_of_gives listed gives

theorem load_ofMemory_of_fault (base : Path) {before after : List (Path × String)}
    {f : Path × String} {faults : List Fluent.Fault} (earlier : ∀ g ∈ before, ∃ d, Reads g d)
    (faulty : Fluent.document f.2 = .error faults) :
    (load (.ofMemory base (before ++ f :: after))).value = .error (.malformed f.1 faults) := by
  have listed : (Source.ofMemory base (before ++ f :: after)).entries.value =
      .ok ((before ++ f :: after).map fun f => ⟨f.1, .ok f.2⟩) := rfl
  have passed : (before.map fun f => (⟨f.1, .ok f.2⟩ : SourceEntry)).findSome? failure? = none := by
    rw [List.findSome?_map, List.findSome?_eq_none_iff]
    intro g member
    obtain ⟨d, reads⟩ := earlier g member
    exact (failure?_eq_none_iff _).mpr ⟨d, (gives_iff_reads g d).mpr reads⟩
  have fails : failure? ⟨f.1, .ok f.2⟩ = some (.malformed f.1 faults) :=
    (failure?_eq_some_iff _ _).mpr (.inr ⟨f.2, faults, rfl, faulty, rfl⟩)
  apply load_of_failure listed
  rw [List.map_append, List.findSome?_append, passed, List.map_cons, List.findSome?_cons, fails]
  rfl

/-- Texts in memory are loaded all or not at all: as the documents they read to, each with its
locale and in the order given, or with the fault of the first text that has one. -/
theorem load_ofMemory (base : Path) (files : List (Path × String)) :
    ((∃ c, (load (.ofMemory base files)).value = .ok c) ↔
      ∀ f ∈ files, ∃ d, Document.read f.1 f.2 = .ok d) ∧
    match (load (.ofMemory base files)).value with
    | .ok c =>
      ∃ ds, List.Forall₂ (fun f d => Document.read f.1 f.2 = .ok d) files ds ∧
        (∀ name, c.get? name =
          Catalog.shelved (ds.filter fun d => (localeForPath base d.path).name == name)) ∧
        c.documentCount = files.length ∧ ∀ l ∈ c.locales, ∃ d ds, c.get? l.name = some (d :: ds)
    | .error err =>
      ∃ before f after faults, files = before ++ f :: after ∧
        (∀ g ∈ before, ∃ d, Document.read g.1 g.2 = .ok d) ∧
        Fluent.document f.2 = .error faults ∧ err = .malformed f.1 faults := by
  rcases reads_or_fault files with allRead | ⟨before, f, after, faults, rfl, earlier, faulty⟩
  · obtain ⟨ds, reads⟩ := exists_forall₂ allRead
    rw [load_ofMemory_of_reads base reads]
    refine ⟨⟨fun _ => allRead, fun _ => ⟨_, rfl⟩⟩, ds, reads, get?_file base ds, ?_, ?_⟩
    · rw [file, Catalog.documentCount_ofList, List.length_map]
      exact reads.length_eq.symm
    · intro l present
      exact (Catalog.wellFormed_ofList _).get?_of_mem_locales present
  · rw [load_ofMemory_of_fault base earlier faulty]
    refine ⟨⟨?_, ?_⟩, before, f, after, faults, rfl, earlier, faulty, rfl⟩
    · rintro ⟨c, impossible⟩
      cases impossible
    · intro allRead
      obtain ⟨d, given⟩ := allRead f (by simp)
      simp [Document.read, faulty] at given

end Loading
end Phrasebook
