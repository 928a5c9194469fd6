import Phrasebook.Proofs.Walk

/-!
Nodes put into a tree. A node that is put where nothing was takes the place of nothing: the tree
holds what it held before and what the node holds, and names lead where they led before.
-/

namespace Phrasebook

open Phrasebook.Path

namespace FileNode

variable {entries : List (String × FileNode)} {name other : String} {node root child : FileNode}
  {names ns : List String} {text? : Option String}

/-! ### Entries that are set -/

theorem mem_withEntry {e : String × FileNode} :
    e ∈ withEntry entries name node ↔ e = (name, node) ∨ (e ∈ entries ∧ e.1 ≠ name) := by
  unfold withEntry
  by_cases there : entries.any (·.1 == name) = true
  · obtain ⟨d, member, named⟩ : ∃ d ∈ entries, d.1 = name := by simpa using there
    rw [if_pos there, List.mem_map]
    constructor
    · rintro ⟨d, member, rfl⟩
      by_cases same : d.1 = name <;> simp [same, member]
    · rintro (rfl | ⟨member, apart⟩)
      · exact ⟨d, member, by simp [named]⟩
      · exact ⟨e, member, by simp [apart]⟩
  · have apart : ∀ d ∈ entries, d.1 ≠ name := fun d member same =>
      there (List.any_eq_true.mpr ⟨d, member, by simp [same]⟩)
    rw [if_neg there, List.mem_append, List.mem_singleton]
    constructor
    · rintro (member | rfl)
      · exact .inr ⟨member, apart e member⟩
      · exact .inl rfl
    · rintro (rfl | ⟨member, _⟩)
      · exact .inr rfl
      · exact .inl member

theorem nodup_withEntry (different : (entries.map (·.1)).Nodup) :
    ((withEntry entries name node).map (·.1)).Nodup := by
  unfold withEntry
  split
  · have same : (fun e : String × FileNode => (if e.1 == name then (name, node) else e).1) = (·.1) := by
      funext e
      by_cases named : e.1 = name <;> simp [named]
    rw [List.map_map]
    exact (congrArg (fun f => (entries.map f).Nodup) same).mpr different
  · next absent =>
    have apart : name ∉ entries.map (·.1) := by simpa using absent
    rw [List.map_append]
    exact different.append (List.nodup_singleton name) (by simpa using apart)

theorem entryOf?_withEntry (different : (entries.map (·.1)).Nodup) {found : FileNode} :
    entryOf? (withEntry entries name node) other = some found ↔
      (other = name ∧ found = node) ∨ (other ≠ name ∧ entryOf? entries other = some found) := by
  rw [entryOf?_eq_some_iff (nodup_withEntry different), entryOf?_eq_some_iff different,
    mem_withEntry, Prod.mk.injEq]
  tauto

/-! ### Nodes that are put in -/

/-- The names lead to a place in a directory where nothing is. -/
inductive Vacant : FileNode → List String → Prop
  | here {entries : List (String × FileNode)} {name : String}
      (absent : entryOf? entries name = none) (isName : IsFileName name) :
      Vacant (.directory entries) [name]
  | inside {entries : List (String × FileNode)} {name : String} {child : FileNode}
      {names : List String} (entry : entryOf? entries name = some child)
      (deeper : Vacant child names) : Vacant (.directory entries) (name :: names)

theorem vacant_of_at? (inside : root.at? names = some (.directory entries))
    (absent : entryOf? entries name = none) (isName : IsFileName name) :
    root.Vacant (names ++ [name]) := by
  induction names generalizing root with
  | nil =>
    obtain rfl := Option.some.inj ((at?_nil root).symm.trans inside)
    exact .here absent isName
  | cons n ns ih =>
    cases root with
    | file text? => cases inside
    | link target => cases inside
    | directory es =>
      obtain ⟨child, entry, deeper⟩ := Option.bind_eq_some_iff.mp inside
      exact .inside entry (ih deeper)

theorem insert_here (absent : entryOf? entries name = none) (node : FileNode) :
    insert node [name] (.directory entries) = .directory (withEntry entries name node) := by
  have alone : insert node [] (.directory []) = node := by
    unfold insert
    split
    · rfl
    · rfl
  rw [insert, absent, Option.getD_none, alone]

theorem insert_inside (entry : entryOf? entries name = some child) (node : FileNode)
    (names : List String) : insert node (name :: names) (.directory entries) =
      .directory (withEntry entries name (insert node names child)) := by
  rw [insert, entry, Option.getD_some]

theorem Proper.different (proper : Proper (.directory entries)) : (entries.map (·.1)).Nodup := by
  cases proper
  assumption

theorem Proper.isFileName (proper : Proper (.directory entries))
    (entry : entryOf? entries name = some node) : IsFileName name := by
  cases proper with
  | directory _ named _ => exact named _ (mem_of_entryOf? entry)

theorem Proper.entry (proper : Proper (.directory entries))
    (entry : entryOf? entries name = some node) : node.Proper := by
  cases proper with
  | directory _ _ inner => exact inner _ (mem_of_entryOf? entry)

theorem proper_withEntry (proper : (directory entries).Proper) (isName : IsFileName name)
    (sound : node.Proper) : (directory (withEntry entries name node)).Proper := by
  cases proper with
  | directory different named inner =>
    refine .directory (nodup_withEntry different) ?_ ?_
    · intro e member
      rcases mem_withEntry.mp member with rfl | ⟨member, _⟩
      · exact isName
      · exact named e member
    · intro e member
      rcases mem_withEntry.mp member with rfl | ⟨member, _⟩
      · exact sound
      · exact inner e member

theorem Vacant.insert_proper (vacant : root.Vacant names) (proper : root.Proper)
    (sound : node.Proper) : (insert node names root).Proper := by
  induction vacant with
  | here absent isName =>
    rw [insert_here absent]
    exact proper_withEntry proper isName sound
  | inside entry _ ih =>
    rw [insert_inside entry]
    exact proper_withEntry proper (proper.isFileName entry) (ih (proper.entry entry))

/-! ### What a tree holds with a node put in -/

theorem not_holds_directory_nil : ¬ (directory entries).Holds [] text? := nofun

theorem not_holds_empty : ¬ (directory []).Holds ns text? := by
  rintro ⟨⟩
  contradiction

theorem holds_file_iff {given? : Option String} :
    (file given?).Holds ns text? ↔ ns = [] ∧ text? = given? := by
  constructor
  · rintro ⟨⟩
    exact ⟨rfl, rfl⟩
  · rintro ⟨rfl, rfl⟩
    exact .here _

theorem holds_cons_iff (proper : (directory entries).Proper) :
    (directory entries).Holds (name :: ns) text? ↔
      ∃ child, entryOf? entries name = some child ∧ child.Holds ns text? := by
  simp only [entryOf?_eq_some_iff proper.different]
  constructor
  · rintro ⟨⟩
    exact ⟨_, ‹_›, ‹_›⟩
  · rintro ⟨child, entry, held⟩
    exact .inside entry held

/-- A tree with a node put in where nothing was holds what it held, and what the node holds at the
names of that place. -/
theorem Vacant.holds_insert (vacant : root.Vacant names) (proper : root.Proper)
    (sound : node.Proper) : (insert node names root).Holds ns text? ↔
      root.Holds ns text? ∨ ∃ rest, ns = names ++ rest ∧ node.Holds rest text? := by
  have grown := vacant.insert_proper proper sound
  induction vacant generalizing ns with
  | @here entries name absent isName =>
    rw [insert_here absent] at grown ⊢
    cases ns with
    | nil => simp [not_holds_directory_nil]
    | cons n ns =>
      rw [holds_cons_iff grown, holds_cons_iff proper]
      simp only [entryOf?_withEntry proper.different]
      by_cases same : n = name
      · subst same
        simp [absent]
      · simp [same]
  | @inside entries name child names entry deeper ih =>
    -- Below another name nothing changes, and below this one it is as for the entry there.
    have grownChild := deeper.insert_proper (proper.entry entry) sound
    rw [insert_inside entry] at grown ⊢
    cases ns with
    | nil => simp [not_holds_directory_nil]
    | cons n ns =>
      rw [holds_cons_iff grown, holds_cons_iff proper]
      simp only [entryOf?_withEntry proper.different]
      by_cases same : n = name
      · subst same
        simp [entry, ih (proper.entry entry) grownChild]
      · simp [same]

theorem Vacant.not_holds (vacant : root.Vacant names) (proper : root.Proper) (rest : List String) :
    ¬ root.Holds (names ++ rest) text? := by
  induction vacant with
  | here absent isName =>
    rw [List.singleton_append, holds_cons_iff proper, absent]
    rintro ⟨child, ⟨⟩, _⟩
  | inside entry _ ih =>
    rw [List.cons_append, holds_cons_iff proper, entry]
    rintro ⟨child, ⟨⟩, held⟩
    exact ih (proper.entry entry) held

/-! ### Where the names of a tree lead with a node put in -/

/-- The names of the first tree lead to the same in the second one, but its directories may have
more entries. -/
def Keeps (a b : FileNode) : Prop :=
  ∀ names x, a.at? names = some x → ∃ y, b.at? names = some y ∧
    (x = y ∨ ∃ es es', x = .directory es ∧ y = .directory es')

theorem Vacant.at?_insert (vacant : root.Vacant names) (proper : root.Proper) (node : FileNode) :
    (insert node names root).at? names = some node := by
  induction vacant with
  | here absent isName =>
    rw [insert_here absent, at?_directory_cons,
      (entryOf?_withEntry proper.different).mpr (.inl ⟨rfl, rfl⟩)]
    exact at?_nil node
  | inside entry _ ih =>
    rw [insert_inside entry, at?_directory_cons,
      (entryOf?_withEntry proper.different).mpr (.inl ⟨rfl, rfl⟩)]
    exact ih (proper.entry entry)

theorem keeps_withEntry (proper : (directory entries).Proper)
    (entry : ∀ child, entryOf? entries name = some child → Keeps child node) :
    Keeps (.directory entries) (.directory (withEntry entries name node)) := by
  intro names x found
  cases names with
  | nil =>
    obtain rfl := Option.some.inj found
    exact ⟨_, rfl, .inr ⟨_, _, rfl, rfl⟩⟩
  | cons n ns =>
    obtain ⟨child, there, deeper⟩ := Option.bind_eq_some_iff.mp found
    by_cases same : n = name
    · subst same
      obtain ⟨y, kept, kind⟩ := entry child there ns x deeper
      refine ⟨y, ?_, kind⟩
      rw [at?_directory_cons, (entryOf?_withEntry proper.different).mpr (.inl ⟨rfl, rfl⟩)]
      exact kept
    · refine ⟨x, ?_, .inl rfl⟩
      rw [at?_directory_cons, (entryOf?_withEntry proper.different).mpr (.inr ⟨same, there⟩)]
      exact deeper

theorem Vacant.keeps (vacant : root.Vacant names) (proper : root.Proper) (node : FileNode) :
    root.Keeps (insert node names root) := by
  induction vacant with
  | here absent isName =>
    rw [insert_here absent]
    apply keeps_withEntry proper
    intro child entry
    rw [absent] at entry
    cases entry
  | inside entry _ ih =>
    rw [insert_inside entry]
    apply keeps_withEntry proper
    intro child there
    obtain rfl := Option.some.inj (entry.symm.trans there)
    exact ih (proper.entry entry)

end FileNode

end Phrasebook
