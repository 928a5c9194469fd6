import Mathlib.Data.List.Sort
import Phrasebook.Proofs.Path
import Phrasebook.Proofs.Trail
import Phrasebook.Source

/-!
What a walk through a directory finds. Every file below it is reached by exactly one list of names,
and the walk, which visits siblings by name and each directory before the siblings after it, comes
upon the files in the strict order of their paths; so sorting them changes nothing.
-/

namespace Phrasebook

open Phrasebook.Path

namespace FileNode

/-- What holds of files and links, and of a directory whenever it holds of its entries, holds of
every node. -/
@[elab_as_elim, induction_eliminator]
theorem byEntries {motive : FileNode → Prop} (file : ∀ text?, motive (.file text?))
    (link : ∀ target, motive (.link target))
    (directory : ∀ entries, (∀ e ∈ entries, motive e.2) → motive (.directory entries))
    (node : FileNode) : motive node :=
  FileNode.rec (motive_1 := motive) (motive_2 := fun entries => ∀ e ∈ entries, motive e.2)
    (motive_3 := fun e => motive e.2) file link directory (by simp)
    (fun _ _ first rest => List.forall_mem_cons.mpr ⟨first, rest⟩) (fun _ _ of => of) node

/-- The names lead from a node to a file with that text. -/
inductive Holds : FileNode → List String → Option String → Prop
  | here (text? : Option String) : Holds (.file text?) [] text?
  | inside {entries : List (String × FileNode)} {name : String} {node : FileNode}
      {names : List String} {text? : Option String} (entry : (name, node) ∈ entries)
      (rest : Holds node names text?) : Holds (.directory entries) (name :: names) text?

/-- As in a file system: the entries of a directory have different names, and each its name. -/
inductive Proper : FileNode → Prop
  | file (text? : Option String) : Proper (.file text?)
  | link (target : Path) : Proper (.link target)
  | directory {entries : List (String × FileNode)} (different : (entries.map (·.1)).Nodup)
      (named : ∀ e ∈ entries, IsFileName e.1) (proper : ∀ e ∈ entries, Proper e.2) :
      Proper (.directory entries)

variable {entries : List (String × FileNode)} {node : FileNode} {names : List String}
  {text? : Option String}

theorem Holds.isFileName (held : node.Holds names text?) (proper : node.Proper) :
    ∀ n ∈ names, IsFileName n := by
  induction held with
  | here => simp
  | inside entry rest ih =>
    cases proper with
    | directory different named inner =>
      intro n member
      rcases List.mem_cons.mp member with rfl | later
      · exact named _ entry
      · exact ih (inner _ entry) n later

theorem Holds.ne_nil (held : (directory entries).Holds names text?) : names ≠ [] := by
  cases held
  simp

/-! ### Siblings by name -/

theorem mem_byName {α : Type} {entries : List (String × α)} {e : String × α} :
    e ∈ byName entries ↔ e ∈ entries := List.mem_mergeSort

theorem byName_map {α β : Type} (g : String × α → β) (entries : List (String × α)) :
    byName (entries.map fun e => (e.1, g e)) = (byName entries).map fun e => (e.1, g e) := by
  rw [byName, byName, List.map_mergeSort]
  intro a _ b _
  rfl

theorem byName_ordered {α : Type} {entries : List (String × α)}
    (different : (entries.map (·.1)).Nodup) :
    (byName entries).Pairwise fun a b => a.1 < b.1 := by
  have weak : (byName entries).Pairwise fun a b => decide (a.1 ≤ b.1) = true := by
    apply List.pairwise_mergeSort
    · intro a b c first second
      exact decide_eq_true (le_trans (of_decide_eq_true first) (of_decide_eq_true second))
    · intro a b
      simpa using le_total a.1 b.1
  have apart : (byName entries).Pairwise fun a b => a.1 ≠ b.1 := by
    have sameNames : ((byName entries).map (·.1)).Perm (entries.map (·.1)) :=
      (List.mergeSort_perm entries _).map _
    exact List.pairwise_map.mp (sameNames.nodup_iff.mpr different)
  exact (weak.and apart).imp fun ⟨le, ne⟩ => lt_of_le_of_ne (of_decide_eq_true le) ne

/-! ### The files of a tree -/

mutual

/-- The files at and below a node, each with the names that lead to it. -/
def files : FileNode → List (List String × Option String)
  | file text? => [([], text?)]
  | link _ => []
  | directory entries =>
    (byName (entryFiles entries)).flatMap fun e => e.2.map fun f => (e.1 :: f.1, f.2)

def entryFiles : List (String × FileNode) → List (String × List (List String × Option String))
  | [] => []
  | (name, node) :: rest => (name, node.files) :: entryFiles rest

end

theorem entryFiles_eq (entries : List (String × FileNode)) :
    entryFiles entries = entries.map fun e => (e.1, e.2.files) := by
  induction entries with
  | nil => rfl
  | cons e rest ih =>
    rw [entryFiles, ih]
    rfl

theorem files_directory (entries : List (String × FileNode)) :
    (directory entries).files =
      (byName entries).flatMap fun e => e.2.files.map fun f => (e.1 :: f.1, f.2) := by
  rw [files, entryFiles_eq, byName_map, List.flatMap_map]

theorem mem_files {f : List String × Option String} : f ∈ node.files ↔ node.Holds f.1 f.2 := by
  obtain ⟨names, text?⟩ := f
  induction node generalizing names with
  | file text? =>
    rw [files, List.mem_singleton]
    constructor
    · rintro ⟨⟩
      exact .here _
    · rintro ⟨⟩
      rfl
  | link target =>
    rw [files]
    constructor
    · rintro ⟨⟩
    · rintro ⟨⟩
  | directory entries ih =>
    rw [files_directory, List.mem_flatMap]
    constructor
    · rintro ⟨e, member, found⟩
      obtain ⟨⟨rest, _⟩, inEntry, ⟨⟩⟩ := List.mem_map.mp found
      have entry := mem_byName.mp member
      exact .inside entry ((ih e entry rest).mp inEntry)
    · intro held
      cases held with
      | inside entry rest =>
        exact ⟨_, mem_byName.mpr entry, List.mem_map_of_mem ((ih _ entry _).mpr rest)⟩

/-- There is one way at most to put files in the strict order of their names. -/
theorem eq_of_ordered {fs gs : List (List String × Option String)}
    (ordered : fs.Pairwise fun f g => f.1 < g.1) (ordered' : gs.Pairwise fun f g => f.1 < g.1)
    (same : ∀ f, f ∈ fs ↔ f ∈ gs) : fs = gs := by
  have asymmetric : Std.Antisymm fun f g : List String × Option String => f.1 < g.1 :=
    ⟨fun _ _ before after => absurd after (lt_asymm before)⟩
  have irreflexive : Std.Irrefl fun f g : List String × Option String => f.1 < g.1 :=
    ⟨fun f => lt_irrefl f.1⟩
  exact ordered.eq_of_mem_iff ordered' same

/-- The files stand in the strict order of their names. -/
theorem files_ordered (proper : node.Proper) : node.files.Pairwise fun f g => f.1 < g.1 := by
  induction node with
  | file text? => simp [files]
  | link target => simp [files]
  | directory entries ih =>
    cases proper with
    | directory different named inner =>
      rw [files_directory, List.pairwise_flatMap]
      constructor
      · intro e member
        have entry := mem_byName.mp member
        rw [List.pairwise_map]
        exact (ih e entry (inner e entry)).imp fun before =>
          List.cons_lt_cons_iff.mpr (.inr ⟨rfl, before⟩)
      · refine (byName_ordered different).imp ?_
        intro a b before f fMember g gMember
        obtain ⟨_, _, rfl⟩ := List.mem_map.mp fMember
        obtain ⟨_, _, rfl⟩ := List.mem_map.mp gMember
        exact List.cons_lt_cons_iff.mpr (.inl before)

/-! ### The walk -/

theorem walkEntries_eq (p : Path) (entries : List (String × FileNode)) :
    walkEntries p entries = entries.map fun e => (e.1, e.2.walk (p.join ⟨e.1⟩)) := by
  induction entries with
  | nil => rfl
  | cons e rest ih =>
    rw [walkEntries, ih]
    rfl

theorem walk_directory (p : Path) (entries : List (String × FileNode)) :
    (directory entries).walk p = (byName entries).flatMap fun e => e.2.walk (p.join ⟨e.1⟩) := by
  rw [walk, walkEntries_eq, byName_map, List.flatMap_map]

/-- The walk finds each file under the path of its names. -/
theorem walk_eq (p : Path) (node : FileNode) :
    node.walk p = node.files.map fun f => ⟨p.joinAll f.1, f.2⟩ := by
  induction node generalizing p with
  | file text? => rfl
  | link target => rfl
  | directory entries ih =>
    rw [walk_directory, files_directory, List.map_flatMap]
    apply List.flatMap_congr
    intro e member
    rw [ih e (mem_byName.mp member), List.map_map]
    rfl

/-- The walk comes upon paths in their strict order. -/
theorem walk_ordered {p : Path} (given : p.text ≠ "") (proper : node.Proper) :
    (node.walk p).Pairwise fun f g => f.path.compareTo g.path = .lt := by
  rw [walk_eq, List.pairwise_map]
  refine (files_ordered proper).imp_of_mem ?_
  intro f g fMember gMember before
  exact (compareTo_joinAll given ((mem_files.mp fMember).isFileName proper)
    ((mem_files.mp gMember).isFileName proper)).mpr before

end FileNode

/-! ### Finding the directory -/

theorem Trail.Leads.proper {root : FileNode} {t : Trail} (leads : Leads root t)
    (proper : root.Proper) : t.node.Proper := by
  induction leads with
  | start => exact proper
  | down before here entry ih =>
    rw [here] at ih
    cases ih with
    | directory _ _ inner => exact inner _ (FileNode.mem_of_entryOf? entry)

namespace FileSystem

variable {fs : FileSystem} {p : Path} {t : Trail} {entries : List (String × FileNode)}

/-- Where a path leads to something, the same path leads there or to a link if the last link is not
followed. -/
theorem result_last_link {a : Search} (led : a.result true false = .ok t) :
    ∃ u, a.result false false = .ok u ∧ (u = t ∨ ∃ target, u.node = .link target) := by
  obtain ⟨b, run, stops⟩ := exists_stop true a
  rw [run_result run] at led
  cases stops with
  | arrived =>
    rw [result_arrived] at led
    cases led
    induction run using Relation.ReflTransGen.head_induction_on with
    | refl => exact ⟨t, result_arrived _ _ _ _, .inl rfl⟩
    | head step _ ih =>
      cases step with
      | stay here still => rwa [(Step.stay here still).result_eq]
      | up here notStill up => rwa [(Step.up here notStill up).result_eq]
      | enter here named entry notLink => rwa [(Step.enter here named entry notLink).result_eq]
      | @link t s rest target links entries here named entry _ given =>
        -- Only here do the two ways part: a link that ends the path is not followed.
        by_cases last : rest = []
        · subst last
          exact ⟨_, result_atLink here named entry false, .inr ⟨target, rfl⟩⟩
        · have followed : (rest.isEmpty && !false) = false := by simpa using last
          rwa [(Step.link here named entry followed given).result_eq]
  | atLink _ _ _ unfollowed => cases unfollowed
  | vacant here named absent =>
    rw [result_vacant here named absent] at led
    cases led
  | failed fails =>
    obtain ⟨e, fails⟩ := fails false
    rw [fails] at led
    cases led

theorem locate_last_link (located : fs.locate true false p = .ok t) :
    ∃ u, fs.locate false false p = .ok u ∧ (u = t ∨ ∃ target, u.node = .link target) := by
  have searched := searched_of_located located
  rw [searched.locate_eq] at located ⊢
  exact result_last_link located

/-- A directory is walked also if the path to it ends in a link. -/
theorem walk_of_located (located : fs.locate true false p = .ok t)
    (isDirectory : t.node = .directory entries) :
    fs.walk p = .ok ((FileNode.directory entries).walk p) := by
  obtain ⟨u, direct, rfl | ⟨target, isLink⟩⟩ := locate_last_link located
  · have first : fs.walk p = .ok (u.node.walk p) := by
      unfold FileSystem.walk
      rw [direct]
      simp only [bind, Except.bind, isDirectory]
      rfl
    rw [first, isDirectory]
  · unfold FileSystem.walk
    rw [direct]
    simp only [bind, Except.bind, isLink, located, isDirectory]
    rfl

end FileSystem

namespace Source

variable {fs : FileSystem} {root : Path} {t : Trail} {entries : List (String × FileNode)}

/-- Where a walk comes upon paths in their strict order, sorting them changes nothing. -/
theorem found_of_ordered {extension : String} {files : List FoundFile}
    (listed : walked fs root extension = .ok files)
    (ordered : files.Pairwise fun f g => f.path.compareTo g.path = .lt) :
    found fs root extension = .ok files := by
  have sorted : files.Pairwise fun f g => f.path.le g.path = true := by
    refine ordered.imp ?_
    intro f g before
    rw [Path.le, before]
    rfl
  unfold found
  rw [listed]
  exact congrArg Except.ok (List.mergeSort_of_pairwise sorted)

/-- The files found are those of the walk, as the walk comes upon them. -/
theorem found_of_located (located : fs.locate true false root = .ok t)
    (isDirectory : t.node = .directory entries) (proper : t.node.Proper) (extension : String) :
    found fs root extension = .ok
      (((FileNode.directory entries).walk root).filter
        fun f => f.path.extension? == some extension) := by
  have ordered := FileNode.walk_ordered (FileSystem.given_of_located located)
    (isDirectory ▸ proper : (FileNode.directory entries).Proper)
  apply found_of_ordered
  · unfold walked
    rw [FileSystem.walk_of_located located isDirectory]
    rfl
  · exact ordered.filter _

end Source
end Phrasebook
