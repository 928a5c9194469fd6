import Phrasebook.Proofs.Loading
import Phrasebook.Proofs.Walk

/-!
The documents of a directory are found and loaded like documents in memory. Which files are found,
and in which order, is settled by the names and the texts of the tree alone and not by the order in
which its directories list their entries.
-/

namespace Phrasebook

open Phrasebook.Path

namespace FileNode

/-- The same tree, its directories listing their entries in another order. -/
inductive Reordered : FileNode → FileNode → Prop
  | refl (node : FileNode) : Reordered node node
  | listing {entries entries' : List (String × FileNode)} (permuted : entries.Perm entries') :
      Reordered (.directory entries) (.directory entries')
  | entry {node node' : FileNode} (front : List (String × FileNode)) (name : String)
      (back : List (String × FileNode)) (inner : Reordered node node') :
      Reordered (.directory (front ++ (name, node) :: back))
        (.directory (front ++ (name, node') :: back))
  | trans {a b c : FileNode} (first : Reordered a b) (second : Reordered b c) : Reordered a c

variable {a b : FileNode}

theorem holds_directory_iff {entries : List (String × FileNode)} {names : List String}
    {text? : Option String} : (directory entries).Holds names text? ↔
      ∃ e ∈ entries, ∃ rest, names = e.1 :: rest ∧ e.2.Holds rest text? := by
  constructor
  · intro held
    cases held with
    | inside entry rest => exact ⟨_, entry, _, rfl, rest⟩
  · rintro ⟨e, entry, rest, rfl, held⟩
    exact .inside entry held

theorem Reordered.holds_iff (same : a.Reordered b) (names : List String) (text? : Option String) :
    a.Holds names text? ↔ b.Holds names text? := by
  induction same generalizing names with
  | refl node => rfl
  | listing permuted => simp only [holds_directory_iff, permuted.mem_iff]
  | entry front name back inner ih =>
    simp only [holds_directory_iff, List.mem_append, List.mem_cons, or_and_right, exists_or,
      exists_eq_left, ih]
  | trans first second ih ih' => exact (ih names).trans (ih' names)

theorem Reordered.proper (same : a.Reordered b) (proper : a.Proper) : b.Proper := by
  induction same with
  | refl node => exact proper
  | listing permuted =>
    cases proper with
    | directory different named inner =>
      refine .directory ((permuted.map _).nodup_iff.mp different) ?_ ?_
      · exact fun e member => named e (permuted.mem_iff.mpr member)
      · exact fun e member => inner e (permuted.mem_iff.mpr member)
  | entry front name back _ ih =>
    cases proper with
    | directory different named inner =>
      simp only [List.forall_mem_append, List.forall_mem_cons] at named inner
      refine .directory (by simpa using different) ?_ ?_
      · simp only [List.forall_mem_append, List.forall_mem_cons]
        exact named
      · simp only [List.forall_mem_append, List.forall_mem_cons]
        exact ⟨inner.1, ih inner.2.1, inner.2.2⟩
  | trans _ _ ih ih' => exact ih' (ih proper)

theorem Reordered.exists_entries (same : a.Reordered b) {entries : List (String × FileNode)}
    (isDirectory : a = .directory entries) : ∃ entries', b = .directory entries' := by
  induction same generalizing entries with
  | refl node => exact ⟨_, isDirectory⟩
  | listing permuted => exact ⟨_, rfl⟩
  | entry front name back inner => exact ⟨_, rfl⟩
  | trans first second ih ih' =>
    obtain ⟨between, isDirectoryToo⟩ := ih isDirectory
    exact ih' isDirectoryToo

/-- Trees that hold the same files have them in the same order. -/
theorem files_eq_of_holds (properA : a.Proper) (properB : b.Proper)
    (same : ∀ names text?, a.Holds names text? ↔ b.Holds names text?) : a.files = b.files := by
  apply eq_of_ordered (files_ordered properA) (files_ordered properB)
  intro f
  rw [mem_files, mem_files]
  exact same f.1 f.2

theorem Reordered.walk_eq (same : a.Reordered b) (proper : a.Proper) (p : Path) :
    a.walk p = b.walk p := by
  rw [FileNode.walk_eq, FileNode.walk_eq,
    files_eq_of_holds proper (same.proper proper) same.holds_iff]

end FileNode

/-! ### The files found -/

namespace Source

variable {fs gs : FileSystem} {root : Path} {t u : Trail} {entries : List (String × FileNode)}

/-- The files of an extension at and below a node, as a walk from a path comes upon them. -/
def filesBelow (node : FileNode) (root : Path) (extension : String) : List FoundFile :=
  (node.walk root).filter fun f => f.path.extension? == some extension

theorem mem_filesBelow {node : FileNode} {extension : String} {f : FoundFile} :
    f ∈ filesBelow node root extension ↔
      (∃ names, node.Holds names f.text? ∧ f.path = root.joinAll names) ∧
        f.path.extension? = some extension := by
  rw [filesBelow, List.mem_filter, beq_iff_eq, FileNode.walk_eq, List.mem_map]
  refine and_congr_left fun _ => ?_
  constructor
  · rintro ⟨⟨names, text?⟩, member, rfl⟩
    exact ⟨names, FileNode.mem_files.mp member, rfl⟩
  · rintro ⟨names, held, placed⟩
    exact ⟨(names, f.text?), FileNode.mem_files.mpr held, by rw [← placed]⟩

theorem filesBelow_ordered (given : root.text ≠ "") (proper : t.node.Proper) (extension : String) :
    (filesBelow t.node root extension).Pairwise fun f g => f.path.compareTo g.path = .lt :=
  (FileNode.walk_ordered given proper).filter _

theorem ofDirectory_of_located (located : fs.locate true false root = .ok t)
    (isDirectory : t.node = .directory entries) (proper : t.node.Proper) (extension : String) :
    ofDirectory fs root extension =
      ⟨root, .ok ((filesBelow t.node root extension).map foundEntry),
        [foundEvent root (filesBelow t.node root extension).length]⟩ := by
  have found := found_of_located located isDirectory proper extension
  rw [ofDirectory, found, filesBelow, isDirectory]

/-- Where entries are listed in another order, the same documents are discovered. -/
theorem ofDirectory_of_reordered (located : fs.locate true false root = .ok t)
    (isDirectory : t.node = .directory entries) (proper : t.node.Proper)
    (located' : gs.locate true false root = .ok u) (same : t.node.Reordered u.node)
    (extension : String) : ofDirectory gs root extension = ofDirectory fs root extension := by
  obtain ⟨entries', isDirectory'⟩ := same.exists_entries isDirectory
  rw [ofDirectory_of_located located isDirectory proper,
    ofDirectory_of_located located' isDirectory' (same.proper proper), filesBelow, filesBelow,
    same.walk_eq proper]

end Source

/-! ### The documents loaded -/

namespace Loading

open SourceEntry

/-- A schedule of the reads gives a catalog if and only if all entries give documents. -/
theorem loadInOrder_eq_ok_iff {s : Source} {entries : List SourceEntry}
    (listed : s.entries.value = .ok entries) {order : List Nat}
    (schedule : order.Perm (List.range entries.length)) (c : Catalog) :
    (loadInOrder s order).value = .ok c ↔
      ∃ ds, List.Forall₂ Gives entries ds ∧ c = file s.base ds := by
  have all : ∀ i < entries.length, i ∈ order := fun i inside =>
    schedule.mem_iff.mpr (List.mem_range.mpr inside)
  constructor
  · intro loaded
    have noFailure : order.findSome? (fun i => entries[i]?.bind failure?) = none := by
      by_contra failed
      obtain ⟨err, fails⟩ := Option.ne_none_iff_exists'.mp failed
      rw [loadInOrder_of_failure listed fails] at loaded
      cases loaded
    have eachGives : ∀ e ∈ entries, ∃ d, e.Gives d := by
      intro e member
      obtain ⟨i, inside, atPlace⟩ := List.getElem_of_mem member
      have passed := List.findSome?_eq_none_iff.mp noFailure i (all i inside)
      rw [List.getElem?_eq_getElem inside, atPlace, Option.bind_some] at passed
      exact (failure?_eq_none_iff e).mp passed
    obtain ⟨ds, gives⟩ := exists_forall₂ eachGives
    rw [loadInOrder_of_gives listed gives all] at loaded
    exact ⟨ds, gives, (Except.ok.inj loaded).symm⟩
  · rintro ⟨ds, gives, rfl⟩
    exact loadInOrder_of_gives listed gives all

theorem load_congr {s s' : Source} {entries : List SourceEntry} (base : s.base = s'.base)
    (listed : s.entries.value = .ok entries) (listed' : s'.entries.value = .ok entries) :
    (load s).value = (load s').value := by
  rw [load, load, loadInOrder_value listed, loadInOrder_value listed', discoveryOrder,
    discoveryOrder, listed, listed', base]

end Loading

section Agreement

variable {fs : FileSystem} {root : Path} {t : Trail} {entries : List (String × FileNode)}

/-- Below a directory exactly the files of an extension are discovered, in the strict order of their
paths and whatever the order in which directories list their entries; and if all of them are texts,
they are loaded as the same texts in memory are. -/
theorem Source.ofDirectory_as_memory (located : fs.locate true false root = .ok t)
    (isDirectory : t.node = .directory entries) (proper : t.node.Proper) (extension : String) :
    ∃ es, (ofDirectory fs root extension).entries.value = .ok es ∧
      (∀ e, e ∈ es ↔ ∃ names text?, t.node.Holds names text? ∧
        e = foundEntry ⟨root.joinAll names, text?⟩ ∧ e.path.extension? = some extension) ∧
      (es.Pairwise fun d e => d.path.compareTo e.path = .lt) ∧
      (∀ gs u, gs.locate true false root = .ok u → t.node.Reordered u.node →
        ofDirectory gs root extension = ofDirectory fs root extension) ∧
      ∀ texts : List (Path × String), es = texts.map (fun f => ⟨f.1, .ok f.2⟩) →
        (Loading.load (ofDirectory fs root extension)).value =
          (Loading.load (ofMemory root texts)).value ∧
        ∀ order, order.Perm (List.range es.length) → ∀ c,
          (Loading.loadInOrder (ofDirectory fs root extension) order).value = .ok c ↔
            (Loading.load (ofMemory root texts)).value = .ok c := by
  have source := ofDirectory_of_located located isDirectory proper extension
  have listed : (ofDirectory fs root extension).entries.value =
      .ok ((filesBelow t.node root extension).map foundEntry) := by rw [source]
  refine ⟨_, listed, ?_, ?_, ?_, ?_⟩
  · intro e
    rw [List.mem_map]
    constructor
    · rintro ⟨f, member, rfl⟩
      obtain ⟨⟨names, held, placed⟩, extended⟩ := mem_filesBelow.mp member
      exact ⟨names, f.text?, held, by rw [← placed], extended⟩
    · rintro ⟨names, text?, held, rfl, extended⟩
      exact ⟨⟨root.joinAll names, text?⟩, mem_filesBelow.mpr ⟨⟨names, held, rfl⟩, extended⟩, rfl⟩
  · rw [List.pairwise_map]
    exact filesBelow_ordered (FileSystem.given_of_located located) proper extension
  · intro gs u located' same
    exact ofDirectory_of_reordered located isDirectory proper located' same extension
  · intro texts given
    have inMemory : (ofMemory root texts).entries.value =
        .ok ((filesBelow t.node root extension).map foundEntry) := by
      rw [given]
      rfl
    have base : (ofDirectory fs root extension).base = (ofMemory root texts).base := rfl
    refine ⟨Loading.load_congr base listed inMemory, ?_⟩
    intro order schedule c
    have inTurn : (Loading.load (ofMemory root texts)).value = .ok c ↔ _ :=
      Loading.loadInOrder_eq_ok_iff inMemory (by rw [Loading.discoveryOrder, inMemory]) c
    rw [Loading.loadInOrder_eq_ok_iff listed schedule, inTurn, base]

end Agreement

/-! ### A directory beside a file of its name -/

/-- A path below `a` goes before the path of `a.ftl`. -/
def besides : List (String × FileNode) :=
  [("b.ftl", .file (some "b = B\n")), ("a.ftl", .file (some "a = A\n")),
    ("a", .directory [("up", .link ⟨".."⟩), ("x.ftl", .file (some "x = X\n"))]),
    ("notes", .file none)]

/-- The same entries from the last to the first. -/
def besidesAgain : List (String × FileNode) :=
  [("notes", .file none),
    ("a", .directory [("x.ftl", .file (some "x = X\n")), ("up", .link ⟨".."⟩)]),
    ("a.ftl", .file (some "a = A\n")), ("b.ftl", .file (some "b = B\n"))]

theorem besides_reordered :
    (FileNode.directory besides).Reordered (.directory besidesAgain) := by
  have inner : (FileNode.directory [("up", .link ⟨".."⟩),
      ("x.ftl", .file (some "x = X\n"))]).Reordered
      (.directory [("x.ftl", .file (some "x = X\n")), ("up", .link ⟨".."⟩)]) :=
    .listing (List.reverse_perm _).symm
  have within := inner.entry (besides.take 2) "a" [("notes", .file none)]
  exact within.trans (.listing (List.reverse_perm _).symm)

theorem besides_proper : (FileNode.directory besides).Proper := by
  refine .directory (by decide) (by decide) ?_
  intro e member
  simp only [besides, List.mem_cons, List.not_mem_nil, or_false] at member
  rcases member with rfl | rfl | rfl | rfl
  · exact .file _
  · exact .file _
  · refine .directory (by decide) (by decide) ?_
    intro e member
    simp only [List.mem_cons, List.not_mem_nil, or_false] at member
    rcases member with rfl | rfl
    · exact .link _
    · exact .file _
  · exact .file _

/-- The documents among them, by their paths. -/
def besidesTexts : List (Path × String) :=
  [(⟨"docs/a/x.ftl"⟩, "x = X\n"), (⟨"docs/a.ftl"⟩, "a = A\n"), (⟨"docs/b.ftl"⟩, "b = B\n")]

def below (entries : List (String × FileNode)) : FileSystem :=
  ⟨.directory [("docs", .directory entries)], []⟩

theorem below_locate (entries : List (String × FileNode)) :
    ∃ t, (below entries).locate true false ⟨"docs"⟩ = .ok t ∧ t.node = .directory entries := by
  refine ⟨⟨(below entries).root, [("docs", .directory entries)]⟩, ?_, rfl⟩
  have segments : FileSystem.segmentTexts ⟨"docs"⟩ = ["docs"] := by decide
  have relative : (⟨"docs"⟩ : Path).isAbsolute = false := isAbsolute_name (by decide)
  have short : (⟨"docs"⟩ : Path).text.utf8ByteSize = 4 := by decide
  simp [FileSystem.locate, segments, relative, short, FileSystem.descend, below, Trail.node,
    FileNode.entryOf?, Trail.down]

theorem besides_files : (FileNode.directory besides).files =
    [(["a", "x.ftl"], some "x = X\n"), (["a.ftl"], some "a = A\n"), (["b.ftl"], some "b = B\n"),
      (["notes"], none)] := by
  simp [FileNode.files, FileNode.entryFiles, FileNode.byName, besides, List.mergeSort,
      List.MergeSort.Internal.splitInTwo]

theorem besides_below : Source.filesBelow (.directory besides) ⟨"docs"⟩ "ftl" =
    besidesTexts.map fun f => ⟨f.1, some f.2⟩ := by
  have placed : (⟨"docs"⟩ : Path).joinAll ["a", "x.ftl"] = ⟨"docs/a/x.ftl"⟩ ∧
      (⟨"docs"⟩ : Path).joinAll ["a.ftl"] = ⟨"docs/a.ftl"⟩ ∧
      (⟨"docs"⟩ : Path).joinAll ["b.ftl"] = ⟨"docs/b.ftl"⟩ ∧
      (⟨"docs"⟩ : Path).joinAll ["notes"] = ⟨"docs/notes"⟩ := by decide +kernel
  have extended : (⟨"docs/a/x.ftl"⟩ : Path).extension? = some "ftl" ∧
      (⟨"docs/a.ftl"⟩ : Path).extension? = some "ftl" ∧
      (⟨"docs/b.ftl"⟩ : Path).extension? = some "ftl" ∧
      (⟨"docs/notes"⟩ : Path).extension? = none := by decide +kernel
  rw [Source.filesBelow, FileNode.walk_eq, besides_files]
  simp [placed, extended, besidesTexts]

theorem besides_as_memory :
    (∃ t, (below besides).locate true false ⟨"docs"⟩ = .ok t ∧ t.node = .directory besides) ∧
    (FileNode.directory besides).Proper ∧
    (Loading.load (.ofDirectory (below besides) ⟨"docs"⟩ "ftl")).value =
      (Loading.load (.ofMemory ⟨"docs"⟩ besidesTexts)).value ∧
    Source.ofDirectory (below besidesAgain) ⟨"docs"⟩ "ftl" =
      Source.ofDirectory (below besides) ⟨"docs"⟩ "ftl" := by
  refine ⟨below_locate besides, besides_proper, ?_⟩
  obtain ⟨t, located, isDirectory⟩ := below_locate besides
  obtain ⟨u, located', isDirectory'⟩ := below_locate besidesAgain
  have proper : t.node.Proper := isDirectory ▸ besides_proper
  obtain ⟨es, listed, -, -, again, loaded⟩ :=
    Source.ofDirectory_as_memory located isDirectory proper "ftl"
  have texts : es = besidesTexts.map fun f => ⟨f.1, .ok f.2⟩ := by
    rw [Source.ofDirectory_of_located located isDirectory proper, isDirectory, besides_below] at listed
    exact (Except.ok.inj listed).symm
  have reordered : t.node.Reordered u.node := by
    rw [isDirectory, isDirectory']
    exact besides_reordered
  exact ⟨(loaded besidesTexts texts).1, again _ u located' reordered⟩

end Phrasebook
