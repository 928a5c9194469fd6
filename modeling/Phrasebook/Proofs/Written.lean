import Mathlib.Tactic.Choose
import Phrasebook.Command.Run
import Phrasebook.Proofs.FirstEntry
import Phrasebook.Proofs.Lines
import Phrasebook.Proofs.Loading
import Phrasebook.Proofs.Negotiation
import Phrasebook.Proofs.Walk

/-!
The text that a translator writes is the text that a user sees. A tree of sheets is found, read and
filed without loss, so the answer to a key can be given in terms of what is written: the text of the
first line of its name in the files of the first locale that has any.
-/

namespace Phrasebook

open Fluent Phrasebook.Path

/-! ### Lines and keys -/

/-- The part of a key that names a message. -/
def messageName (key : String) : String := String.ofList (key.toList.takeWhile (· != '.'))

theorem splitKey_fst (key : String) : (splitKey key).1 = messageName key := by
  unfold splitKey messageName
  cases rest : key.toList.dropWhile (· != '.') with
  | nil =>
    have whole := List.takeWhile_append_dropWhile (p := (· != '.')) (l := key.toList)
    rw [rest, List.append_nil] at whole
    simp [rest, whole]
  | cons dot name => simp [rest]

theorem lookup_lines (ls : List Line) (id : String) :
    lookup (ls.map Line.entry) id = (ls.find? (·.id == id)).map Line.entry := by
  rw [lookup, List.find?_map]
  rfl

/-- A bundle of lines answers with the text of the first line of a name. -/
theorem format_lines {ds : List Document} {ls : List Line}
    (written : Bundle.entriesOf ds = ls.map Line.entry) (locale : Locale) (isolating : Bool)
    (key : String) (args? : Option ArgumentSet) :
    ((Bundle.ofDocuments locale ds isolating).value.format key args?).value =
      (ls.find? (·.id == messageName key)).map (·.text) := by
  have found : (Bundle.ofDocuments locale ds isolating).value.message? (messageName key) =
      (ls.find? (·.id == messageName key)).map Line.entry := by
    rw [Bundle.message?_ofDocuments, written, lookup_lines]
    cases ls.find? (·.id == messageName key) <;> rfl
  have pattern : (Bundle.ofDocuments locale ds isolating).value.pattern? key =
      (ls.find? (·.id == messageName key)).map fun l => [.text l.text] := by
    have opened : (Bundle.ofDocuments locale ds isolating).value.pattern? key =
        ((Bundle.ofDocuments locale ds isolating).value.message? (splitKey key).1).bind
          (·.patternFor? (splitKey key).2) := rfl
    rw [opened, splitKey_fst, found]
    cases ls.find? (·.id == messageName key) with
    | none => rfl
    | some l =>
      have noAttribute (name? : Option String) : name?.bind l.entry.attribute? = none := by
        cases name? <;> rfl
      simp only [Option.map_some, Option.bind_some, Entry.patternFor?, noAttribute]
      rfl
  rw [Bundle.format_value, pattern, Option.map_map]
  congr 1
  funext l
  exact congrArg Prod.fst (Bundle.format_text _ l.text)

/-! ### Arguments -/

theorem messageArgument_of_wellFormed {name : String} (given : name ≠ "")
    (noSign : '=' ∉ name.toList) (value : String) :
    messageArgument (name ++ "=" ++ value) = .ok (name, value) := by
  have plain := Text.bne_of_not_mem noSign
  have spelled : (name ++ "=" ++ value).toList = name.toList ++ '=' :: value.toList := by simp
  have front := Text.takeWhile_cut plain (Text.bne_self '=') value.toList
  have back := Text.dropWhile_cut plain (Text.bne_self '=') value.toList
  obtain ⟨c, cs, split⟩ := List.exists_cons_of_ne_nil (by simpa using given : name.toList ≠ [])
  have whole : String.ofList (c :: cs) = name := by rw [← split, String.ofList_toList]
  simp only [messageArgument, spelled, front, back]
  rw [split]
  simp only [whole, String.ofList_toList]

/-- Written `name=value`, with a name. -/
def IsArgument (a : String) : Prop :=
  ∃ name value, name ≠ "" ∧ '=' ∉ name.toList ∧ a = name ++ "=" ++ value

theorem messageArguments_of_wellFormed {arguments : List String}
    (wellFormed : ∀ a ∈ arguments, IsArgument a) :
    ∃ pairs, messageArguments arguments = .ok pairs := by
  unfold messageArguments
  induction arguments with
  | nil => exact ⟨[], rfl⟩
  | cons a as ih =>
    obtain ⟨name, value, given, noSign, rfl⟩ := wellFormed a List.mem_cons_self
    obtain ⟨pairs, rest⟩ := ih fun b member => wellFormed b (List.mem_cons_of_mem _ member)
    refine ⟨(name, value) :: pairs, ?_⟩
    rw [List.mapM_cons, messageArgument_of_wellFormed given noSign, rest]
    rfl

/-! ### Trees of sheets -/

/-- A file of a tree: the names on the way to it, and what is written in it. -/
structure WrittenFile where
  names : List String
  sheet : Sheet

namespace WrittenFile

/-- The file when it is found below a path. -/
def found (root : Path) (w : WrittenFile) : FoundFile := ⟨root.joinAll w.names, some w.sheet.text⟩

def document (root : Path) (w : WrittenFile) : Document :=
  ⟨root.joinAll w.names, w.sheet.lines.map Line.entry⟩

/-- The first name on the way to a file is its locale. -/
def isIn (w : WrittenFile) (locale : String) : Bool := w.names.head? == some locale

end WrittenFile

/-- Names of a file that is read as a document. -/
def IsDocument (names : List String) : Prop :=
  (names.getLast?.bind fun n => (⟨n⟩ : Path).extension?) = some Source.usualExtension

instance (names : List String) : Decidable (IsDocument names) :=
  inferInstanceAs (Decidable (_ = _))

/-- The documents of a tree, in the order of their names. -/
structure FileNode.Lists (tree : FileNode) (ws : List WrittenFile) : Prop where
  ordered : ws.Pairwise fun v w => v.names < w.names
  members : ∀ names text?, (tree.Holds names text? ∧ IsDocument names) ↔
    ∃ sheet, ⟨names, sheet⟩ ∈ ws ∧ text? = some sheet.text

namespace FileNode

variable {tree : FileNode} {ws : List WrittenFile}

/-- There is one list of the documents of a tree at most, and the walk gives it. -/
theorem lists_iff (proper : tree.Proper) :
    tree.Lists ws ↔ tree.files.filter (fun f => decide (IsDocument f.1)) =
      ws.map fun w => (w.names, some w.sheet.text) := by
  have ordered := (files_ordered proper).filter fun f => decide (IsDocument f.1)
  constructor
  · intro lists
    have listed : (ws.map fun w => (w.names, some w.sheet.text)).Pairwise fun f g => f.1 < g.1 :=
      List.pairwise_map.mpr lists.ordered
    refine eq_of_ordered ordered listed ?_
    intro f
    rw [List.mem_filter, decide_eq_true_eq, mem_files, lists.members, List.mem_map]
    constructor
    · rintro ⟨sheet, member, text⟩
      exact ⟨⟨f.1, sheet⟩, member, Prod.ext rfl text.symm⟩
    · rintro ⟨w, member, rfl⟩
      exact ⟨w.sheet, member, rfl⟩
  · intro same
    rw [same, List.pairwise_map] at ordered
    refine ⟨ordered, ?_⟩
    intro names text?
    have member : (names, text?) ∈ tree.files.filter (fun f => decide (IsDocument f.1)) ↔
        tree.Holds names text? ∧ IsDocument names := by
      rw [List.mem_filter, decide_eq_true_eq, mem_files]
    rw [← member, same, List.mem_map]
    constructor
    · rintro ⟨w, inList, ⟨⟩⟩
      exact ⟨w.sheet, inList, rfl⟩
    · rintro ⟨sheet, inList, rfl⟩
      exact ⟨⟨names, sheet⟩, inList, rfl⟩

/-- A tree whose documents are all sheets has a list of them. -/
theorem exists_lists (proper : tree.Proper)
    (plain : ∀ names text?, tree.Holds names text? → IsDocument names →
      ∃ sheet : Sheet, text? = some sheet.text) :
    ∃ ws, tree.Lists ws := by
  have sheets : ∀ f ∈ tree.files.filter (fun f => decide (IsDocument f.1)),
      ∃ sheet : Sheet, f.2 = some sheet.text := by
    intro f member
    rw [List.mem_filter, decide_eq_true_eq, mem_files] at member
    exact plain f.1 f.2 member.1 member.2
  choose! sheet text using sheets
  refine ⟨(tree.files.filter fun f => decide (IsDocument f.1)).map fun f => ⟨f.1, sheet f⟩,
    (lists_iff proper).mpr ?_⟩
  have same : ∀ f ∈ tree.files.filter (fun f => decide (IsDocument f.1)),
      (f.1, some (sheet f).text) = id f := by
    intro f member
    rw [← text f member]
    rfl
  rw [List.map_map]
  exact ((List.map_congr_left same).trans (List.map_id _)).symm

end FileNode

section Found

variable {root : Path} {entries : List (String × FileNode)} {ws : List WrittenFile}

theorem isDocument_iff (given : root.text ≠ "") {names : List String} (some? : names ≠ [])
    (areNames : ∀ n ∈ names, IsFileName n) :
    (root.joinAll names).extension? = some Source.usualExtension ↔ IsDocument names := by
  have split := (List.dropLast_concat_getLast some?).symm
  rw [split] at areNames ⊢
  rw [extension?_joinAll given areNames, IsDocument, List.getLast?_concat]
  rfl

theorem localeForPath_joinAll (given : root.text ≠ "") {first : String} {rest : List String}
    (areNames : ∀ n ∈ first :: rest, IsFileName n) :
    localeForPath root (root.joinAll (first :: rest)) = ⟨first⟩ := by
  rw [localeForPath, below_joinAll given areNames]
  rfl

variable (given : root.text ≠ "") (proper : (FileNode.directory entries).Proper)
  (lists : (FileNode.directory entries).Lists ws)
include given proper lists

/-- The documents of a tree are found as they are listed. -/
theorem documents_found :
    (((FileNode.directory entries).walk root).filter
      fun f => f.path.extension? == some Source.usualExtension) = ws.map (·.found root) := by
  have sameFiles : (FileNode.directory entries).files.filter
      (fun f => (root.joinAll f.1).extension? == some Source.usualExtension) =
      (FileNode.directory entries).files.filter fun f => decide (IsDocument f.1) := by
    apply List.filter_congr
    intro f member
    have held := FileNode.mem_files.mp member
    rw [Bool.eq_iff_iff, beq_iff_eq, decide_eq_true_eq]
    exact isDocument_iff given held.ne_nil (held.isFileName proper)
  rw [FileNode.walk_eq, List.filter_map]
  simp only [Function.comp_def]
  rw [sameFiles, (FileNode.lists_iff proper).mp lists, List.map_map]
  rfl

theorem localeForPath_document {w : WrittenFile} (member : w ∈ ws) (name : String) :
    ((localeForPath root (w.document root).path).name == name) = w.isIn name := by
  have held := ((lists.members w.names _).mpr ⟨w.sheet, member, rfl⟩).1
  have areNames := held.isFileName proper
  obtain ⟨first, rest, split⟩ := List.exists_cons_of_ne_nil held.ne_nil
  rw [split] at areNames
  rw [WrittenFile.document, WrittenFile.isIn, split, localeForPath_joinAll given areNames]
  rfl

/-- The documents filed for a locale are those under its name. -/
theorem get?_file_documents (name : String) :
    (Loading.file root (ws.map (·.document root))).get? name =
      Catalog.shelved ((ws.filter (·.isIn name)).map (·.document root)) := by
  have sameDocuments : ws.filter
      (fun w => (localeForPath root (w.document root).path).name == name) =
      ws.filter (·.isIn name) := by
    apply List.filter_congr
    intro w member
    exact localeForPath_document given proper lists member name
  rw [Loading.get?_file, List.filter_map]
  simp only [Function.comp_def]
  rw [sameDocuments]

end Found

/-! ### The answer -/

/-- The lines of the first locale that has any documents, in the order of its files. -/
def linesFor (ws : List WrittenFile) (locales : List String) : List Line :=
  match locales.find? fun name => ws.any (·.isIn name) with
  | some name => (ws.filter (·.isIn name)).flatMap (·.sheet.lines)
  | none => []

/-- The text of the first line that defines the message of a key, or else the key. -/
def written (ws : List WrittenFile) (locales : List String) (key : String) : String :=
  (((linesFor ws locales).find? (·.id == messageName key)).map (·.text)).getD key

theorem entriesOf_documents (root : Path) (ws : List WrittenFile) :
    Bundle.entriesOf (ws.map (·.document root)) =
      (ws.flatMap (·.sheet.lines)).map Line.entry := by
  rw [Bundle.entriesOf, List.flatMap_map, List.map_flatMap]
  rfl

section Run

variable {s : Settings} {fs : FileSystem} {t : Trail} {entries : List (String × FileNode)}
  {ws : List WrittenFile}

/-- All that is written is loaded. -/
theorem catalog_value (located : fs.locate true false s.translations.directory = .ok t)
    (isDirectory : t.node = .directory entries) (proper : t.node.Proper) (lists : t.node.Lists ws) :
    (s.catalog fs).value = .ok (Loading.file s.translations.directory
      (ws.map (·.document s.translations.directory))) := by
  have given := FileSystem.given_of_located located
  have found := Source.found_of_located located isDirectory proper Source.usualExtension
  rw [isDirectory] at proper lists
  rw [documents_found given proper lists] at found
  have listed : (Source.ofDirectory fs s.translations.directory
      Source.usualExtension).entries.value =
      .ok ((ws.map (·.found s.translations.directory)).map Source.foundEntry) := by
    rw [Source.ofDirectory, found]
  have gives : List.Forall₂ SourceEntry.Gives
      ((ws.map (·.found s.translations.directory)).map Source.foundEntry)
      (ws.map (·.document s.translations.directory)) := by
    rw [List.map_map, List.forall₂_map_left_iff, List.forall₂_map_right_iff, List.forall₂_same]
    intro w _
    exact ⟨w.sheet.text, _, rfl, w.sheet.document_text, rfl⟩
  exact Loading.load_of_gives listed gives

/-- The bundle of the locale that is chosen answers with what is written for it. -/
theorem localize_file {root : Path} (given : root.text ≠ "")
    (proper : (FileNode.directory entries).Proper)
    (lists : (FileNode.directory entries).Lists ws) (n : Negotiator) (requested : List String)
    (key : String) (args? : Option ArgumentSet) :
    (Localizer.localize ⟨(n.negotiate (Loading.file root (ws.map (·.document root)))
      requested).value⟩ key args?).value = written ws (requested ++ [n.fallback.name]) key := by
  have supports : (Loading.file root (ws.map (·.document root))).supports =
      fun name => ws.any (·.isIn name) := by
    funext name
    rw [Catalog.supports_eq_get?_isSome, get?_file_documents given proper lists,
      Catalog.isSome_shelved, Bool.eq_iff_iff]
    simp
  rw [Localizer.localize_value, Negotiator.negotiate_value, Negotiation.choose?_eq, supports,
    written, linesFor]
  cases (requested ++ [n.fallback.name]).find? fun name => ws.any (·.isIn name) with
  | none => rfl
  | some name =>
    have documents : (Loading.file root (ws.map (·.document root))).documentsOf name =
        (ws.filter (·.isIn name)).map (·.document root) := by
      rw [Catalog.documentsOf, get?_file_documents given proper lists, Catalog.getD_shelved]
    have lines := entriesOf_documents root (ws.filter (·.isIn name))
    simp only [Option.map_some, Option.toList_some, List.map_cons, List.map_nil,
      List.findSome?_cons, List.findSome?_nil, documents]
    rw [format_lines lines]
    cases ((ws.filter (·.isIn name)).flatMap (·.sheet.lines)).find?
      (·.id == messageName key) <;> rfl

namespace Command

/-- In a tree of sheets every key is answered: with the text of the first line of its name among
the documents of the first locale, of those requested and the default, that has any; or with the key
itself. -/
theorem run_localize_written (located : fs.locate true false s.translations.directory = .ok t)
    (isDirectory : t.node = .directory entries) (proper : t.node.Proper)
    (plain : ∀ names text?, t.node.Holds names text? → IsDocument names →
      ∃ sheet : Sheet, text? = some sheet.text)
    {arguments : List String} (wellFormed : ∀ a ∈ arguments, IsArgument a) (key : String)
    (p : Preferences) :
    (∃ ws, t.node.Lists ws) ∧ ∀ ws, t.node.Lists ws →
      (run s fs (.localize key arguments p)).value =
        .ok (written ws (p.requested.value ++ [s.translations.defaultLocale]) key) := by
  refine ⟨FileNode.exists_lists proper plain, ?_⟩
  intro ws lists
  obtain ⟨pairs, split⟩ := messageArguments_of_wellFormed wellFormed
  have loaded := catalog_value located isDirectory proper lists
  have given := FileSystem.given_of_located located
  rw [isDirectory] at proper lists
  have answered := localize_file given proper lists s.negotiator p.requested.value key
    (some (argumentSet pairs))
  simp only [run, withCatalog, Logged.bind_value, loaded, localized, split, Logged.pure_value,
    answered]
  rfl

end Command

end Run

/-! ### A tree of two locales -/

def hello : Line := ⟨"greeting", "Hello", by decide, by decide, by decide, by decide, by decide⟩

def welcome : Line :=
  ⟨"greeting", "Welcome", by decide, by decide, by decide, by decide, by decide⟩

/-- The files of one locale come in no order, and one of them is no document. -/
def localeEntries : List (String × FileNode) :=
  [("fr", .directory []), ("en", .directory [("late.ftl", .file (some "greeting = Welcome\n")),
    ("app.ftl", .file (some "greeting = Hello\r\ngreeting = Welcome")), ("notes", .file none)])]

def localeFiles : FileSystem := ⟨.directory [("translations", .directory localeEntries)], []⟩

def localeList : List WrittenFile :=
  [⟨["en", "app.ftl"], .next hello .crlf (.last welcome)⟩,
    ⟨["en", "late.ftl"], .next welcome .feed .empty⟩]

theorem localeEntries_proper : (FileNode.directory localeEntries).Proper := by
  refine .directory (by decide) (by decide) ?_
  intro e member
  simp only [localeEntries, List.mem_cons, List.not_mem_nil, or_false] at member
  rcases member with rfl | rfl
  · exact .directory (by decide) (by simp) (by simp)
  · refine .directory (by decide) (by decide) ?_
    intro e member
    simp only [List.mem_cons, List.not_mem_nil, or_false] at member
    rcases member with rfl | rfl | rfl <;> exact .file _

theorem localeEntries_lists : (FileNode.directory localeEntries).Lists localeList := by
  rw [FileNode.lists_iff localeEntries_proper]
  have names : FileNode.files (.directory localeEntries) =
      [(["en", "app.ftl"], some "greeting = Hello\r\ngreeting = Welcome"),
        (["en", "late.ftl"], some "greeting = Welcome\n"), (["en", "notes"], none)] := by
    simp [FileNode.files, FileNode.entryFiles, FileNode.byName, localeEntries, List.mergeSort,
      List.MergeSort.Internal.splitInTwo]
  rw [names]
  decide

theorem localeFiles_locate : ∃ t, localeFiles.locate true false ⟨"translations"⟩ = .ok t ∧
    t.node = .directory localeEntries := by
  refine ⟨⟨localeFiles.root, [("translations", .directory localeEntries)]⟩, ?_, rfl⟩
  have segments : FileSystem.segmentTexts ⟨"translations"⟩ = ["translations"] := by decide
  have relative : (⟨"translations"⟩ : Path).isAbsolute = false := isAbsolute_name (by decide)
  have short : (⟨"translations"⟩ : Path).text.utf8ByteSize = 12 := by decide
  simp [FileSystem.locate, segments, relative, short, FileSystem.descend, localeFiles, Trail.node,
    FileNode.entryOf?, Trail.down]

theorem hello_written_and_seen :
    (∃ t, localeFiles.locate true false ⟨"translations"⟩ = .ok t ∧
      t.node = .directory localeEntries) ∧
    (Command.run Settings.usual localeFiles
      (.localize "greeting.title" ["who=Ann"] ⟨["de", "en"], none⟩)).value = .ok "Hello" := by
  refine ⟨localeFiles_locate, ?_⟩
  obtain ⟨t, located, isDirectory⟩ := localeFiles_locate
  have proper : t.node.Proper := isDirectory ▸ localeEntries_proper
  have lists : t.node.Lists localeList := isDirectory ▸ localeEntries_lists
  have plain : ∀ names text?, t.node.Holds names text? → IsDocument names →
      ∃ sheet : Sheet, text? = some sheet.text := by
    intro names text? held isDocument
    obtain ⟨sheet, -, text⟩ := (lists.members names text?).mp ⟨held, isDocument⟩
    exact ⟨sheet, text⟩
  have wellFormed : ∀ a ∈ ["who=Ann"], IsArgument a := by
    intro a member
    rw [List.mem_singleton.mp member]
    exact ⟨"who", "Ann", by decide, by decide, by decide⟩
  have seen := (Command.run_localize_written (s := Settings.usual) located isDirectory proper plain
    wellFormed "greeting.title" ⟨["de", "en"], none⟩).2 localeList lists
  have answer : written localeList ["de", "en", "en"] "greeting.title" = "Hello" := by decide
  exact seen.trans (congrArg Except.ok answer)

end Phrasebook
