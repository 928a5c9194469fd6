import Phrasebook.Log.Setup
import Phrasebook.Proofs.Opening
import Phrasebook.Proofs.Spelling

/-!
The file for events. It is the one that is set, however its path is spelled, and a path that names
no file stands for one of the usual name. It is opened once the filter is known to be good, whatever
comes of the recorder then, and no other file is made.
-/

namespace Phrasebook

namespace Path

variable {p : Path} {front : List Component} {c : Component} {name : String}

theorem AreLaidOut.last (laidOut : AreLaidOut (front ++ [c])) :
    IsInner c ∨ front = [] ∧ (c = .root ∨ c = .current) := by
  cases front with
  | nil =>
    obtain ⟨rooted | still | inner, _⟩ := laidOut
    · exact .inr ⟨rfl, .inl rooted⟩
    · exact .inr ⟨rfl, .inr still⟩
    · exact .inl inner
  | cons first rest => exact .inl (laidOut.2 c (by simp))

/-- The shapes of paths by their last component. -/
theorem components_cases (p : Path) :
    (∃ front name, p.components = front ++ [.name name] ∧ IsFileName name) ∨
    (∃ front, p.components = front ++ [.parent]) ∨
    p.components ∈ [[], [.root], [.current]] := by
  have laidOut := p.components_areLaidOut
  rcases List.eq_nil_or_concat p.components with empty | ⟨front, c, shape⟩
  · simp [empty]
  · rw [List.concat_eq_append] at shape
    rw [shape] at laidOut
    rcases laidOut.last with inner | ⟨rfl, rfl | rfl⟩
    · cases c with
      | root | current => exact inner.elim
      | parent => exact .inr (.inl ⟨front, shape⟩)
      | name segment => exact .inl ⟨front, segment, shape, inner⟩
    · simp [shape]
    · simp [shape]

theorem fileName?_of_name (shape : p.components = front ++ [.name name]) : p.fileName? = some name := by
  simp [fileName?, shape, Component.name?]

theorem parent?_of_name (shape : p.components = front ++ [.name name]) : p.parent? = some front := by
  simp [parent?, shape]

theorem parent?_of_parent (shape : p.components = front ++ [.parent]) : p.parent? = some front := by
  simp [parent?, shape]

theorem fileName?_of_parent (shape : p.components = front ++ [.parent]) : p.fileName? = none := by
  simp [fileName?, shape, Component.name?]

theorem fileName?_of_bare (shape : p.components ∈ [[], [.root], [.current]]) :
    p.fileName? = none := by
  simp only [List.mem_cons, List.not_mem_nil, or_false] at shape
  rcases shape with shape | shape | shape <;> simp [fileName?, shape, Component.name?]

theorem parent?_getD_of_bare (shape : p.components ∈ [[], [.root], [.current]]) :
    p.parent?.getD [] = [] := by
  simp only [List.mem_cons, List.not_mem_nil, or_false] at shape
  rcases shape with shape | shape | shape <;> simp [parent?, shape]

theorem parent?_areLaidOut (parent : p.parent? = some front) : AreLaidOut front := by
  unfold parent? at parent
  split at parent
  · cases parent
  · cases parent
  · next c _ last =>
    cases parent
    have shape := List.dropLast_append_getLast? c last
    have laidOut := p.components_areLaidOut
    rw [← shape] at laidOut
    exact laidOut.front

theorem isFileName_of_fileName? (named : p.fileName? = some name) : IsFileName name := by
  rcases p.components_cases with ⟨front, other, shape, isName⟩ | ⟨front, shape⟩ | shape
  · rw [fileName?_of_name shape] at named
    exact Option.some.inj named ▸ isName
  · rw [fileName?_of_parent shape] at named
    cases named
  · rw [fileName?_of_bare shape] at named
    cases named

end Path

namespace Log.Setup

open Phrasebook.Path

variable {p : Path} {front : List Component} {name : String}

theorem directory_components (p : Path) : (filePlace p).1.components =
    if p.parent?.getD [] = [] then [.current] else p.parent?.getD [] := by
  have here : (⟨"."⟩ : Path).components = [.current] := by decide
  unfold filePlace
  cases parent : p.parent? with
  | none => exact here
  | some front =>
    cases front with
    | nil => exact here
    | cons c cs => exact components_ofComponents (parent?_areLaidOut parent) (by simp)

theorem fileName_isFileName (p : Path) : IsFileName (filePlace p).2 := by
  unfold filePlace
  cases named : p.fileName? with
  | none => exact (by decide : IsFileName usualFileName)
  | some name => exact isFileName_of_fileName? named

/-- The file stands in its directory under its name. -/
theorem filePath_components (p : Path) : (filePath p).components =
    (filePlace p).1.components ++ [.name (filePlace p).2] := by
  have given : (filePlace p).1.text ≠ "" := by
    intro empty
    have nothing : (⟨""⟩ : Path).components = [] := by decide
    have somewhere := directory_components p
    rw [show (filePlace p).1 = ⟨""⟩ from congrArg Path.mk empty, nothing] at somewhere
    split at somewhere
    · cases somewhere
    · next some? => exact some? somewhere.symm
  exact components_join given (fileName_isFileName p)

/-- A path that ends in a name stands for that file. -/
theorem filePath_of_name (shape : p.components = front ++ [.name name]) : (filePlace p).2 = name ∧
    (filePath p).components = if front = [] then .current :: p.components else p.components := by
  have file : (filePlace p).2 = name := by
    rw [filePlace, fileName?_of_name shape, Option.getD_some]
  refine ⟨file, ?_⟩
  rw [filePath_components, directory_components, file, parent?_of_name shape, Option.getD_some, shape]
  by_cases alone : front = [] <;> simp [alone]

/-- A path that ends in no name stands for a file of the usual one: in the directory that the path
would be in, if it tells any, else in the current directory. -/
theorem filePath_of_nameless (nameless : ∀ front name, p.components ≠ front ++ [.name name]) :
    (filePlace p).2 = usualFileName ∧
    ((∃ front, front ≠ [] ∧ p.parent? = some front ∧ p.components = front ++ [.parent] ∧
        (filePath p).components = front ++ [.name usualFileName]) ∨
      (p.components ∈ [[], [.root], [.current], [.parent]] ∧
        (filePath p).components = [.current, .name usualFileName])) := by
  have place : p.fileName? = none → (filePlace p).2 = usualFileName := by
    intro unnamed
    rw [filePlace, unnamed, Option.getD_none]
  rcases p.components_cases with ⟨front, name, shape, _⟩ | ⟨front, shape⟩ | shape
  · exact absurd shape (nameless front name)
  · have file := place (fileName?_of_parent shape)
    have parent := parent?_of_parent shape
    rw [filePath_components, directory_components, file, parent, Option.getD_some]
    by_cases alone : front = []
    · refine ⟨rfl, .inr ⟨by simp [shape, alone], ?_⟩⟩
      rw [if_pos alone]
      rfl
    · refine ⟨rfl, .inl ⟨front, alone, rfl, shape, ?_⟩⟩
      rw [if_neg alone]
  · have file := place (fileName?_of_bare shape)
    rw [filePath_components, directory_components, file, parent?_getD_of_bare shape, if_pos rfl]
    refine ⟨rfl, .inr ⟨?_, rfl⟩⟩
    simp only [List.mem_cons, List.not_mem_nil, or_false] at shape ⊢
    tauto

/-! ### Installing a recorder -/

/-- The files once a recorder was installed, or tried to be. -/
def Installation.leave (i : Installation) (fs : FileSystem) : FileSystem :=
  i.opened?.elim fs fs.withNewFile

theorem filter_eq_error [Patterns] {s : Setup} {env : Environment} {e : SetupError}
    (failed : s.filter env = .error e) :
    ∃ cause, Filter.read s.level = .error cause ∧ e = .invalidFilter s.level cause := by
  unfold filter at failed
  split at failed
  · cases failed
  · split at failed
    · cases failed
    · next cause unread =>
      cases failed
      exact ⟨cause, unread, rfl⟩

/-- Without a filter no recorder is installed, and all files stay as they are. With one the file for
events, if any is set, is opened whether or not a recorder is there already, and at most this one
file is made. It is the file of the path that is set, be it that a dot goes before its components;
for a path that ends in no name it is one of the usual name beside what the path stands for. -/
theorem install_file [Patterns] {fs : FileSystem} (proper : fs.root.Proper) (s : Setup)
    (env : Environment) (taken : Bool) :
    (∀ e, s.filter env = .error e →
      (∃ cause, Filter.read s.level = .error cause ∧ e = .invalidFilter s.level cause) ∧
      (s.install env taken).result = .error e ∧ (s.install env taken).opened? = none ∧
      (s.install env taken).leave fs = fs) ∧
    (∀ f, s.filter env = .ok f →
      ((s.install env taken).result =
        if taken then .error .alreadyInstalled else .ok ⟨f, s.form, s.destination⟩) ∧
      (s.install env taken).opened? = s.file?.map filePath ∧
      (s.file? = none → (s.install env taken).leave fs = fs) ∧
      ∀ p, s.file? = some p → fs.opens (filePath p) = true →
        fs.root.HoldsWith (fs.newFile? (filePath p)) ((s.install env taken).leave fs).root ∧
        ((s.install env taken).leave fs).IsOpen (filePath p)) ∧
    (∀ p front name, p.components = front ++ [.name name] →
      (filePlace p).2 = name ∧
      (filePath p).components = if front = [] then .current :: p.components else p.components) ∧
    ∀ p, (∀ front name, p.components ≠ front ++ [.name name]) →
      (filePlace p).2 = usualFileName ∧
      ((∃ front, front ≠ [] ∧ p.parent? = some front ∧ p.components = front ++ [.parent] ∧
          (filePath p).components = front ++ [.name usualFileName]) ∨
        (p.components ∈ [[], [.root], [.current], [.parent]] ∧
          (filePath p).components = [.current, .name usualFileName])) := by
  refine ⟨?_, ?_, fun p front name => filePath_of_name, fun p => filePath_of_nameless⟩
  · intro e failed
    have nothing : s.install env taken = ⟨none, .error e⟩ := by rw [install, failed]
    rw [nothing]
    exact ⟨filter_eq_error failed, rfl, rfl, rfl⟩
  · intro f filtered
    rw [install, filtered]
    refine ⟨rfl, rfl, ?_, ?_⟩
    · intro unset
      rw [Installation.leave, unset]
      rfl
    · intro p set opens
      obtain ⟨o, opened⟩ := Option.isSome_iff_exists.mp opens
      have files : fs.withNewFile (filePath p) = o.files := by
        rw [FileSystem.withNewFile, opened]
        rfl
      have made : fs.newFile? (filePath p) = o.made? := by
        rw [FileSystem.newFile?, opened]
        rfl
      rw [Installation.leave, set, Option.map_some, Option.elim_some, files, made]
      exact FileSystem.opening?_holds proper opened

/-! ### A file in a directory that is not there -/

section Literal

attribute [local instance] Patterns.literal

def notesOnly : FileSystem := ⟨.directory [("notes", .file (some "n"))], []⟩

theorem notesOnly_proper : notesOnly.root.Proper := by
  refine .directory (by decide) (by decide) ?_
  intro e member
  obtain rfl := List.mem_singleton.mp member
  exact .file _

theorem notesOnly_newFile : notesOnly.newFile? ⟨"logs/run.log"⟩ = some ["logs", "run.log"] := by
  have file : FileSystem.segmentTexts ⟨"logs/run.log"⟩ = ["logs", "run.log"] ∧
      "logs/run.log".utf8ByteSize = 12 ∧ "run.log".utf8ByteSize = 7 := by decide
  have relative : (⟨"logs/run.log"⟩ : Path).isAbsolute = false := by decide +kernel
  have parent : (⟨"logs/run.log"⟩ : Path).parent? = some [.name "logs"] := by decide
  have directory : FileSystem.segmentTexts ⟨"logs"⟩ = ["logs"] ∧ "logs".utf8ByteSize = 4 ∧
      ofComponents [.name "logs"] = ⟨"logs"⟩ := by decide
  have relative' : (⟨"logs"⟩ : Path).isAbsolute = false := isAbsolute_name (by decide)
  have absent : notesOnly.openedThere? ⟨"logs/run.log"⟩ = none := by
    simp [FileSystem.openedThere?, FileSystem.vacancy?, FileSystem.locate, file, directory, relative,
      FileSystem.descend, Trail.node, FileNode.entryOf?, notesOnly]
  have made : notesOnly.withDirectories? [] [.name "logs"] =
      some ⟨.directory [("notes", .file (some "n")), ("logs", .directory [])], []⟩ := by
    simp [FileSystem.withDirectories?, FileSystem.withDirectory?, FileSystem.vacancy?,
      FileSystem.locate, directory, relative', FileSystem.descend, Trail.node, Trail.down,
      Trail.names, FileNode.entryOf?, FileSystem.withNode, FileNode.insert, FileNode.withEntry,
      notesOnly]
  rw [FileSystem.newFile?, FileSystem.opening?, absent, parent]
  simp [made, FileSystem.openedThere?, FileSystem.vacancy?, FileSystem.locate, file, directory,
    relative, FileSystem.descend, Trail.node, Trail.down, Trail.names, FileNode.entryOf?]

/-- Events are set to go to a file, in the spelling of a directory. -/
def toRunLog : Setup := { usual with file? := some ⟨"logs//run.log/"⟩ }

def unset : Environment := fun _ => none

/-- The file is made together with its directory although there is a recorder already, and nothing
is made for a level that is no filter. -/
theorem run_log_made :
    notesOnly.root.Proper ∧
    (toRunLog.install unset true).result = .error .alreadyInstalled ∧
    notesOnly.root.HoldsWith (some ["logs", "run.log"])
      ((toRunLog.install unset true).leave notesOnly).root ∧
    ((toRunLog.install unset true).leave notesOnly).IsOpen ⟨"logs/run.log"⟩ ∧
    (filePath ⟨"logs//run.log/"⟩).components = (⟨"logs//run.log/"⟩ : Path).components ∧
    (filePath ⟨".."⟩).components = [.current, .name "tessera.log"] ∧
    ({ toRunLog with level := "a=b" }.install unset false).leave notesOnly = notesOnly := by
  obtain ⟨f, filtered⟩ : ∃ f, toRunLog.filter unset = .ok f := ⟨_, rfl⟩
  obtain ⟨e, failed⟩ : ∃ e, { toRunLog with level := "a=b" }.filter unset = .error e := ⟨_, rfl⟩
  obtain ⟨-, opened, named, nameless⟩ := install_file notesOnly_proper toRunLog unset true
  obtain ⟨unfiltered, -, -, -⟩ :=
    install_file notesOnly_proper { toRunLog with level := "a=b" } unset false
  obtain ⟨result, -, -, made⟩ := opened f filtered
  have place : filePath ⟨"logs//run.log/"⟩ = ⟨"logs/run.log"⟩ := by decide +kernel
  have opens : notesOnly.opens (filePath ⟨"logs//run.log/"⟩) = true := by
    obtain ⟨o, opened, -⟩ := Option.bind_eq_some_iff.mp notesOnly_newFile
    rw [place, FileSystem.opens, opened]
    rfl
  obtain ⟨holds, isOpen⟩ := made _ rfl opens
  rw [place] at holds isOpen
  rw [notesOnly_newFile] at holds
  refine ⟨notesOnly_proper, result, holds, isOpen, ?_, ?_, (unfiltered e failed).2.2.2⟩
  · exact (named ⟨"logs//run.log/"⟩ [.name "logs"] "run.log" (by decide)).2
  · have shape : (⟨".."⟩ : Path).components = [.parent] := by decide
    have unnamed : ∀ front name, (⟨".."⟩ : Path).components ≠ front ++ [.name name] := by
      intro front name same
      simpa [shape] using congrArg List.getLast? same
    rcases (nameless ⟨".."⟩ unnamed).2 with ⟨front, given, -, spelled, -⟩ | ⟨-, here⟩
    · rw [shape] at spelled
      exact absurd (by simpa using spelled) given
    · exact here

end Literal

end Log.Setup
end Phrasebook
