import Phrasebook.Program

/-!
The program as it is started: it looks at its environment and at the files it needs, runs, and
writes down what comes of the run.
-/

section

attribute [local instance] Phrasebook.Log.Patterns.literal

namespace Phrasebook

/-- The variables that have a say. -/
def heededVariables : List String :=
  [Settings.pathVariable, Settings.directoryVariable, Settings.localeVariable,
    Settings.isolatingVariable, Settings.levelVariable, Log.Setup.filterVariable,
    (CommandLine.acceptLanguage.standIn?).getD ""]

def lookAtEnvironment : IO Environment := do
  let pairs ← heededVariables.filterMapM fun name => do
    return (← IO.getEnv name).map fun value => (name, value)
  return .ofList pairs

/-- A link leads to where it ends; one that ends nowhere leads to the empty path. -/
partial def lookAtEntry (e : IO.FS.DirEntry) : IO FileNode := do
  match (← e.path.symlinkMetadata).type with
  | .dir =>
    let entries ← (← e.path.readDir).toList.mapM fun d => return (d.fileName, ← lookAtEntry d)
    return .directory entries
  | .symlink =>
    try return .link ⟨(← IO.FS.realPath e.path).toString⟩
    catch _ => return .link ⟨""⟩
  | _ => return .file (String.fromUTF8? (← IO.FS.readBinFile e.path))

/-- The names on the way to a path, its double dots taken by the letter. -/
def namesTo (current : List String) (p : Path) : List String :=
  p.components.foldl (fun names c =>
    match c with
    | .root => []
    | .current => names
    | .parent => names.dropLast
    | .name s => names ++ [s]) current

/-- Adds what is at a path, if anything is. -/
def lookAt (fs : FileSystem) (p : Path) : IO FileSystem := do
  let e : IO.FS.DirEntry := ⟨← IO.currentDir, p.text⟩
  if ← e.path.pathExists then
    let node ← lookAtEntry ⟨"/", (← IO.FS.realPath e.path).toString⟩
    return { fs with root := FileNode.insert node (namesTo fs.current p) fs.root }
  else return fs

/-- The empty file system, in the current directory. -/
def lookAround : IO FileSystem := do
  let current := namesTo [] ⟨(← IO.currentDir).toString⟩
  return ⟨FileNode.insert (.directory []) current (.directory []), current⟩

/-- The paths that settings can come from. -/
def settingsPaths (line? : Option CommandLine) : List Path :=
  ((line?.bind (·.config?)).toList ++ Settings.usualFiles).filter (!·.text.isEmpty)

/-- The directory that settings lead to, if they can be used. -/
def translationsPath (w : World) (line? : Option CommandLine) : List Path :=
  match line?.bind fun line => (w.settings line).toOption with
  | some s => [s.translations.directory]
  | none => []

/-- All that a run needs to know. -/
def lookAtWorld (arguments : List String) : IO World := do
  let environment ← lookAtEnvironment
  let line? := (CommandLine.read environment arguments).toOption
  let time := toString (← IO.monoMsNow)
  let files ← (settingsPaths line?).foldlM lookAt (← lookAround)
  let w : World := ⟨arguments, environment, files, time⟩
  let files ← (translationsPath w line?).foldlM lookAt files
  return { w with files }

/-- Opens the file for events and adds to it. -/
def writeLog (p : Path) (text : String) : IO Unit := do
  if let some (c :: cs) := p.parent? then
    IO.FS.createDirAll (Path.ofComponents (c :: cs)).text
  let h ← IO.FS.Handle.mk p.text .append
  h.putStr text

end Phrasebook

open Phrasebook

def main (arguments : List String) : IO UInt32 := do
  let o := (← lookAtWorld arguments).run
  if let some p := o.opened? then writeLog p (o.log (.file p))
  (← IO.getStdout).putStr o.standardOutput
  (← IO.getStderr).putStr o.standardError
  return o.ending.status.toUInt32

end
