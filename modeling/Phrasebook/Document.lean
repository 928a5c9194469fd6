import Phrasebook.Files.Error
import Phrasebook.Fluent.Reader
import Phrasebook.Path

/-!
Documents of messages, and why one cannot be had.
-/

namespace Phrasebook

inductive LoadError where
  /-- The search for documents failed at a path. -/
  | discovery (path : Path) (cause : FileError)
  | unreadable (path : Path) (cause : FileError)
  | malformed (path : Path) (faults : List Fluent.Fault)
  deriving DecidableEq, Repr

namespace LoadError

def path : LoadError → Path
  | discovery p _ | unreadable p _ | malformed p _ => p

/-- What the system said when the search failed. -/
def walkMessage (path : Path) (cause : FileError) : String :=
  "IO error for operation on " ++ path.text ++ ": " ++ cause.message

/-- What failed. -/
def attempt : LoadError → String
  | discovery .. => "discover translations under"
  | unreadable .. => "read resource file"
  | malformed .. => "parse Fluent resource"

/-- Why it failed. -/
def reason : LoadError → String
  | discovery p cause => walkMessage p cause
  | unreadable _ cause => cause.message
  | malformed _ faults => Fluent.faultsText faults

def message (e : LoadError) : String :=
  "Failed to " ++ e.attempt ++ " " ++ e.path.text ++ ": " ++ e.reason

/-- The messages of the errors behind this one, the nearest first. -/
def causes : LoadError → List String
  | discovery p cause => [walkMessage p cause, cause.message]
  | unreadable _ cause => [cause.message]
  | malformed .. => []

end LoadError

/-- The entries of a text without faults, and where it came from. -/
structure Document where
  path : Path
  entries : List Fluent.Entry

namespace Document

def read (path : Path) (source : String) : Except LoadError Document :=
  match Fluent.document source with
  | .ok entries => .ok ⟨path, entries⟩
  | .error faults => .error (.malformed path faults)

/-- The messages in the order of the text, without the terms. -/
def messageIds (d : Document) : List String :=
  (d.entries.filter (·.isMessage)).map (·.id)

def defines (d : Document) (id : String) : Bool := d.messageIds.contains id

/-- A one-line description. -/
def summary (d : Document) : String :=
  "ResourceDocument \x7b path: " ++ Text.quotedPath d.path.text ++ ", messages: " ++
    toString d.messageIds.length ++ " \x7d"

end Document
end Phrasebook
