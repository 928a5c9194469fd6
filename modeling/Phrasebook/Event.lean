/-!
Events that the program reports about its work, and computations that report events.
-/

namespace Phrasebook

inductive Level where
  | trace
  | debug
  | info
  | warn
  | error
  deriving DecidableEq, Repr

namespace Level

/-- The more severe, the smaller. -/
def verbosity : Level → Nat
  | error => 1
  | warn => 2
  | info => 3
  | debug => 4
  | trace => 5

def text : Level → String
  | trace => "TRACE"
  | debug => "DEBUG"
  | info => "INFO"
  | warn => "WARN"
  | error => "ERROR"

end Level

/-- The value of a field of an event: a text or a count. -/
inductive FieldValue where
  | text (s : String)
  | count (n : Nat)
  deriving DecidableEq, Repr

abbrev Fields := List (String × FieldValue)

/-- An activity during which events happen. -/
structure Span where
  name : String
  target : String
  level : Level
  fields : Fields
  deriving DecidableEq, Repr

/-- Something that happened: how grave, in which part of the program, what, and with which data.
`spans` are the activities under way, the outermost first. -/
structure Event where
  level : Level
  target : String
  message : String
  fields : Fields
  spans : List Span
  deriving DecidableEq, Repr

/-- A result and the events on the way to it. -/
structure Logged (α : Type) where
  value : α
  events : List Event

namespace Logged

instance : Monad Logged where
  pure a := ⟨a, []⟩
  bind x f := ⟨(f x.value).value, x.events ++ (f x.value).events⟩

@[simp] theorem pure_value {α : Type} (a : α) : (pure a : Logged α).value = a := rfl

@[simp] theorem pure_events {α : Type} (a : α) : (pure a : Logged α).events = [] := rfl

@[simp] theorem bind_value {α β : Type} (x : Logged α) (f : α → Logged β) :
    (x >>= f).value = (f x.value).value := rfl

@[simp] theorem bind_events {α β : Type} (x : Logged α) (f : α → Logged β) :
    (x >>= f).events = x.events ++ (f x.value).events := rfl

def emit (e : Event) : Logged Unit := ⟨(), [e]⟩

/-- The events of a computation that is part of an activity. -/
def during {α : Type} (s : Span) (x : Logged α) : Logged α :=
  ⟨x.value, x.events.map fun e => { e with spans := s :: e.spans }⟩

end Logged
end Phrasebook
