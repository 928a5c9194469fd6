import Phrasebook.Arguments.Usage
import Phrasebook.Environment

/-!
Reading command lines, one argument at a time. A value that follows its option is taken into account
when the next option or positional argument comes, or at the end; what is wrong with it shows only
then.
-/

namespace Phrasebook.Arguments

/-- How an argument is written. -/
inductive Shape where
  /-- `--`: what follows is positional. -/
  | separator
  /-- `--name` or `--name=value`. -/
  | long (name : String) (value? : Option String)
  /-- `-abc`. -/
  | shorts (cs : List Char)
  | plain
  deriving DecidableEq, Repr

def shape : List Char → Shape
  | ['-', '-'] => .separator
  | '-' :: '-' :: cs =>
    .long (String.ofList (cs.takeWhile (· != '=')))
      (match cs.dropWhile (· != '=') with
        | [] => none
        | _ :: v => some (String.ofList v))
  | '-' :: c :: cs => .shorts (c :: cs)
  | _ => .plain

/-- The weaker origin first. -/
inductive Origin where
  | environment
  | line
  deriving DecidableEq, Repr

/-- A value and what it was given for. A flag that is there has an empty value. -/
structure Given where
  name : String
  value : String
  origin : Origin
  deriving DecidableEq, Repr

/-- What was read for one command. -/
structure Frame where
  usage : Usage
  given : List Given
  /-- An option not yet taken into account, and its value once that is read. -/
  pending? : Option (Parameter × Option String)
  /-- Whether all that follows is positional. -/
  separated : Bool

namespace Frame

def start (u : Usage) : Frame := ⟨u, [], none, false⟩

def has (f : Frame) (name : String) : Bool := f.given.any (·.name == name)

/-- Whether an option waits for its value. -/
def awaits (f : Frame) : Bool :=
  match f.pending? with
  | some (_, none) => true
  | _ => false

def take (f : Frame) (o : Parameter) (value : String) (origin : Origin) : Except Stop Frame :=
  if o.effect != .many && f.has o.name then .error (.repeated o.name)
  else if o.effect == .place && value.isEmpty then .error (.missingValue o.name)
  else .ok { f with given := f.given ++ [⟨o.name, value, origin⟩] }

/-- Takes the pending option into account. -/
def settle (f : Frame) : Except Stop Frame :=
  match f.pending? with
  | none => .ok f
  | some (o, none) => .error (.missingValue o.name)
  | some (o, some value) => { f with pending? := none }.take o value .line

def withFlag (f : Frame) (o : Parameter) : Except Stop Frame := do
  let f ← f.settle
  match o.effect with
  | .help => .error .help
  | .version => .error .version
  | _ => f.take o "" .line

/-- An option that takes a value, with the value if it is attached. -/
def withOption (f : Frame) (o : Parameter) (attached? : Option String) : Except Stop Frame := do
  let f ← f.settle
  match attached? with
  | some value => f.take o value .line
  | none => return { f with pending? := some (o, none) }

def withLong (f : Frame) (name : String) (value? : Option String) : Except Stop Frame :=
  match f.usage.long? name with
  | none => .error (.unknownArgument ("--" ++ name))
  | some o =>
    if o.effect.takesValue then f.withOption o value?
    else if value?.isSome then .error (.surplusValue name)
    else f.withFlag o

/-- The value attached to a short option: the rest of the argument, less an equals sign. -/
def attached? : List Char → Option String
  | [] => none
  | '=' :: cs => some (String.ofList cs)
  | cs => some (String.ofList cs)

def withShorts (f : Frame) : List Char → Except Stop Frame
  | [] => .ok f
  | c :: cs =>
    match f.usage.short? c with
    | none => .error (.unknownArgument (String.ofList ['-', c]))
    | some o =>
      if o.effect.takesValue then f.withOption o (attached? cs)
      else do (← f.withFlag o).withShorts cs

/-- The place of the next positional argument. -/
def slot? (f : Frame) : Option Positional :=
  f.usage.positionals.find? fun p => p.many || !f.has p.name

def surplus (f : Frame) (a : String) : Stop :=
  if f.usage.commands.isEmpty || (f.separated && f.usage.hasCommand a) then .unknownArgument a
  else .unknownCommand a

def withPositional (f : Frame) (a : String) : Except Stop Frame :=
  match f.slot? with
  | none => .error (f.surplus a)
  | some p => do
    let f ← f.settle
    return { f with given := f.given ++ [⟨p.name, a, .line⟩] }

/-- The value that an option waits for, else a positional argument. -/
def withPlain (f : Frame) (a : String) : Except Stop Frame :=
  match f.pending? with
  | some (o, none) => .ok { f with pending? := some (o, some a) }
  | _ => f.withPositional a

/-- One argument that names no command. -/
def step (f : Frame) (a : String) : Except Stop Frame :=
  if f.separated then f.withPositional a
  else
    match shape a.toList with
    | .separator => .ok { f with separated := true }
    | .long name value? => f.withLong name value?
    | .shorts cs => f.withShorts cs
    | .plain => f.withPlain a

/-- Whether an argument can name a command. -/
def seeksCommand (f : Frame) : Bool := !f.separated && !f.awaits

/-- The variable of an option stands in for it where it is not given. -/
def withVariable (env : Environment) (f : Frame) (o : Parameter) : Except Stop Frame :=
  match if f.has o.name then none else o.standIn?.bind env with
  | some value => f.take o value .environment
  | none => .ok f

def missing? (f : Frame) : Option Positional :=
  f.usage.positionals.find? fun p => p.required && !f.has p.name

/-- What was given for a command in the end. `led` says whether it led to a command below it. -/
def finish (env : Environment) (led : Bool) (f : Frame) : Except Stop (List Given) := do
  let f ← f.settle
  let f ← f.usage.options.foldlM (withVariable env) f
  if !led && !f.usage.commands.isEmpty then
    .error (if f.given.isEmpty then .nothingGiven else .missingCommand)
  else
    match f.missing? with
    | some p => .error (.missingArgument p.name)
    | none => .ok f.given

end Frame

/-- What was read so far: for the innermost command, and for those that led to it, from the inside
out. -/
structure Progress where
  current : Frame
  outer : List Frame

/-- A command, by the names that lead to it, and what is given for each of them, the innermost
first. -/
structure Call where
  names : List String
  given : List (List Given)

namespace Progress

def finish (env : Environment) (p : Progress) : Except Stop Call := do
  let inner ← p.current.finish env false
  let outer ← p.outer.mapM (Frame.finish env true)
  return ⟨((p.current :: p.outer).map (·.usage.name)).reverse.tail, inner :: outer⟩

def withStep (p : Progress) (a : String) : Except Stop Progress :=
  (p.current.step a).map fun f => { p with current := f }

def run (p : Progress) : List String → Except Stop Progress
  | [] => .ok p
  | a :: as =>
    if p.current.seeksCommand then
      match p.current.usage.command? a with
      | some u => run ⟨.start u, p.current :: p.outer⟩ as
      | none =>
        if p.current.usage.hasCommand a then .error (p.current.usage.helpOn as)
        else do run (← p.withStep a) as
    else do run (← p.withStep a) as

end Progress

/-- The command that arguments ask for. -/
def Usage.read (u : Usage) (env : Environment) (arguments : List String) : Except Stop Call := do
  (← Progress.run ⟨.start u, []⟩ arguments).finish env

namespace Call

def givenOf (origin : Origin) (name : String) (given : List Given) : List String :=
  (given.filter fun g => g.name == name && g.origin = origin).map (·.value)

/-- The values given for a name. The command line goes before the environment, and within each of
them the innermost command goes first. -/
def values (c : Call) (name : String) : List String :=
  let all := c.given.map (givenOf .line name) ++ c.given.map (givenOf .environment name)
  (all.find? (!·.isEmpty)).getD []

def value? (c : Call) (name : String) : Option String := (c.values name).head?

def has (c : Call) (name : String) : Bool := !(c.values name).isEmpty

end Call
end Phrasebook.Arguments
