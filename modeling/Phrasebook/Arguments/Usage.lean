/-!
What a command takes from its command line: options, positional arguments, and commands below it.
-/

namespace Phrasebook.Arguments

/-- What an option is followed by. -/
inductive Effect where
  /-- Nothing: the option is there or not. -/
  | flag
  /-- A value. The option is given once at most. -/
  | single
  /-- A value that is not empty. The option is given once at most. -/
  | place
  /-- A value. Every time it is given counts. -/
  | many
  /-- Nothing: help is shown. -/
  | help
  /-- Nothing: the version is shown. -/
  | version
  deriving DecidableEq, Repr

def Effect.takesValue : Effect → Bool
  | single | place | many => true
  | flag | help | version => false

/-- An option, written `--name` or `-n`. -/
structure Parameter where
  name : String
  short? : Option Char
  effect : Effect
  /-- The variable of the environment that stands in for it. -/
  standIn? : Option String
  deriving DecidableEq, Repr

/-- An argument known by its place. -/
structure Positional where
  name : String
  required : Bool
  /-- Whether it takes all arguments from its place on. -/
  many : Bool
  deriving DecidableEq, Repr

/-- What a command takes. A command with commands below it takes no positional arguments and needs
one of these commands. -/
structure Usage where
  name : String
  options : List Parameter
  positionals : List Positional
  commands : List Usage

namespace Usage

def long? (u : Usage) (name : String) : Option Parameter := u.options.find? (·.name == name)

def short? (u : Usage) (c : Char) : Option Parameter := u.options.find? (·.short? == some c)

def command? (u : Usage) (name : String) : Option Usage := u.commands.find? (·.name == name)

/-- The command that shows the help of others. -/
def helpName : String := "help"

/-- Help is among the commands below a command that has any. -/
def hasHelp (u : Usage) : Bool := !u.commands.isEmpty

def hasCommand (u : Usage) (name : String) : Bool :=
  (u.command? name).isSome || (u.hasHelp && name == helpName)

end Usage

/-- Why a command line does not lead to a command. -/
inductive Stop where
  | help
  | version
  /-- A command that needs another one was given nothing at all. -/
  | nothingGiven
  | missingCommand
  | unknownCommand (name : String)
  | unknownArgument (argument : String)
  | missingArgument (name : String)
  | missingValue (option : String)
  /-- A value for an option that takes none. -/
  | surplusValue (option : String)
  | repeated (option : String)
  deriving DecidableEq, Repr

def Stop.message : Stop → String
  | help => "help was asked for"
  | version => "the version was asked for"
  | nothingGiven => "nothing to do"
  | missingCommand => "a command is required"
  | unknownCommand name => "unrecognized command '" ++ name ++ "'"
  | unknownArgument a => "unexpected argument '" ++ a ++ "'"
  | missingArgument name => "argument " ++ name ++ " is required"
  | missingValue o => "a value is required for '--" ++ o ++ "'"
  | surplusValue o => "no value is expected for '--" ++ o ++ "'"
  | repeated o => "'--" ++ o ++ "' is given more than once"

/-- What was asked for is no failure. -/
def Stop.isRequest : Stop → Bool
  | help | version => true
  | _ => false

namespace Usage

/-- No command is below the help command. -/
def helpOnHelp : List String → Stop
  | [] => .help
  | name :: _ => .unknownCommand name

/-- What the help command comes to: help on the command that the names lead to. -/
def helpOn (u : Usage) : List String → Stop
  | [] => .help
  | name :: names =>
    match u.command? name with
    | some v => v.helpOn names
    | none => if u.hasHelp && name == helpName then helpOnHelp names else .unknownCommand name

end Usage
end Phrasebook.Arguments
