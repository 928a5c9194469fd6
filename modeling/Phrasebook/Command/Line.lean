import Phrasebook.Arguments.Reader
import Phrasebook.Command.Basic
import Phrasebook.Settings.Finding

/-!
The command line of the program. Options for all commands can stand before the command or after it.
-/

namespace Phrasebook

open Arguments

/-- A command, and what is said about all commands. -/
structure CommandLine where
  config? : Option Path
  /-- The filter of events, in place of the one that is set. -/
  logLevel? : Option String
  command : Command
  deriving DecidableEq, Repr

namespace CommandLine

def config : Parameter := ⟨"config", some 'c', .place, some Settings.pathVariable⟩
def logLevel : Parameter := ⟨"log-level", some 'l', .single, none⟩
def help : Parameter := ⟨"help", some 'h', .help, none⟩
def version : Parameter := ⟨"version", some 'V', .version, none⟩
def acceptLanguage : Parameter :=
  ⟨"accept-language", none, .single, some "TESSERA_ACCEPT_LANGUAGE"⟩
def argument : Parameter := ⟨"arg", some 'a', .many, none⟩
def locale : Parameter := ⟨"locale", none, .many, none⟩
def strict : Parameter := ⟨"strict", none, .flag, none⟩

def localesPlace : Positional := ⟨"LOCALE", false, true⟩
def keyPlace : Positional := ⟨"KEY", true, false⟩
def tokenPlace : Positional := ⟨"TOKEN", true, false⟩
def valuePlace : Positional := ⟨"VALUE", false, false⟩
def tagsPlace : Positional := ⟨"TAGS", true, true⟩

/-- Options of every command. -/
def shared : List Parameter := [config, logLevel, help]

def negotiateUsage : Usage := ⟨"negotiate", acceptLanguage :: shared, [localesPlace], []⟩
def localizeUsage : Usage :=
  ⟨"localize", argument :: locale :: acceptLanguage :: shared, [keyPlace], []⟩
def splitUsage : Usage := ⟨"split", strict :: shared, [tokenPlace], []⟩
def concatUsage : Usage := ⟨"concat", shared, [keyPlace, valuePlace], []⟩
def userUsage : Usage := ⟨"user", shared, [tagsPlace], []⟩
def tagsUsage : Usage := ⟨"tags", shared, [], [splitUsage, concatUsage, userUsage]⟩
def usage : Usage :=
  ⟨"tessera", version :: shared, [], [negotiateUsage, localizeUsage, tagsUsage]⟩

def required (c : Call) (p : Positional) : Except Stop String :=
  match c.value? p.name with
  | some v => .ok v
  | none => .error (.missingArgument p.name)

/-- The command that a call stands for. -/
def commandOf (c : Call) : Except Stop Command :=
  let header? := c.value? acceptLanguage.name
  match c.names with
  | ["negotiate"] => .ok (.negotiate ⟨c.values localesPlace.name, header?⟩)
  | ["localize"] => do
    return .localize (← required c keyPlace) (c.values argument.name)
      ⟨c.values locale.name, header?⟩
  | ["tags", "split"] => do
    return .tags (.split (← required c tokenPlace) (c.has strict.name))
  | ["tags", "concat"] => do
    return .tags (.concat (← required c keyPlace) (c.value? valuePlace.name))
  | ["tags", "user"] => .ok (.tags (.user (c.values tagsPlace.name)))
  | _ => .error .missingCommand

def ofCall (c : Call) : Except Stop CommandLine := do
  return ⟨(c.value? config.name).map Path.mk, c.value? logLevel.name, ← commandOf c⟩

/-- Reads the arguments that follow the program's name. -/
def read (env : Environment) (arguments : List String) : Except Stop CommandLine := do
  ofCall (← usage.read env arguments)

def versionText : String := "tessera 0.1.0\n"

def helpText : String := "\n".intercalate [
  "Usage:",
  "  tessera negotiate [LOCALE]... [--accept-language VALUE]",
  "  tessera localize KEY [--arg NAME=VALUE]... [--locale LOCALE]... [--accept-language VALUE]",
  "  tessera tags split TOKEN [--strict]",
  "  tessera tags concat KEY [VALUE]",
  "  tessera tags user TAGS...",
  "",
  "Options of all commands:",
  "  -c, --config PATH",
  "  -l, --log-level FILTER",
  "  -h, --help",
  "  -V, --version", ""]

end CommandLine
end Phrasebook
