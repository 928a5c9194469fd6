import Phrasebook.Proofs.Output
import Phrasebook.Proofs.Override
import Phrasebook.Proofs.StandIn

/-!
The one file that settings come from. The option of the command line goes before the variable, and
both go before the usual files; a file that was chosen is read, or its error is the result.
-/

namespace Phrasebook

open Arguments

/-- The environment in which the variable for the file of settings is this. -/
def Environment.naming (env : Environment) (p? : Option String) : Environment :=
  Function.update env Settings.pathVariable p?

theorem Environment.naming_self (env : Environment) (p? : Option String) :
    env.naming p? Settings.pathVariable = p? :=
  Function.update_self ..

theorem Environment.naming_other (env : Environment) (p? : Option String) {name : String}
    (other : name ≠ Settings.pathVariable) : env.naming p? name = env name :=
  Function.update_of_ne other ..

/-! ### The command line -/

namespace CommandLine

variable {env : Environment} {arguments : List String} {line : CommandLine} {p : String}
  {p? : Option String}

theorem offers_config {u : Usage} (before : List Parameter) (options : u.options = before ++ shared)
    (apart : ∀ x ∈ before, x.name ≠ config.name ∧ x.standIn? ≠ config.standIn?)
    (places : ∀ p ∈ u.positionals, p.name ≠ config.name) : u.Offers config where
  listed := by
    refine ⟨before, [logLevel, help], options, List.forall_mem_append.mpr ⟨apart, ?_⟩⟩
    decide
  places := places

/-- All commands offer the option for the file of settings. -/
theorem everywhere_config : usage.Everywhere (Usage.Offers config) := by
  have leaf {u : Usage} (offers : u.Offers config) (none : u.commands = []) :
      u.Everywhere (Usage.Offers config) := ⟨offers, by simp [none]⟩
  have tags : tagsUsage.Everywhere (Usage.Offers config) := by
    refine ⟨offers_config [] rfl (by decide) (by decide), ?_⟩
    simp only [tagsUsage, List.forall_mem_cons]
    exact ⟨leaf (offers_config [strict] rfl (by decide) (by decide)) rfl,
      leaf (offers_config [] rfl (by decide) (by decide)) rfl,
      leaf (offers_config [] rfl (by decide) (by decide)) rfl, by simp⟩
  refine ⟨offers_config [version] rfl (by decide) (by decide), ?_⟩
  simp only [usage, List.forall_mem_cons]
  exact ⟨leaf (offers_config [acceptLanguage] rfl (by decide) (by decide)) rfl,
    leaf (offers_config [argument, locale, acceptLanguage] rfl (by decide) (by decide)) rfl,
    tags, by simp⟩

theorem varied (env : Environment) {q? : Option String} (proper : p? ≠ some "")
    (proper' : q? ≠ some "") : Varied config (env.naming p?) p? (env.naming q?) q? where
  others name? other := by
    cases name? with
    | none => rfl
    | some name =>
      have otherName : name ≠ Settings.pathVariable := fun same => other (by rw [same]; rfl)
      simp only [Option.bind_some, Environment.naming_other _ _ otherName]
  first := env.naming_self p?
  second := env.naming_self q?
  filledFirst := proper
  filledSecond := proper'

theorem commandOf_congr {c c' : Call} (alike : c.Alike config.name c') :
    commandOf c' = commandOf c := by
  simp (disch := decide) only [commandOf, required, Call.value?, Call.has, alike.names, alike.values]

theorem ofCall_alike {c c' : Call} (alike : c.Alike config.name c') (read : ofCall c = .ok line) :
    ofCall c' = .ok { line with config? := (c'.value? config.name).map Path.mk } := by
  obtain ⟨command, isCommand, rest⟩ := Except.bind_eq_ok_iff.mp read
  cases rest
  refine Except.bind_eq_ok_iff.mpr ⟨command, (commandOf_congr alike).trans isCommand, ?_⟩
  have level : c'.value? logLevel.name = c.value? logLevel.name := by
    rw [Call.value?, alike.values (by decide), Call.value?]
  rw [level]
  rfl

theorem config?_of_call {c : Call} (read : ofCall c = .ok line) :
    line.config? = (c.value? config.name).map Path.mk := by
  obtain ⟨command, _, rest⟩ := Except.bind_eq_ok_iff.mp read
  cases rest
  rfl

/-- The variable names the file where the line does not. -/
theorem read_naming (read : CommandLine.read (env.naming none) arguments = .ok line)
    (proper : p? ≠ some "") : CommandLine.read (env.naming p?) arguments =
      .ok { line with config? := line.config?.or (p?.map Path.mk) } := by
  obtain ⟨c, called, ofCall⟩ := Except.bind_eq_ok_iff.mp read
  obtain ⟨c', called', alike, value⟩ :=
    Usage.read_variable everywhere_config (varied env (by simp) proper) called
  refine Except.bind_eq_ok_iff.mpr ⟨c', called', ?_⟩
  rw [ofCall_alike alike ofCall, value, config?_of_call ofCall, Option.map_or]

/-- The option at the front of the line is the first thing that is read. -/
theorem run_flag {q : Progress} (plain : p.toList.head? ≠ some '-')
    (rest : Progress.run ⟨⟨usage, [], some (config, some p), false⟩, []⟩ arguments = .ok q) :
    Progress.run ⟨.start usage, []⟩ ("--config" :: p :: arguments) = .ok q := by
  have flag : (Frame.start usage).step "--config" = .ok ⟨usage, [], some (config, none), false⟩ := rfl
  have value : (Frame.mk usage [] (some (config, none)) false).step p =
      .ok ⟨usage, [], some (config, some p), false⟩ := by
    simp [Frame.step, shape_of_head? plain, Frame.withPlain]
  refine Progress.run_cons_eq_ok_iff.mpr (.inr ⟨fun _ => by decide, _, flag, ?_⟩)
  refine Progress.run_cons_eq_ok_iff.mpr (.inr ⟨?_, _, value, rest⟩)
  intro seeks
  cases seeks

/-- The option names the file as the variable does. -/
theorem read_flag (read : CommandLine.read (env.naming none) arguments = .ok line)
    (unnamed : line.config? = none) (filled : p ≠ "") (plain : p.toList.head? ≠ some '-')
    (proper : p? ≠ some "") :
    CommandLine.read (env.naming p?) ("--config" :: p :: arguments) =
      .ok { line with config? := some ⟨p⟩ } := by
  obtain ⟨c, called, ofCall⟩ := Except.bind_eq_ok_iff.mp read
  have nothing : c.value? config.name = none := by
    simpa [config?_of_call ofCall] using unnamed
  obtain ⟨q, c', run, finished, alike, value⟩ := Usage.read_ahead everywhere_config
    (varied env (by simp) (by simp)) (.waiting filled rfl rfl) called nothing
  have named : CommandLine.read (env.naming none) ("--config" :: p :: arguments) =
      .ok { line with config? := some ⟨p⟩ } := by
    have called' : usage.read (env.naming none) ("--config" :: p :: arguments) = .ok c' :=
      Usage.read_eq_ok_iff.mpr ⟨q, run_flag plain run, finished⟩
    refine Except.bind_eq_ok_iff.mpr ⟨c', called', ?_⟩
    rw [ofCall_alike alike ofCall, value]
    rfl
  simpa using read_naming named proper

example : CommandLine.read (fun _ => none) ["--config", "a.yaml", "tags", "user", "x"] =
    .ok ⟨some ⟨"a.yaml"⟩, none, .tags (.user ["x"])⟩ := by
  rfl

end CommandLine

/-! ### The file -/

namespace Settings

variable (fs : FileSystem) (env : Environment) {p : Path} {p? : Option String}

theorem source?_unnamed : source? fs (env.naming none) =
    if fs.exists? ⟨"tessera.yaml"⟩ then some ⟨"tessera.yaml"⟩
    else if fs.exists? ⟨"tessera.yml"⟩ then some ⟨"tessera.yml"⟩ else none := by
  rw [source?, env.naming_self, usualFiles]
  dsimp only
  rw [List.find?_cons, List.find?_singleton]
  split <;> simp [*]

theorem malformed_of_ofYaml {text : String} {e : SettingsError} (fails : ofYaml text = .error e) :
    ∃ cause, e = .malformed cause := by
  unfold ofYaml at fails
  split at fails
  · cases fails
  · split at fails
    · cases fails
    · cases fails
      exact ⟨_, rfl⟩

variable [Log.Patterns]

/-- The variable for the file has no say in what is made of its settings. -/
theorem finish_naming (s : Settings) : s.finish (env.naming p?) = s.finish env :=
  finish_foreign (by decide) fun _ other => env.naming_other p? other

theorem loadFile_naming (p : Path) :
    (loadFile fs (env.naming p?) p).value = (loadFile fs env p).value := by
  simp only [loadFile_value, finish_naming]

theorem load_of_source {env : Environment} (found : source? fs env = some p) :
    (load fs env).value = (loadFile fs env p).value := by
  rw [load_value, found, loadFile_value]

theorem load_naming (p : String) :
    (load fs (env.naming (some p))).value = (loadFile fs env ⟨p⟩).value := by
  have found : source? fs (env.naming (some p)) = some ⟨p⟩ := by
    rw [source?, env.naming_self]
  rw [load_of_source fs found, loadFile_naming]

/-- Where nothing names a file, the first usual one that is there is loaded by its path. -/
theorem load_unnamed : (load fs (env.naming none)).value =
    match source? fs (env.naming none) with
    | some q => (loadFile fs env q).value
    | none => usual.finish env := by
  cases found : source? fs (env.naming none) with
  | none =>
    rw [load_value, found]
    exact finish_naming env usual
  | some q => rw [load_of_source fs found, loadFile_naming]

/-- A file is read as settings, or its error is the result. -/
theorem loadFile_cases (p : Path) :
    (∀ cause, fs.readText p = .error cause →
      (loadFile fs env p).value = .error (.unreadable p cause)) ∧
    (∀ text e, fs.readText p = .ok text → ofYaml text = .error e →
      (∃ cause, e = .malformed cause) ∧ (loadFile fs env p).value = .error e) ∧
    ∀ text s, fs.readText p = .ok text → ofYaml text = .ok s →
      (loadFile fs env p).value = s.finish env := by
  refine ⟨?_, ?_, ?_⟩
  · intro cause unreadable
    rw [loadFile_value, base, ofFile, unreadable]
    rfl
  · intro text e readable malformed
    refine ⟨malformed_of_ofYaml malformed, ?_⟩
    rw [loadFile_value, base, ofFile, readable]
    dsimp only
    rw [malformed]
    rfl
  · intro text s readable wellFormed
    rw [loadFile_value, base, ofFile, readable]
    dsimp only
    rw [wellFormed]
    rfl

end Settings

namespace World

variable [Log.Patterns] {w : World} {line : CommandLine} {q : Path}
  {x : Except SettingsError Settings}

/-- The arguments of a run say this, and this comes of looking for its settings. -/
structure Finds (w : World) (line : CommandLine) (x : Except SettingsError Settings) : Prop where
  read : CommandLine.read w.environment w.arguments = .ok line
  settings : w.settings line = x.mapError (.settings line.config?)

theorem finds_named (read : CommandLine.read w.environment w.arguments = .ok line)
    (named : line.config? = some q) : w.Finds line (Settings.loadFile w.files w.environment q).value := by
  refine ⟨read, ?_⟩
  rw [World.settings, named]

theorem finds_unnamed (read : CommandLine.read w.environment w.arguments = .ok line)
    (unnamed : line.config? = none) : w.Finds line (Settings.load w.files w.environment).value := by
  refine ⟨read, ?_⟩
  rw [World.settings, unnamed]

/-- A run ends with the error of its settings. -/
theorem Finds.ending {e : SettingsError} (finds : w.Finds line (.error e)) :
    w.run.ending = .failed (.settings line.config? e) := by
  have none : w.settings line = .error (.settings line.config? e) := finds.settings
  simp only [run, finds.read, runLine, start, none, outcome]

/-- Settings come from one file. That which the option names, that which the variable names where the
option does not, and that which is loaded by its path come to the same; where nothing names a file it
is the first usual one that is there, and there may be none. The file that is chosen is read, or its
error is the result; the environment and the check follow in every case. -/
theorem settings_of_one_file (fs : FileSystem) (env : Environment) (time : String) :
    (∀ p : String, p ≠ "" → p.toList.head? ≠ some '-' →
      (Settings.load fs (env.naming (some p))).value = (Settings.loadFile fs env ⟨p⟩).value ∧
      (∀ p?, (Settings.loadFile fs (env.naming p?) ⟨p⟩).value =
        (Settings.loadFile fs env ⟨p⟩).value) ∧
      ∀ arguments line, CommandLine.read (env.naming none) arguments = .ok line →
        (line.config? = none →
          Finds ⟨arguments, env.naming (some p), fs, time⟩ { line with config? := some ⟨p⟩ }
            (Settings.loadFile fs env ⟨p⟩).value ∧
          ∀ p?, p? ≠ some "" →
            Finds ⟨"--config" :: p :: arguments, env.naming p?, fs, time⟩
              { line with config? := some ⟨p⟩ } (Settings.loadFile fs env ⟨p⟩).value) ∧
        (line.config? = some ⟨p⟩ → ∀ p?, p? ≠ some "" →
          Finds ⟨arguments, env.naming p?, fs, time⟩ line
            (Settings.loadFile fs env ⟨p⟩).value)) ∧
    (∀ arguments line, CommandLine.read (env.naming none) arguments = .ok line →
      line.config? = none → Finds ⟨arguments, env.naming none, fs, time⟩ line
        (match Settings.source? fs (env.naming none) with
          | some q => (Settings.loadFile fs env q).value
          | none => Settings.usual.finish env)) ∧
    (Settings.load fs (env.naming none)).value =
      (match Settings.source? fs (env.naming none) with
        | some q => (Settings.loadFile fs env q).value
        | none => Settings.usual.finish env) ∧
    Settings.source? fs (env.naming none) =
      (if fs.exists? ⟨"tessera.yaml"⟩ then some ⟨"tessera.yaml"⟩
      else if fs.exists? ⟨"tessera.yml"⟩ then some ⟨"tessera.yml"⟩ else none) ∧
    ∀ q, (∀ cause, fs.readText q = .error cause →
        (Settings.loadFile fs env q).value = .error (.unreadable q cause)) ∧
      (∀ text e, fs.readText q = .ok text → Settings.ofYaml text = .error e →
        (∃ cause, e = .malformed cause) ∧ (Settings.loadFile fs env q).value = .error e) ∧
      ∀ text s, fs.readText q = .ok text → Settings.ofYaml text = .ok s →
        (Settings.loadFile fs env q).value = s.finish env := by
  refine ⟨?_, ?_, Settings.load_unnamed fs env, Settings.source?_unnamed fs env,
    Settings.loadFile_cases fs env⟩
  · intro p filled plain
    refine ⟨Settings.load_naming fs env p, fun p? => Settings.loadFile_naming fs env ⟨p⟩, ?_⟩
    intro arguments line read
    refine ⟨fun unnamed => ⟨?_, fun p? proper => ?_⟩, fun named p? proper => ?_⟩
    · have proper : some p ≠ some "" := by simpa using filled
      have byVariable := CommandLine.read_naming read proper
      rw [unnamed] at byVariable
      rw [← Settings.loadFile_naming fs env ⟨p⟩]
      exact finds_named byVariable rfl
    · have byFlag := CommandLine.read_flag read unnamed filled plain proper
      rw [← Settings.loadFile_naming fs env ⟨p⟩]
      exact finds_named byFlag rfl
    · have again := CommandLine.read_naming read proper
      rw [named, Option.some_or, ← named] at again
      rw [← Settings.loadFile_naming fs env ⟨p⟩]
      exact finds_named again named
  · intro arguments line read unnamed
    rw [← Settings.load_unnamed]
    exact finds_unnamed read unnamed

end World
end Phrasebook
