import Phrasebook.Program
import Phrasebook.Proofs.Except
import Phrasebook.Proofs.Path
import Phrasebook.Proofs.Settings

/-!
What stands on standard output. A run writes the output of its command there, after the events that
it records, if these go there too; they do if and only if they are written as JSON and no file is
set for them. Where they do not, nothing that is set about events shows on standard output.
-/

namespace Phrasebook

/-! ### Events as text -/

namespace Log

theorem line_ne_empty (form : Form) (time : String) (e : Event) : line form time e ≠ "" := by
  simp [line]

theorem lines_eq_empty (form : Form) (time : String) (events : List Event) :
    lines form time events = "" ↔ events = [] := by
  cases events with
  | nil => simp [lines]
  | cons e es => simp [lines, line_ne_empty]

/-- A filter that is off lets no event through. -/
theorem Filter.off_lets [Patterns] (e : Event) :
    (ofDirectives [⟨none, none, none, .off⟩]).lets e = false := by
  have grave : e.level.verbosity ≠ 0 := by cases e.level <;> decide
  have plain : (ofDirectives [⟨none, none, none, .off⟩]).plain = [⟨none, none, none, .off⟩] := rfl
  have spanless : (ofDirectives [⟨none, none, none, .off⟩]).ofSpans = [] := rfl
  simp only [lets, letsWithin, letsPlainly, scopeVerbosity, plain, spanless, coversTarget,
    coversFields, Threshold.verbosity]
  simpa using ⟨fun _ _ => grave, grave⟩

end Log

/-! ### The command -/

/-- The documents that are looked for below the directory that is set. -/
def Settings.documents (s : Settings) (fs : FileSystem) : Source :=
  .ofDirectory fs s.translations.directory Source.usualExtension

theorem Settings.catalog_eq (s : Settings) (fs : FileSystem) :
    s.catalog fs = Loading.load (s.documents fs) := rfl

namespace Command

/-- A command depends on what is set about translations and on the documents that it looks for. -/
theorem run_congr {s t : Settings} {fs gs : FileSystem} (same : s.translations = t.translations)
    {c : Command} (found : (∀ tags, c ≠ .tags tags) → s.documents fs = t.documents gs) :
    c.run s fs = c.run t gs := by
  have negotiators : s.negotiator = t.negotiator := by
    rw [Settings.negotiator, Settings.negotiator, same]
  cases c with
  | tags tags => rfl
  | negotiate p =>
    have catalogs : s.catalog fs = t.catalog gs := by
      rw [Settings.catalog_eq, Settings.catalog_eq, found (by simp)]
    have selected : select s = select t := by
      funext c p
      simp only [select, negotiators, noneEvent, same]
    simp only [run, withCatalog, catalogs, selected]
  | localize key arguments p =>
    have catalogs : s.catalog fs = t.catalog gs := by
      rw [Settings.catalog_eq, Settings.catalog_eq, found (by simp)]
    have texts : localized s = localized t := by
      funext c key arguments p
      simp only [localized, negotiators]
    simp only [run, withCatalog, catalogs, texts]

end Command

namespace World

/-! ### The start of a run -/

/-- The file that a run takes its settings from. -/
def settingsPath? (w : World) (line : CommandLine) : Option Path :=
  line.config?.or (Settings.source? w.files w.environment)

/-- Events are written as JSON, and no file is set for them. -/
def Start.WritesOnOutput (st : Start) : Prop :=
  st.settings.log.json = true ∧ st.settings.log.file? = none

instance (st : Start) : Decidable st.WritesOnOutput := inferInstanceAs (Decidable (_ ∧ _))

theorem logSetup_destination (s : Settings) (line : CommandLine) :
    (logSetup s line).destination =
      match s.log.file? with
      | some p => .file (Log.Setup.filePath p)
      | none => if s.log.json = true then .standardOutput else .standardError := by
  have file : (logSetup s line).file? = s.log.file? := by
    unfold logSetup
    cases line.logLevel? <;> rfl
  have form : (logSetup s line).form = if s.log.json = true then .json else .compact := by
    unfold logSetup Log.Setup.form
    cases line.logLevel? <;> rfl
  rw [Log.Setup.destination, file, form]
  cases s.log.file? with
  | some p => rfl
  | none => cases s.log.json <;> rfl

theorem serve_value (s : Settings) (fs : FileSystem) (c : Command) :
    (serve s fs c).value = (c.run s fs).value := by
  rw [serve, Logged.bind_value, Logged.bind_value]
  cases (c.run s fs).value <;> rfl

/-- Two runs of one command, for which all is set alike but what is set about events. -/
structure SameButEvents (v w : World) (a b : CommandLine) : Prop where
  command : a.command = b.command
  environment : ∀ name, name ≠ Settings.levelVariable → name ≠ Log.Setup.filterVariable →
    v.environment name = w.environment name
  translations : ∀ s t, Settings.base v.files (v.settingsPath? a) = .ok s →
    Settings.base w.files (w.settingsPath? b) = .ok t → s.translations = t.translations

section Runs

variable [Log.Patterns]

/-- The settings of a run are those of its file, or the usual ones, under the environment. -/
theorem settings_eq (w : World) (line : CommandLine) :
    w.settings line =
      ((Settings.base w.files (w.settingsPath? line)).bind (·.finish w.environment)).mapError
        (.settings line.config?) := by
  unfold settings settingsPath?
  cases line.config? with
  | none => rw [Option.none_or, ← Settings.load_value]
  | some p => rw [Option.some_or, ← Settings.loadFile_value]

theorem settings_eq_ok_iff {w : World} {line : CommandLine} {s : Settings} :
    w.settings line = .ok s ↔ ∃ b, Settings.base w.files (w.settingsPath? line) = .ok b ∧
      b.finish w.environment = .ok s := by
  rw [settings_eq, Except.mapError_eq_ok_iff]
  exact Except.bind_eq_ok_iff

/-- A run that is started has its settings, and events go where they say. -/
theorem start_eq_ok {w : World} {line : CommandLine} {st : Start} (started : w.start line = .ok st) :
    w.settings line = .ok st.settings ∧
      st.recorder.destination = (logSetup st.settings line).destination := by
  unfold start at started
  cases loaded : w.settings line with
  | error e =>
    rw [loaded] at started
    cases started
  | ok s =>
    rw [loaded] at started
    dsimp only at started
    split at started
    · cases started
    · unfold Log.Setup.install at started
      cases filtered : (logSetup s line).filter w.environment with
      | error e => simp [filtered] at started
      | ok f =>
        simp only [filtered] at started
        cases started
        exact ⟨rfl, rfl⟩

theorem start_of_base {w : World} {line : CommandLine} {b s : Settings} {r : Log.Recorder}
    (based : Settings.base w.files (w.settingsPath? line) = .ok b)
    (finished : b.finish w.environment = .ok s)
    (installed : (logSetup s line).install w.environment false = ⟨none, .ok r⟩) :
    w.start line = .ok ⟨s, r, none⟩ := by
  rw [start, settings_eq_ok_iff.mpr ⟨b, based, finished⟩]
  simp only [installed]
  rfl

/-- Where the events of a run go. -/
theorem destination_of_start {w : World} {line : CommandLine} {st : Start}
    (started : w.start line = .ok st) :
    st.recorder.destination =
      match st.settings.log.file? with
      | some p => .file (Log.Setup.filePath p)
      | none => if st.settings.log.json = true then .standardOutput else .standardError := by
  rw [(start_eq_ok started).2, logSetup_destination]

theorem writesOnOutput_iff {w : World} {line : CommandLine} {st : Start}
    (started : w.start line = .ok st) :
    st.WritesOnOutput ↔ st.recorder.destination = .standardOutput := by
  rw [destination_of_start started, Start.WritesOnOutput]
  cases st.settings.log.file? with
  | some p => simp
  | none => cases st.settings.log.json <;> simp

/-- A run that cannot start prints nothing. -/
theorem printed_of_start_error {w : World} {line : CommandLine} {ending : Ending}
    (failed : w.start line = .error ending) : ending.printed = "" := by
  unfold start at failed
  cases loaded : w.settings line with
  | error e =>
    rw [loaded] at failed
    cases failed
    rfl
  | ok s =>
    rw [loaded] at failed
    dsimp only at failed
    split at failed
    · cases failed
      rfl
    · split at failed
      · cases failed
        rfl
      · cases failed

/-! ### The output of a command -/

/-- What a command has to print: its output on a line, or nothing. -/
def commandOutput (w : World) (line : CommandLine) : String :=
  match w.start line with
  | .error _ => ""
  | .ok st =>
    match (line.command.run st.settings (w.filesFor st line.command)).value with
    | .ok output => if output = "" then "" else output ++ "\n"
    | .error _ => ""

theorem runLine_of_error {w : World} {line : CommandLine} {ending : Ending}
    (failed : w.start line = .error ending) : w.runLine line = w.outcome ending := by
  rw [runLine, failed]

/-- A run that starts prints its events, if they go there, and then the output of its command. -/
theorem standardOutput_of_start {w : World} {line : CommandLine} {st : Start}
    (started : w.start line = .ok st) :
    (w.runLine line).standardOutput =
      (if st.WritesOnOutput then
        Log.lines st.recorder.form w.time (w.runLine line).recorded else "") ++
      w.commandOutput line := by
  have recorder : (w.runLine line).recorder? = some st.recorder := by rw [runLine, started]
  have time : (w.runLine line).time = w.time := by rw [runLine, started]
  have printed : (w.runLine line).ending.printed = w.commandOutput line := by
    rw [runLine, commandOutput, started]
    dsimp only
    rw [serve_value]
    cases (line.command.run st.settings (w.filesFor st line.command)).value with
    | error e => rfl
    | ok output => simp [endingOf, Ending.printed]
  rw [Outcome.standardOutput, printed, Outcome.log, recorder, time]
  simp only [writesOnOutput_iff started]

/-! ### Runs that differ in what is set about events -/

/-- No event stands on standard output. -/
def Silent (w : World) (line : CommandLine) : Prop :=
  ∀ st, w.start line = .ok st → st.WritesOnOutput → (w.runLine line).recorded = []

theorem standardOutput_iff (w : World) (line : CommandLine) :
    (w.runLine line).standardOutput = w.commandOutput line ↔ w.Silent line := by
  cases started : w.start line with
  | error ending =>
    have printed : (w.runLine line).standardOutput = "" := by
      rw [runLine_of_error started]
      exact String.empty_append.trans (printed_of_start_error started)
    have nothing : w.commandOutput line = "" := by rw [commandOutput, started]
    simp [printed, nothing, Silent, started]
  | ok st =>
    rw [standardOutput_of_start started, String.append_eq_right_iff]
    by_cases leaks : st.WritesOnOutput
    · simp [leaks, Log.lines_eq_empty, Silent, started]
    · simp [leaks, Silent, started]

theorem SameButEvents.translations_of_start {v w : World} {a b : CommandLine}
    (same : SameButEvents v w a b) {p q : Start} (first : v.start a = .ok p)
    (second : w.start b = .ok q) : p.settings.translations = q.settings.translations := by
  obtain ⟨s, based, finished⟩ := settings_eq_ok_iff.mp (start_eq_ok first).1
  obtain ⟨t, based', finished'⟩ := settings_eq_ok_iff.mp (start_eq_ok second).1
  refine Settings.finish_translations (same.translations s t based based') ?_ finished finished'
  intro name listed
  refine same.environment name ?_ ?_ <;> rintro rfl <;> revert listed <;> decide

/-- The output of a command does not depend on what is set about events, as long as the command
finds the same documents. The file for events may be among them. -/
theorem SameButEvents.commandOutput_eq {v w : World} {a b : CommandLine}
    (same : SameButEvents v w a b) {p q : Start} (first : v.start a = .ok p)
    (second : w.start b = .ok q)
    (found : (∀ tags, a.command ≠ .tags tags) →
      p.settings.documents (v.filesFor p a.command) =
        q.settings.documents (w.filesFor q b.command)) :
    v.commandOutput a = w.commandOutput b := by
  have ran : a.command.run p.settings (v.filesFor p a.command) =
      b.command.run q.settings (w.filesFor q b.command) := by
    rw [same.command] at found ⊢
    exact Command.run_congr (same.translations_of_start first second) found
  rw [commandOutput, commandOutput, first, second]
  dsimp only
  rw [ran]

/-- Standard output holds the output of the command and nothing else, unless events are written as
JSON, no file is set for them and one of them passes the filter. Of runs where this is not so, two
that differ only in what is set about events and find the same documents print the same. -/
theorem run_standardOutput {w : World} {line : CommandLine}
    (read : CommandLine.read w.environment w.arguments = .ok line) :
    (w.run.standardOutput = w.commandOutput line ↔
      ∀ st, w.start line = .ok st → st.WritesOnOutput → w.run.recorded = []) ∧
    (∀ st, w.start line = .ok st → w.run.recorder? = some st.recorder ∧
      st.recorder.destination =
        match st.settings.log.file? with
        | some p => .file (Log.Setup.filePath p)
        | none => if st.settings.log.json = true then .standardOutput else .standardError) ∧
    ∀ v a p q, CommandLine.read v.environment v.arguments = .ok a → SameButEvents v w a line →
      v.start a = .ok p → w.start line = .ok q →
      ((∀ tags, a.command ≠ .tags tags) →
        p.settings.documents (v.filesFor p a.command) =
          q.settings.documents (w.filesFor q line.command)) →
      v.Silent a → w.Silent line → v.run.standardOutput = w.run.standardOutput := by
  have ran : w.run = w.runLine line := by rw [run, read]
  refine ⟨?_, ?_, ?_⟩
  · rw [ran]
    exact standardOutput_iff w line
  · intro st started
    rw [ran]
    refine ⟨?_, destination_of_start started⟩
    rw [runLine, started]
  · intro v a p q readFirst same first second found silentFirst silentSecond
    have ranFirst : v.run = v.runLine a := by rw [run, readFirst]
    calc v.run.standardOutput = v.commandOutput a := by
          rw [ranFirst, (standardOutput_iff v a).mpr silentFirst]
      _ = w.commandOutput line := same.commandOutput_eq first second found
      _ = w.run.standardOutput := by
          rw [ran, (standardOutput_iff w line).mpr silentSecond]

end Runs

/-! ### Runs beside one document -/

section Literal

attribute [local instance] Log.Patterns.literal

/-- A directory with settings and one document. -/
def oneDocument (settings : String) : FileSystem where
  root := .directory [("tessera.yaml", .file (some settings)),
    ("translations", .directory [("en", .directory [("app.ftl", .file (some "hi = Hello\n"))])])]
  current := []

theorem oneDocument_locate (text : String) :
    ∃ t, (oneDocument text).locate true false ⟨"tessera.yaml"⟩ = .ok t ∧
      t.node = .file (some text) := by
  refine ⟨⟨(oneDocument text).root, [("tessera.yaml", .file (some text))]⟩, ?_, rfl⟩
  have segments : FileSystem.segmentTexts ⟨"tessera.yaml"⟩ = ["tessera.yaml"] := by decide
  have relative : Path.isAbsolute ⟨"tessera.yaml"⟩ = false := Path.isAbsolute_name (by decide)
  have short : "tessera.yaml".utf8ByteSize = 12 := by decide
  simp [FileSystem.locate, segments, relative, short, FileSystem.descend, oneDocument, Trail.node,
    FileNode.entryOf?, Trail.down]

theorem oneDocument_walk (text : String) :
    (oneDocument text).walk ⟨"translations"⟩ = .ok (FileNode.walk ⟨"translations"⟩
      (.directory [("en", .directory [("app.ftl", .file (some "hi = Hello\n"))])])) := by
  have segments : FileSystem.segmentTexts ⟨"translations"⟩ = ["translations"] := by decide
  have relative : Path.isAbsolute ⟨"translations"⟩ = false := Path.isAbsolute_name (by decide)
  have short : "translations".utf8ByteSize = 12 := by decide
  have located : (oneDocument text).locate false false ⟨"translations"⟩ =
      .ok ⟨(oneDocument text).root, [("translations",
        .directory [("en", .directory [("app.ftl", .file (some "hi = Hello\n"))])])]⟩ := by
    simp [FileSystem.locate, segments, relative, short, FileSystem.descend, oneDocument, Trail.node,
      FileNode.entryOf?, Trail.down]
  rw [FileSystem.walk, located]
  rfl

theorem base_oneDocument {w : World} {line : CommandLine} {text : String} {s : Settings}
    (files : w.files = oneDocument text) (unnamed : w.environment Settings.pathVariable = none)
    (config : line.config? = none) (decoded : (Settings.ofYaml text).toOption = some s) :
    Settings.base w.files (w.settingsPath? line) = .ok s := by
  obtain ⟨t, located, isFile⟩ := oneDocument_locate text
  have first : w.settingsPath? line = some ⟨"tessera.yaml"⟩ := by
    rw [settingsPath?, config, Option.none_or, Settings.source?, unnamed, files]
    simp [Settings.usualFiles, FileSystem.exists?, located, Except.isOk, Except.toBool]
  have read : (oneDocument text).readText ⟨"tessera.yaml"⟩ = .ok text := by
    rw [FileSystem.readText, located]
    simp only [isFile]
  rw [first, files, Settings.base, Settings.ofFile, read]
  simp only [Except.toOption_eq_some_iff.mp decoded]

theorem oneDocument_documents {first second : String} {s t : Settings}
    (usual : s.translations = .usual) (usual' : t.translations = .usual) :
    s.documents (oneDocument first) = t.documents (oneDocument second) := by
  rw [Settings.documents, Settings.documents, usual, usual', Source.ofDirectory,
    Source.ofDirectory, Source.found, Source.found, Source.walked, Source.walked,
    TranslationSettings.usual, oneDocument_walk, oneDocument_walk]

/-- Only a filter is set, and it lets nothing through. -/
def filterOff : Environment := fun name =>
  if name = Log.Setup.filterVariable then some "off" else none

def loud : World :=
  ⟨["negotiate", "fr"], fun _ => none, oneDocument "logging:\n  level: debug\n",
    "2026-01-01T00:00:00Z"⟩

/-- Another form, another level and another filter. -/
def muted : World :=
  ⟨["--log-level", "trace", "negotiate", "fr"], filterOff, oneDocument "logging:\n  json: true\n",
    "2026-01-02T00:00:00Z"⟩

def loudLine : CommandLine := ⟨none, none, .negotiate ⟨["fr"], none⟩⟩

def mutedLine : CommandLine := ⟨none, some "trace", .negotiate ⟨["fr"], none⟩⟩

def debugSettings : Settings := ⟨.usual, ⟨"debug", false, none⟩⟩

def jsonSettings : Settings := ⟨.usual, ⟨"info", true, none⟩⟩

theorem loud_base :
    Settings.base loud.files (loud.settingsPath? loudLine) = .ok debugSettings :=
  base_oneDocument rfl rfl rfl (by decide +kernel)

theorem muted_base :
    Settings.base muted.files (muted.settingsPath? mutedLine) = .ok jsonSettings :=
  base_oneDocument rfl rfl rfl (by decide +kernel)

theorem loud_muted_same : SameButEvents loud muted loudLine mutedLine where
  command := rfl
  environment _ _ other := (if_neg other).symm
  translations s t first second := by
    rw [loud_base] at first
    rw [muted_base] at second
    cases first
    cases second
    rfl

theorem loud_muted_agree :
    CommandLine.read muted.environment muted.arguments = .ok mutedLine ∧
    muted.run.standardOutput = muted.commandOutput mutedLine ∧
    loud.run.standardOutput = muted.run.standardOutput := by
  have read : CommandLine.read muted.environment muted.arguments = .ok mutedLine := rfl
  have readLoud : CommandLine.read loud.environment loud.arguments = .ok loudLine := rfl
  obtain ⟨p, startedLoud⟩ : ∃ r, loud.start loudLine = .ok ⟨debugSettings, r, none⟩ :=
    ⟨_, start_of_base loud_base rfl rfl⟩
  obtain ⟨q, started, off⟩ : ∃ r, muted.start mutedLine = .ok ⟨jsonSettings, r, none⟩ ∧
      r.filter = .ofDirectives [⟨none, none, none, .off⟩] :=
    ⟨_, start_of_base muted_base rfl rfl, rfl⟩
  have silentLoud : loud.Silent loudLine := by
    intro st again leaks
    rw [startedLoud] at again
    cases again
    exact absurd leaks.1 Bool.false_ne_true
  have silent : muted.Silent mutedLine := by
    intro st _ _
    rw [runLine, started]
    simp [Log.Recorder.recorded, off, Log.Filter.off_lets]
  obtain ⟨alone, -, alike⟩ := run_standardOutput read
  refine ⟨read, alone.mpr silent, ?_⟩
  refine alike loud loudLine _ _ readLoud loud_muted_same startedLoud started ?_ silentLoud silent
  exact fun _ => oneDocument_documents rfl rfl

/-- A command that fails, and events are written as JSON. -/
def failing : World :=
  ⟨["tags", "split", "size:1", "--strict"], fun _ => none, oneDocument "logging:\n  json: true\n",
    "2026-01-01T00:00:00Z"⟩

def failingLine : CommandLine := ⟨none, none, .tags (.split "size:1" true)⟩

theorem failing_base :
    Settings.base failing.files (failing.settingsPath? failingLine) = .ok jsonSettings :=
  base_oneDocument rfl rfl rfl (by decide +kernel)

/-- The event of a failure stands on standard output. -/
theorem failure_on_output :
    CommandLine.read failing.environment failing.arguments = .ok failingLine ∧
    failing.commandOutput failingLine = "" ∧
    failing.run.standardOutput ≠ failing.commandOutput failingLine := by
  have read : CommandLine.read failing.environment failing.arguments = .ok failingLine := rfl
  obtain ⟨r, started, filter⟩ : ∃ r, failing.start failingLine = .ok ⟨jsonSettings, r, none⟩ ∧
      r.filter = .ofDirectives [⟨none, none, none, .upTo .info⟩] :=
    ⟨_, start_of_base failing_base rfl rfl, rfl⟩
  refine ⟨read, ?_, ?_⟩
  · rw [commandOutput, started]
    rfl
  · rw [run, read, Ne, standardOutput_iff]
    intro silent
    have nothing : r.recorded (serve jsonSettings failing.files failingLine.command).events = [] := by
      have silenced := silent _ started ⟨rfl, rfl⟩
      rw [runLine, started] at silenced
      exact silenced
    rw [Log.Recorder.recorded, filter] at nothing
    exact absurd nothing (by decide +kernel)

end Literal

end World
end Phrasebook
