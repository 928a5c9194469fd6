import Phrasebook.Proofs.Output
import Phrasebook.Proofs.Override

/-!
Which filter a run records events by. The level that is set is checked with the settings, before
anything else that could take its place is looked at; so of all that can be said about the filter
only the one on the command line can still keep a run from starting.
-/

namespace Phrasebook

namespace Log

variable [Patterns]

/-- The text reads as a filter. -/
def IsFilter (text : String) : Prop := ∃ f, Filter.read text = .ok f

theorem isFilter_iff (text : String) : IsFilter text ↔ ¬ ∃ cause, Filter.read text = .error cause := by
  unfold IsFilter
  cases Filter.read text <;> simp

namespace Setup

variable {s : Setup} {env : Environment}

/-- No filter of the environment counts: there is none, or it cannot be read. -/
def Unfiltered (env : Environment) : Prop :=
  ∀ text, env filterVariable = some text → ¬ IsFilter text

theorem filter_of_variable {text : String} {f : Filter} (given : env filterVariable = some text)
    (read : Filter.read text = .ok f) : s.filter env = .ok f := by
  rw [filter, given, Option.map_some, read]

theorem filter_of_unfiltered (unfiltered : Unfiltered env) :
    s.filter env = (Filter.read s.level).mapError (.invalidFilter s.level) := by
  unfold filter
  cases given : env filterVariable with
  | none => cases Filter.read s.level <;> rfl
  | some text =>
    have fails := unfiltered text given
    rw [isFilter_iff, not_not] at fails
    obtain ⟨cause, fault⟩ := fails
    rw [Option.map_some, fault]
    cases Filter.read s.level <;> rfl

/-- A setup is without a filter if neither that of the environment nor its own can be used. -/
theorem filter_eq_error_iff (s : Setup) (env : Environment) :
    (∃ text cause, s.filter env = .error (.invalidFilter text cause)) ↔
      Unfiltered env ∧ ¬ IsFilter s.level := by
  by_cases unfiltered : Unfiltered env
  · rw [filter_of_unfiltered unfiltered, isFilter_iff, not_not, and_iff_right unfiltered]
    cases Filter.read s.level <;> simp [Except.mapError]
  · have counts := unfiltered
    simp only [Unfiltered, not_forall, not_not] at counts
    obtain ⟨text, given, f, read⟩ := counts
    simp [filter_of_variable given read, unfiltered]

theorem filter_of_isFilter (own : IsFilter s.level) : ∃ f, s.filter env = .ok f := by
  by_cases unfiltered : Unfiltered env
  · obtain ⟨f, read⟩ := own
    exact ⟨f, by rw [filter_of_unfiltered unfiltered, read]; rfl⟩
  · simp only [Unfiltered, not_forall, not_not] at unfiltered
    obtain ⟨text, given, f, read⟩ := unfiltered
    exact ⟨f, filter_of_variable given read⟩

end Setup
end Log

namespace World

open Log

variable {w : World} {line : CommandLine} {s : Settings}

/-- The level that is set: in the environment, else in the file, else the usual one. -/
def SetsLevel (w : World) (line : CommandLine) (level : String) : Prop :=
  match w.environment Settings.levelVariable, w.settingsPath? line with
  | some text, _ => level = text
  | none, some p => ∃ b, (Settings.ofFile w.files p).value = .ok b ∧ level = b.log.level
  | none, none => level = "info"

theorem logSetup_level (s : Settings) (line : CommandLine) :
    (logSetup s line).level = line.logLevel?.getD s.log.level := by
  unfold logSetup
  cases line.logLevel? <;> rfl

theorem setsLevel_iff {b : Settings}
    (based : Settings.base w.files (w.settingsPath? line) = .ok b) (level : String) :
    w.SetsLevel line level ↔
      level = (w.environment Settings.levelVariable).getD b.log.level := by
  unfold SetsLevel
  cases w.environment Settings.levelVariable with
  | some text => cases w.settingsPath? line <;> rfl
  | none =>
    cases found : w.settingsPath? line with
    | some p =>
      rw [found, Settings.base] at based
      simp [based]
    | none =>
      rw [found] at based
      cases based
      rfl

variable [Patterns]

/-- Neither the filter of the environment nor that of the command line is looked at. -/
theorem settings_congr {v : World} {a : CommandLine} (config : a.config? = line.config?)
    (files : v.files = w.files)
    (same : ∀ name, name ≠ Setup.filterVariable → v.environment name = w.environment name) :
    v.settings a = w.settings line := by
  have found : Settings.source? w.files v.environment = Settings.source? w.files w.environment := by
    rw [Settings.source?, Settings.source?, same _ (by decide)]
  have finished (b : Settings) : b.finish v.environment = b.finish w.environment :=
    Settings.finish_foreign (by decide) same
  rw [settings_eq, settings_eq, settingsPath?, settingsPath?, config, files, found]
  simp only [finished]

/-- Settings whose level is no filter are not used, and the reason is that, unless there is one
before it. -/
theorem settings_of_badLevel {level : String} (sets : w.SetsLevel line level)
    (bad : ¬ IsFilter level) :
    ∃ e, w.settings line = .error (.settings line.config? e) ∧
      ((∃ what, e = .invalid what) ∨
        (Settings.Garbled w.environment ∧ e = .badVariable Settings.isolatingVariable) ∨
        ∃ p, w.settingsPath? line = some p ∧ (Settings.ofFile w.files p).value = .error e) := by
  rw [settings_eq]
  cases based : Settings.base w.files (w.settingsPath? line) with
  | error e =>
    refine ⟨e, rfl, .inr (.inr ?_)⟩
    cases found : w.settingsPath? line with
    | some p =>
      rw [found] at based
      exact ⟨p, rfl, based⟩
    | none =>
      rw [found] at based
      cases based
  | ok b =>
    by_cases garbled : Settings.Garbled w.environment
    · refine ⟨_, ?_, .inr (.inl ⟨garbled, rfl⟩)⟩
      rw [Except.bind, Settings.finish_of_garbled garbled]
      rfl
    · obtain ⟨t, merged⟩ := Settings.exists_merged (s := b) garbled
      have same : t.log.level = level := by
        rw [merged.level, (setsLevel_iff based level).mp sets]
      have rejected : t.Rejected := by
        rw [isFilter_iff, not_not, ← same] at bad
        exact .inr (.inr bad)
      obtain ⟨what, invalid⟩ := Settings.finish_of_rejected merged rejected
      refine ⟨_, ?_, .inl ⟨what, rfl⟩⟩
      rw [Except.bind, invalid]
      rfl

theorem level_of_settings (taken : w.settings line = .ok s) :
    w.SetsLevel line s.log.level ∧ IsFilter s.log.level := by
  obtain ⟨b, based, finished⟩ := settings_eq_ok_iff.mp taken
  obtain ⟨merged, accepted⟩ := Settings.finish_eq_ok_iff.mp finished
  refine ⟨(setsLevel_iff based _).mpr merged.level, ?_⟩
  rw [isFilter_iff]
  intro fault
  exact accepted (.inr (.inr fault))

/-- A run that has settings fails over its recorder exactly if it has no filter, and otherwise
records by the filter that it has. -/
theorem start_of_settings (taken : w.settings line = .ok s) :
    (∀ e, w.start line = .error (.failed (.logging e)) ↔
      (logSetup s line).filter w.environment = .error e) ∧
    ∀ st, w.start line = .ok st →
      (logSetup s line).filter w.environment = .ok st.recorder.filter := by
  unfold start
  rw [taken]
  cases filtered : (logSetup s line).filter w.environment with
  | error cause => simp [Setup.install, filtered, eq_comm]
  | ok f =>
    dsimp only
    simp only [Setup.install, filtered]
    constructor
    · intro e
      split <;> simp
    · intro st started
      split at started
      · cases started
      · cases started
        rfl

theorem isFilter_of_valid (valid : s.validate = .ok ()) : IsFilter s.log.level := by
  have accepted : s.bad? = none := by
    unfold Settings.validate at valid
    split at valid
    · cases valid
    · assumption
  rw [isFilter_iff]
  intro fault
  exact (Settings.bad?_eq_none_iff s).mp accepted (.inr (.inr fault))

/-- Settings are taken only if the level that is set is a filter, whatever else is said about
filters. A run that has settings records by the filter of the environment if it can be read, else by
that of the command line if there is one, else by the level that is set; and it fails over its
filter exactly if that of the environment does not count and that of the command line cannot be
read. -/
theorem start_filter (w : World) (line : CommandLine) :
    (∀ level, w.SetsLevel line level → ¬ IsFilter level →
      ∃ e, w.settings line = .error (.settings line.config? e) ∧
        ((∃ what, e = .invalid what) ∨
          (Settings.Garbled w.environment ∧ e = .badVariable Settings.isolatingVariable) ∨
          ∃ p, w.settingsPath? line = some p ∧ (Settings.ofFile w.files p).value = .error e)) ∧
    (∀ (v : World) (a : CommandLine), a.config? = line.config? → v.files = w.files →
      (∀ name, name ≠ Setup.filterVariable → v.environment name = w.environment name) →
      v.settings a = w.settings line) ∧
    (∀ s, w.settings line = .ok s →
      w.SetsLevel line s.log.level ∧
      (∀ text f, w.environment Setup.filterVariable = some text → Filter.read text = .ok f →
        (logSetup s line).filter w.environment = .ok f) ∧
      (Setup.Unfiltered w.environment → ∀ level, line.logLevel? = some level →
        (logSetup s line).filter w.environment =
          (Filter.read level).mapError (.invalidFilter level)) ∧
      (Setup.Unfiltered w.environment → line.logLevel? = none →
        ∃ f, Filter.read s.log.level = .ok f ∧ (logSetup s line).filter w.environment = .ok f) ∧
      ((∃ text cause, (logSetup s line).filter w.environment = .error (.invalidFilter text cause)) ↔
        Setup.Unfiltered w.environment ∧ ∃ level, line.logLevel? = some level ∧ ¬ IsFilter level) ∧
      (∀ e, w.start line = .error (.failed (.logging e)) ↔
        (logSetup s line).filter w.environment = .error e) ∧
      ∀ st, w.start line = .ok st →
        (logSetup s line).filter w.environment = .ok st.recorder.filter) ∧
    ∀ s : Settings, s.validate = .ok () → ∀ env, ∃ f, s.log.setup.filter env = .ok f := by
  refine ⟨fun level sets bad => settings_of_badLevel sets bad,
    fun v a config files same => settings_congr config files same, ?_, ?_⟩
  · intro s taken
    obtain ⟨sets, isFilter⟩ := level_of_settings taken
    refine ⟨sets, fun text f given read => Setup.filter_of_variable given read, ?_, ?_, ?_,
      start_of_settings taken⟩
    · intro unfiltered level named
      rw [Setup.filter_of_unfiltered unfiltered, logSetup_level, named, Option.getD_some]
    · intro unfiltered unnamed
      obtain ⟨f, read⟩ := isFilter
      refine ⟨f, read, ?_⟩
      rw [Setup.filter_of_unfiltered unfiltered, logSetup_level, unnamed, Option.getD_none, read]
      rfl
    · rw [Setup.filter_eq_error_iff, logSetup_level]
      refine and_congr_right fun _ => ?_
      cases line.logLevel? with
      | none => simpa using isFilter
      | some level => simp
  · intro s valid env
    exact Setup.filter_of_isFilter (isFilter_of_valid valid)

end World
end Phrasebook
