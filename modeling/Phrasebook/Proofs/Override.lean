import Phrasebook.Proofs.Cut
import Phrasebook.Proofs.Settings
import Phrasebook.Proofs.Trim

/-!
Settings in two layers. What the environment says about a setting goes before the setting itself,
each variable for its own field; a variable that is no truth value where one is needed stops this,
and what comes of it is checked as a whole.
-/

namespace Phrasebook

namespace Settings

variable {s t : Settings} {env : Environment}

/-- The variables that go before settings. -/
def ownVariables : List String := [directoryVariable, localeVariable, isolatingVariable, levelVariable]

theorem truth?_eq_some_iff (v : String) (b : Bool) :
    truth? v = some b ↔ Text.trimmed v = toString b := by
  cases b with
  | true =>
    change truth? v = some true ↔ Text.trimmed v = "true"
    unfold truth?
    split
    · next same => simp [same]
    · next same => simp [same]
    · next notTrue _ => simpa using notTrue
  | false =>
    change truth? v = some false ↔ Text.trimmed v = "false"
    unfold truth?
    split
    · next same => simp [same]
    · next same => simp [same]
    · next _ notFalse => simpa using notFalse

theorem truth?_eq_none_iff (v : String) :
    truth? v = none ↔ Text.trimmed v ≠ "true" ∧ Text.trimmed v ≠ "false" := by
  simp only [Option.eq_none_iff_forall_ne_some, Ne, truth?_eq_some_iff, Bool.forall_bool]
  exact And.comm

/-- The variable on isolation is there and says neither true nor false. -/
def Garbled (env : Environment) : Prop :=
  ∃ v, env isolatingVariable = some v ∧ Text.trimmed v ≠ "true" ∧ Text.trimmed v ≠ "false"

/-- Every setting that has a variable has the value of it, if the variable is there. -/
structure Merged (s : Settings) (env : Environment) (t : Settings) : Prop where
  directory : t.translations.directory =
    ((env directoryVariable).map Path.mk).getD s.translations.directory
  locale : t.translations.defaultLocale = (env localeVariable).getD s.translations.defaultLocale
  isolating : match env isolatingVariable with
    | some v => Text.trimmed v = toString t.translations.isolating
    | none => t.translations.isolating = s.translations.isolating
  level : t.log.level = (env levelVariable).getD s.log.level
  json : t.log.json = s.log.json
  file : t.log.file? = s.log.file?

/-- Such settings are not used. -/
def Rejected [Log.Patterns] (s : Settings) : Prop :=
  Text.trimmed s.translations.defaultLocale = "" ∨ s.translations.directory.text = "" ∨
    ∃ cause, Log.Filter.read s.log.level = .error cause

/-! ### The two layers -/

theorem Merged.again (merged : s.Merged env t) : t.Merged env t where
  directory := by
    rw [merged.directory]
    cases env directoryVariable <;> rfl
  locale := by
    rw [merged.locale]
    cases env localeVariable <;> rfl
  isolating := by
    have said := merged.isolating
    cases given : env isolatingVariable with
    | none => rfl
    | some v => simpa [given] using said
  level := by
    rw [merged.level]
    cases env levelVariable <;> rfl
  json := rfl
  file := rfl

theorem override_of_merged (merged : s.Merged env t) : s.override env = (t, none) := by
  obtain ⟨⟨_, _, isolating⟩, ⟨_, _, _⟩⟩ := t
  obtain ⟨rfl, rfl, said, rfl, rfl, rfl⟩ := merged
  unfold override
  cases given : env isolatingVariable with
  | none =>
    rw [given] at said
    dsimp only at said ⊢
    rw [said]
    rfl
  | some v =>
    rw [given] at said
    dsimp only at said ⊢
    rw [(truth?_eq_some_iff v isolating).mpr said]
    rfl

theorem exists_merged (clear : ¬ Garbled env) : ∃ t, s.Merged env t := by
  cases given : env isolatingVariable with
  | none => exact ⟨⟨⟨_, _, _⟩, ⟨_, _, _⟩⟩, rfl, rfl, by rw [given], rfl, rfl, rfl⟩
  | some v =>
    have isTruth : truth? v ≠ none := by
      intro none
      exact clear ⟨v, given, (truth?_eq_none_iff v).mp none⟩
    obtain ⟨b, reads⟩ := Option.ne_none_iff_exists'.mp isTruth
    refine ⟨⟨⟨_, _, b⟩, ⟨_, _, _⟩⟩, rfl, rfl, ?_, rfl, rfl, rfl⟩
    rw [given]
    exact (truth?_eq_some_iff v b).mp reads

theorem override_of_garbled (garbled : Garbled env) :
    s.override env = (s.withTexts env, some (.badVariable isolatingVariable)) := by
  obtain ⟨v, given, notTrue, notFalse⟩ := garbled
  simp only [override, given, (truth?_eq_none_iff v).mpr ⟨notTrue, notFalse⟩]

/-! ### Checking -/

variable [Log.Patterns]

theorem bad?_eq_none_iff (s : Settings) : s.bad? = none ↔ ¬ s.Rejected := by
  unfold bad? Rejected
  rw [← Text.allBlank_iff, ← String.isEmpty_iff]
  split
  · simp [*]
  · split
    · simp [*]
    · split <;> simp [*]

theorem finish_of_garbled (garbled : Garbled env) :
    s.finish env = .error (.badVariable isolatingVariable) := by
  rw [finish, override_of_garbled garbled]

theorem finish_of_accepted (merged : s.Merged env t) (accepted : ¬ t.Rejected) :
    s.finish env = .ok t := by
  rw [finish, override_of_merged merged]
  dsimp only
  rw [validate, (bad?_eq_none_iff t).mpr accepted]
  rfl

theorem finish_of_rejected (merged : s.Merged env t) (rejected : t.Rejected) :
    ∃ what, s.finish env = .error (.invalid what) := by
  have bad : t.bad? ≠ none := fun none => (bad?_eq_none_iff t).mp none rejected
  obtain ⟨what, isBad⟩ := Option.ne_none_iff_exists'.mp bad
  refine ⟨what, ?_⟩
  rw [finish, override_of_merged merged]
  dsimp only
  rw [validate, isBad]
  rfl

theorem finish_eq_ok_iff : s.finish env = .ok t ↔ s.Merged env t ∧ ¬ t.Rejected := by
  constructor
  · intro finished
    have clear : ¬ Garbled env := by
      intro garbled
      cases finished.symm.trans (finish_of_garbled garbled)
    obtain ⟨u, merged⟩ := exists_merged (s := s) clear
    by_cases rejected : u.Rejected
    · obtain ⟨what, invalid⟩ := finish_of_rejected merged rejected
      cases finished.symm.trans invalid
    · cases finished.symm.trans (finish_of_accepted merged rejected)
      exact ⟨merged, rejected⟩
  · rintro ⟨merged, accepted⟩
    exact finish_of_accepted merged accepted

theorem finish_congr {other : Environment} (same : ∀ name ∈ ownVariables, other name = env name) :
    s.finish other = s.finish env := by
  simp only [ownVariables, List.forall_mem_cons] at same
  obtain ⟨directory, locale, isolating, level, -⟩ := same
  simp only [finish, override, withTexts, withLevel, directory, locale, isolating, level]

/-- A variable that is none of them does not count. -/
theorem finish_foreign {other : Environment} {name : String} (foreign : name ∉ ownVariables)
    (same : ∀ m, m ≠ name → other m = env m) : s.finish other = s.finish env := by
  apply finish_congr
  intro m listed
  apply same
  rintro rfl
  exact foreign listed

/-- Settings are finished from the variables for them alone. The variable on isolation stops this if
it is garbled, and then nothing but the directory and the default locale has been replaced; if it is
not, every variable replaces its own setting, and the result is given unless it is rejected. -/
theorem finish_layers (s : Settings) (env : Environment) :
    (∀ other : Environment, (∀ name ∈ ownVariables, other name = env name) →
      s.finish other = s.finish env) ∧
    (s.finish env = .error (.badVariable isolatingVariable) ↔ Garbled env) ∧
    (¬ Garbled env → ∃ t, s.Merged env t ∧
      ((∃ what, s.finish env = .error (.invalid what)) ↔ t.Rejected) ∧
      (¬ t.Rejected → s.finish env = .ok t ∧ t.finish env = .ok t)) ∧
    ∀ e, (s.override env).2 = some e →
      ∃ directory locale, (s.override env).1 =
          ⟨⟨directory, locale, s.translations.isolating⟩, s.log⟩ ∧
        directory = ((env directoryVariable).map Path.mk).getD s.translations.directory ∧
        locale = (env localeVariable).getD s.translations.defaultLocale := by
  refine ⟨fun other same => finish_congr same, ?_, ?_, ?_⟩
  · refine ⟨?_, finish_of_garbled⟩
    intro stopped
    by_contra clear
    obtain ⟨t, merged⟩ := exists_merged (s := s) clear
    by_cases rejected : t.Rejected
    · obtain ⟨what, invalid⟩ := finish_of_rejected merged rejected
      cases stopped.symm.trans invalid
    · cases stopped.symm.trans (finish_of_accepted merged rejected)
  · intro clear
    obtain ⟨t, merged⟩ := exists_merged (s := s) clear
    refine ⟨t, merged, ⟨?_, finish_of_rejected merged⟩, ?_⟩
    · rintro ⟨what, invalid⟩
      by_contra accepted
      cases invalid.symm.trans (finish_of_accepted merged accepted)
    · intro accepted
      exact ⟨finish_of_accepted merged accepted, finish_of_accepted merged.again accepted⟩
  · intro e stopped
    have garbled : Garbled env := by
      by_contra clear
      obtain ⟨t, merged⟩ := exists_merged (s := s) clear
      rw [override_of_merged merged] at stopped
      cases stopped
    rw [override_of_garbled garbled]
    exact ⟨_, _, rfl, rfl, rfl⟩

end Settings
end Phrasebook
