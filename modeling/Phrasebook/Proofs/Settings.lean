import Phrasebook.Proofs.Except
import Phrasebook.Settings.Finding

/-!
Where settings come from: a base, which is that of one file or the usual one, and the environment,
which goes before it. The part on translations does not depend on the part on events.
-/

namespace Phrasebook
namespace Settings

/-- Settings before the environment has its say: those of a file, or the usual ones. -/
def base (fs : FileSystem) : Option Path → Except SettingsError Settings
  | some p => (ofFile fs p).value
  | none => .ok usual

theorem override_translations (s : Settings) (env : Environment) :
    (s.override env).1.translations =
      ⟨((env directoryVariable).map Path.mk).getD s.translations.directory,
        (env localeVariable).getD s.translations.defaultLocale,
        ((env isolatingVariable).bind truth?).getD s.translations.isolating⟩ := by
  unfold override
  cases env isolatingVariable with
  | none => rfl
  | some v =>
    dsimp only [Option.bind_some]
    cases truth? v <;> rfl

variable [Log.Patterns]

theorem loadFile_value (fs : FileSystem) (env : Environment) (p : Path) :
    (loadFile fs env p).value = (base fs (some p)).bind (·.finish env) := by
  rw [loadFile, Logged.bind_value, base]
  cases (ofFile fs p).value <;> rfl

theorem load_value (fs : FileSystem) (env : Environment) :
    (load fs env).value = (base fs (source? fs env)).bind (·.finish env) := by
  unfold load
  cases source? fs env with
  | none => rfl
  | some p => exact loadFile_value fs env p

theorem override_of_finish {s t : Settings} {env : Environment} (finished : s.finish env = .ok t) :
    s.override env = (t, none) := by
  unfold finish at finished
  split at finished
  · cases finished
  · next overridden =>
    obtain ⟨_, _, rfl⟩ := Except.map_eq_ok_iff.mp finished
    exact overridden

/-- What is set about translations depends on nothing else. -/
theorem finish_translations {s t u v : Settings} {e f : Environment}
    (same : s.translations = t.translations)
    (agree : ∀ name ∈ [directoryVariable, localeVariable, isolatingVariable], e name = f name)
    (first : s.finish e = .ok u) (second : t.finish f = .ok v) :
    u.translations = v.translations := by
  have firstPart := override_translations s e
  have secondPart := override_translations t f
  rw [override_of_finish first] at firstPart
  rw [override_of_finish second] at secondPart
  rw [firstPart, secondPart, same, agree directoryVariable (by simp),
    agree localeVariable (by simp), agree isolatingVariable (by simp)]

end Settings
end Phrasebook
