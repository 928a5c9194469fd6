import Phrasebook.Proofs.Except
import Phrasebook.Proofs.Written

/-!
How a command fails. A command that needs documents fails as their loading does, and then only if an
argument of its message is not written as one; whatever else is missing, the locale, the message or
a variable, there is an output.
-/

namespace Phrasebook

open SourceEntry

/-! ### Loading -/

namespace Settings

/-- The files that are taken for documents. -/
def discovered (s : Settings) (fs : FileSystem) : Except FileError (List FoundFile) :=
  Source.found fs s.translations.directory Source.usualExtension

/-- The search for documents fails, or of the files found the first that fails does so with this
error: it cannot be read, or it has faults. -/
def FailsToLoad (s : Settings) (fs : FileSystem) (e : LoadError) : Prop :=
  (∃ cause, s.discovered fs = .error cause ∧ e = .discovery s.translations.directory cause) ∨
    ∃ before f after, s.discovered fs = .ok (before ++ f :: after) ∧
      (∀ g ∈ before, ∃ d, (Source.foundEntry g).Gives d) ∧ (Source.foundEntry f).FailsWith e

theorem catalog_of_undiscovered {s : Settings} {fs : FileSystem} {cause : FileError}
    (failed : s.discovered fs = .error cause) :
    (s.catalog fs).value = .error (.discovery s.translations.directory cause) := by
  apply Loading.load_of_undiscovered
  rw [discovered] at failed
  rw [Source.ofDirectory, failed]
  rfl

theorem entries_of_discovered {s : Settings} {fs : FileSystem} {files : List FoundFile}
    (found : s.discovered fs = .ok files) :
    (Source.ofDirectory fs s.translations.directory Source.usualExtension).entries.value =
      .ok (files.map Source.foundEntry) := by
  rw [discovered] at found
  rw [Source.ofDirectory, found]

theorem catalog_eq_error_iff (s : Settings) (fs : FileSystem) (e : LoadError) :
    (s.catalog fs).value = .error e ↔ s.FailsToLoad fs e := by
  unfold FailsToLoad
  cases found : s.discovered fs with
  | error cause =>
    rw [catalog_of_undiscovered found]
    simp [eq_comm]
  | ok files =>
    refine (Loading.load_eq_error_iff (entries_of_discovered found)).trans ?_
    simp only [reduceCtorEq, false_and, exists_false, false_or, Except.ok.injEq]
    constructor
    · rintro ⟨before, f, after, split, gives, fails⟩
      obtain ⟨front, back, rfl, rfl, rest⟩ := List.map_eq_append_iff.mp split
      obtain ⟨file, later, rfl, rfl, rfl⟩ := List.map_eq_cons_iff.mp rest
      refine ⟨front, file, later, rfl, ?_, fails⟩
      exact fun g member => gives _ (List.mem_map_of_mem member)
    · rintro ⟨before, f, after, rfl, gives, fails⟩
      refine ⟨before.map Source.foundEntry, Source.foundEntry f, after.map Source.foundEntry, ?_, ?_,
        fails⟩
      · rw [List.map_append, List.map_cons]
      · intro e member
        obtain ⟨g, earlier, rfl⟩ := List.mem_map.mp member
        exact gives g earlier

end Settings

/-! ### Arguments of messages -/

/-- Without an equals sign, or with nothing before the first one. -/
def IsNameless (a : String) : Prop := '=' ∉ a.toList ∨ a.toList.head? = some '='

theorem messageArgument_of_nameless {a : String} (nameless : IsNameless a) :
    messageArgument a = .error (.badArgument a) := by
  unfold messageArgument
  rcases nameless with noSign | first
  · have noRest : a.toList.dropWhile (· != '=') = [] :=
      List.dropWhile_eq_nil_iff.mpr (Text.bne_of_not_mem noSign)
    simp only [noRest]
    cases a.toList.takeWhile (· != '=') <;> rfl
  · obtain ⟨rest, split⟩ := List.head?_eq_some_iff.mp first
    have noName : a.toList.takeWhile (· != '=') = [] := by simp [split]
    simp only [noName]

theorem isArgument_of_not_nameless {a : String} (named : ¬IsNameless a) : IsArgument a := by
  obtain ⟨sign, notFirst⟩ := not_or.mp named
  obtain ⟨name, value, split, noSign⟩ := List.eq_append_cons_of_mem (not_not.mp sign)
  refine ⟨String.ofList name, String.ofList value, ?_, by simpa using noSign, ?_⟩
  · rintro empty
    have none : name = [] := by simpa using congrArg String.toList empty
    exact notFirst (by simp [split, none])
  · apply String.toList_inj.mp
    simp [split]

theorem messageArgument_cases (a : String) :
    (IsNameless a ∧ messageArgument a = .error (.badArgument a)) ∨
      ¬IsNameless a ∧ ∃ pair, messageArgument a = .ok pair := by
  by_cases nameless : IsNameless a
  · exact .inl ⟨nameless, messageArgument_of_nameless nameless⟩
  · obtain ⟨name, value, given, noSign, rfl⟩ := isArgument_of_not_nameless nameless
    exact .inr ⟨nameless, _, messageArgument_of_wellFormed given noSign value⟩

theorem messageArgument_eq_error_iff {a : String} {err : CommandError} :
    messageArgument a = .error err ↔ err = .badArgument a ∧ IsNameless a := by
  rcases messageArgument_cases a with ⟨nameless, failed⟩ | ⟨named, pair, given⟩
  · simp [failed, nameless, eq_comm]
  · simp [given, named]

theorem messageArgument_isOk_iff {a : String} :
    (∃ pair, messageArgument a = .ok pair) ↔ ¬IsNameless a := by
  rcases messageArgument_cases a with ⟨nameless, failed⟩ | ⟨named, pair, given⟩
  · simp [failed, nameless]
  · simp [given, named]

/-- The first argument without a name is the one that is reported. -/
theorem messageArguments_eq_error_iff {as : List String} {err : CommandError} :
    messageArguments as = .error err ↔ ∃ before a after, as = before ++ a :: after ∧
      (∀ b ∈ before, ¬IsNameless b) ∧ IsNameless a ∧ err = .badArgument a := by
  simp only [messageArguments, Except.mapM_eq_error_iff, messageArgument_isOk_iff,
    messageArgument_eq_error_iff, and_comm (a := IsNameless _)]

theorem messageArguments_isOk_iff {as : List String} :
    (∃ pairs, messageArguments as = .ok pairs) ↔ ∀ a ∈ as, ¬IsNameless a := by
  simp only [messageArguments, Except.mapM_isOk_iff, messageArgument_isOk_iff]

/-! ### Commands -/

namespace Command

variable {s : Settings} {fs : FileSystem}

theorem run_negotiate_value (p : Preferences) : (run s fs (.negotiate p)).value =
    match (s.catalog fs).value with
    | .error e => .error (.loading e)
    | .ok c => .ok ("\n".intercalate ((select s c p).value.map (·.name))) := by
  simp only [run, withCatalog, Logged.bind_value]
  cases (s.catalog fs).value <;> rfl

theorem run_localize_value (key : String) (arguments : List String) (p : Preferences) :
    (run s fs (.localize key arguments p)).value =
      match (s.catalog fs).value with
      | .error e => .error (.loading e)
      | .ok c => (localized s c key arguments p).value := by
  simp only [run, withCatalog, Logged.bind_value]
  cases (s.catalog fs).value <;> rfl

/-- Arguments decide whether there is a text; nothing else can fail. -/
theorem localized_value (c : Catalog) (key : String) (arguments : List String) (p : Preferences) :
    (localized s c key arguments p).value = (messageArguments arguments).map fun pairs =>
      (Localizer.localize ⟨(s.negotiator.negotiate c p.requested.value).value⟩ key
        (some (argumentSet pairs))).value := by
  unfold localized
  cases messageArguments arguments <;> rfl

theorem localized_eq_error_iff {c : Catalog} {key : String} {arguments : List String}
    {p : Preferences} {err : CommandError} :
    (localized s c key arguments p).value = .error err ↔ messageArguments arguments = .error err := by
  rw [localized_value, Except.map_eq_error_iff]

theorem localized_isOk_iff {c : Catalog} {key : String} {arguments : List String}
    {p : Preferences} : (∃ text, (localized s c key arguments p).value = .ok text) ↔
      ∀ a ∈ arguments, ¬IsNameless a := by
  rw [← messageArguments_isOk_iff, localized_value]
  cases messageArguments arguments <;> simp [Except.map]

/-- A command that needs documents fails with the error of their loading, if there is one; a text is
then refused for the first argument without a name, and for no other reason. Commands on tags do not
look at settings or files. -/
theorem run_fails_iff (s : Settings) (fs : FileSystem) :
    (∀ e, (s.catalog fs).value = .error e ↔ s.FailsToLoad fs e) ∧
    (∀ key arguments p,
      (∀ e, (run s fs (.localize key arguments p)).value = .error (.loading e) ↔
        (s.catalog fs).value = .error e) ∧
      (∀ a, (run s fs (.localize key arguments p)).value = .error (.badArgument a) ↔
        (∃ c, (s.catalog fs).value = .ok c) ∧ ∃ before after, arguments = before ++ a :: after ∧
          (∀ b ∈ before, ¬IsNameless b) ∧ IsNameless a) ∧
      ((∃ text, (run s fs (.localize key arguments p)).value = .ok text) ↔
        (∃ c, (s.catalog fs).value = .ok c) ∧ ∀ a ∈ arguments, ¬IsNameless a)) ∧
    (∀ p err, (run s fs (.negotiate p)).value = .error err ↔
      ∃ e, (s.catalog fs).value = .error e ∧ err = .loading e) ∧
    ∀ tags, run s fs (.tags tags) = tags.run := by
  refine ⟨s.catalog_eq_error_iff fs, ?_, ?_, fun _ => rfl⟩
  · intro key arguments p
    rw [run_localize_value]
    cases (s.catalog fs).value with
    | error e => simp
    | ok c =>
      refine ⟨?_, ?_, ?_⟩
      · intro e
        rw [localized_eq_error_iff, messageArguments_eq_error_iff]
        simp
      · intro a
        rw [localized_eq_error_iff, messageArguments_eq_error_iff]
        simp only [Except.ok.injEq, exists_eq', true_and, CommandError.badArgument.injEq]
        constructor
        · rintro ⟨before, b, after, split, earlier, nameless, rfl⟩
          exact ⟨before, after, split, earlier, nameless⟩
        · rintro ⟨before, after, split, earlier, nameless⟩
          exact ⟨before, a, after, split, earlier, nameless, rfl⟩
      · rw [localized_isOk_iff]
        simp
  · intro p err
    rw [run_negotiate_value]
    cases (s.catalog fs).value <;> simp [eq_comm]

end Command
end Phrasebook
