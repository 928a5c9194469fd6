import Phrasebook.Command.Line
import Phrasebook.Proofs.Items

/-!
Command lines that ask for the text of a message. The key, the arguments, the locales and the header
stand behind the name of the command in any order, and what all commands share stands there too or
before the name; each is read as it is said, whatever stands around it.
-/

namespace Phrasebook

open Arguments

namespace CommandLine

variable {i : Item} {before after : List Item} {as bs : List String} {env : Environment}
  {key : String} {arguments locales : List String} {header? config? level? : Option String}

/-! ### What can be said -/

/-- What can be said about every command. -/
inductive IsShared : Item → Prop where
  | config (v : String) : IsShared (.option config v)
  | level (v : String) : IsShared (.option logLevel v)

/-- What can be said behind the name of the command. -/
inductive IsLocalizing : Item → Prop where
  | key (v : String) : IsLocalizing (.place keyPlace v)
  | argument (v : String) : IsLocalizing (.option argument v)
  | locale (v : String) : IsLocalizing (.option locale v)
  | header (v : String) : IsLocalizing (.option acceptLanguage v)
  | shared {i : Item} (shared : IsShared i) : IsLocalizing i

/-- Items before the name of the command and behind it that say just this, in any order of the kinds
of items. -/
structure Asks (before after : List Item) (key : String) (arguments locales : List String)
    (header? config? level? : Option String) : Prop where
  shared : ∀ i ∈ before, IsShared i
  localizing : ∀ i ∈ after, IsLocalizing i
  key : valuesFor keyPlace.name after = [key]
  arguments : valuesFor argument.name after = arguments
  locales : valuesFor locale.name after = locales
  header : valuesFor acceptLanguage.name after = header?.toList
  config : valuesFor config.name (before ++ after) = config?.toList
  level : valuesFor logLevel.name (before ++ after) = level?.toList

/-! ### What the commands offer -/

theorem names_usage : usage.NamesPlainly := by
  intro a dash
  have plainly : ∀ u ∈ usage.commands, u.name.toList.head? ≠ some '-' := by decide
  rw [Usage.hasCommand, Bool.or_eq_false_iff]
  constructor
  · rw [Usage.command?, Option.isSome_eq_false_iff, Option.isNone_iff_eq_none, List.find?_eq_none]
    intro u member same
    exact plainly u member (by rwa [beq_iff_eq.mp same])
  · have other : a ≠ Usage.helpName := by
      rintro rfl
      exact absurd dash (by decide)
    simp [other]

theorem names_localizeUsage : localizeUsage.NamesPlainly := fun _ _ => rfl

theorem IsShared.offered (shared : IsShared i) : i.Offered usage := by
  cases shared with
  | config v => exact .of_all rfl (by decide) rfl (by decide) (by decide) v
  | level v => exact .of_all rfl (by decide) rfl (by decide) (by decide) v

theorem IsLocalizing.offered (localizing : IsLocalizing i) : i.Offered localizeUsage := by
  cases localizing with
  | key v => exact .place rfl rfl v
  | argument v => exact .of_all rfl (by decide) rfl (by decide) (by decide) v
  | locale v => exact .of_all rfl (by decide) rfl (by decide) (by decide) v
  | header v => exact .of_all rfl (by decide) rfl (by decide) (by decide) v
  | shared shared =>
    cases shared with
    | config v => exact .of_all rfl (by decide) rfl (by decide) (by decide) v
    | level v => exact .of_all rfl (by decide) rfl (by decide) (by decide) v

theorem repeats_of_localizing (localizing : IsLocalizing i) (unrepeated : i.repeats = false) :
    i.name = keyPlace.name ∨ i.name = acceptLanguage.name ∨ i.name = config.name ∨
      i.name = logLevel.name := by
  cases localizing with
  | key v => exact .inl rfl
  | argument v => cases unrepeated
  | locale v => cases unrepeated
  | header v => exact .inr (.inl rfl)
  | shared shared =>
    cases shared with
    | config v => exact .inr (.inr (.inl rfl))
    | level v => exact .inr (.inr (.inr rfl))

theorem name_of_shared (shared : IsShared i) : i.name = config.name ∨ i.name = logLevel.name := by
  cases shared with
  | config v => exact .inl rfl
  | level v => exact .inr rfl

theorem Asks.single_before
    (asks : Asks before after key arguments locales header? config? level?) : Single before := by
  refine single_of_valuesFor fun i member _ => ?_
  obtain name | name := name_of_shared (asks.shared i member)
  · rw [name]
    exact (length_valuesFor_le asks.config).1
  · rw [name]
    exact (length_valuesFor_le asks.level).1

theorem Asks.single_after
    (asks : Asks before after key arguments locales header? config? level?) : Single after := by
  refine single_of_valuesFor fun i member unrepeated => ?_
  obtain name | name | name | name :=
    repeats_of_localizing (asks.localizing i member) unrepeated
  · rw [name, asks.key]
    rfl
  · rw [name, asks.header]
    exact Option.length_toList_le
  · rw [name]
    exact (length_valuesFor_le asks.config).2
  · rw [name]
    exact (length_valuesFor_le asks.level).2

/-! ### Reading -/

/-- What is given for the command and for the program in the end. -/
def calling (before after : List Item) : Call :=
  ⟨["localize"], [after.map Item.given, before.map Item.given]⟩

theorem unset_options {u : Usage} (noHeader : env "TESSERA_ACCEPT_LANGUAGE" = none)
    (noConfig : env Settings.pathVariable = none)
    (known : ∀ x ∈ u.options, x.standIn? = none ∨ x.standIn? = some "TESSERA_ACCEPT_LANGUAGE" ∨
      x.standIn? = some Settings.pathVariable) :
    ∀ x ∈ u.options, x.standIn?.bind env = none := by
  intro x member
  obtain none | header | path := known x member
  · rw [none]
    rfl
  · rw [header]
    exact noHeader
  · rw [path]
    exact noConfig

theorem read_calling (asks : Asks before after key arguments locales header? config? level?)
    (plain : ∀ i ∈ before ++ after, i.IsPlain) (noHeader : env "TESSERA_ACCEPT_LANGUAGE" = none)
    (noConfig : env Settings.pathVariable = none) (line : Line before as) (line' : Line after bs) :
    usage.read env (as ++ "localize" :: bs) = .ok (calling before after) := by
  obtain ⟨plainBefore, plainAfter⟩ := List.forall_mem_append.mp plain
  obtain ⟨f, readBefore, settled, unseparated⟩ := Progress.run_items (f := .start usage) line
    (fun i member => (asks.shared i member).offered) names_usage plainBefore rfl rfl
    asks.single_before (by simp [Frame.has, Frame.start]) [] ("localize" :: bs)
  obtain ⟨g, readAfter, settled', _⟩ := Progress.run_items (f := .start localizeUsage) line'
    (fun i member => (asks.localizing i member).offered) names_localizeUsage plainAfter rfl rfl
    asks.single_after (by simp [Frame.has, Frame.start]) [f] []
  have seeks := Frame.seeksCommand_of_settle settled unseparated
  have run : Progress.run ⟨.start usage, []⟩ (as ++ "localize" :: bs) = .ok ⟨g, [f]⟩ := by
    rw [readBefore]
    refine Progress.run_cons_eq_ok_iff.mpr (.inl ⟨localizeUsage, seeks, ?_, ?_⟩)
    · rw [← (Frame.settle_grows settled).usage]
      rfl
    · rw [List.append_nil] at readAfter
      rw [readAfter]
      rfl
  have inner : g.finish env false = .ok (after.map Item.given) := by
    refine Frame.finish_unset settled' (unset_options noHeader noConfig ?_) (.inr rfl) ?_
    · show ∀ x ∈ localizeUsage.options, _
      decide
    · have keyed : ((Frame.start localizeUsage).plus (after.map Item.given)).has keyPlace.name =
          true := has_of_valuesFor (by simp [asks.key])
      show [keyPlace].find? _ = none
      simp [keyed]
  have outer : f.finish env true = .ok (before.map Item.given) := by
    refine Frame.finish_unset settled (unset_options noHeader noConfig ?_) (.inl rfl) rfl
    show ∀ x ∈ usage.options, _
    decide
  refine Usage.read_eq_ok_iff.mpr ⟨_, run, ?_⟩
  refine Progress.finish_eq_ok_iff.mpr ⟨_, [before.map Item.given], inner, ?_, ?_⟩
  · exact (Except.mapM_eq_ok_iff _).mpr (.cons outer .nil)
  · have usages : [g, f].map (·.usage.name) = ["localize", "tessera"] := by
      rw [List.map_cons, List.map_singleton, ← (Frame.settle_grows settled').usage,
        ← (Frame.settle_grows settled).usage]
      rfl
    rw [calling, Progress.frames, usages]
    rfl

/-! ### What is asked for -/

theorem values_calling (name : String) (none : valuesFor name before = []) (after : List Item) :
    (calling before after).values name = valuesFor name after := by
  simp only [Call.values, calling, List.map_cons, List.map_nil, givenOf_line_items,
    givenOf_environment_items, none]
  cases valuesFor name after <;> rfl

theorem value?_calling {name : String} {v? : Option String}
    (values : valuesFor name (before ++ after) = v?.toList) :
    (calling before after).value? name = v? := by
  rw [Call.value?_eq]
  simp only [calling, List.flatMap_cons, List.flatMap_nil, givenOf_line_items,
    givenOf_environment_items, List.append_nil, List.head?_nil, Option.or_none]
  rw [valuesFor_append] at values
  cases v? with
  | none =>
    obtain ⟨none, none'⟩ := List.append_eq_nil_iff.mp values
    rw [none, none']
    rfl
  | some v =>
    obtain ⟨early, late⟩ | ⟨early, late⟩ := List.append_eq_singleton_iff.mp values
    all_goals
      rw [early, late]
      rfl

/-- A line that asks for the text of a message is read as it is said, in whatever order and spelling
the items stand on it. -/
theorem read_localize (asks : Asks before after key arguments locales header? config? level?)
    (plain : ∀ i ∈ before ++ after, i.IsPlain) (noHeader : env "TESSERA_ACCEPT_LANGUAGE" = none)
    (noConfig : env Settings.pathVariable = none) (line : Line before as) (line' : Line after bs) :
    read env (as ++ "localize" :: bs) =
      .ok ⟨config?.map Path.mk, level?, .localize key arguments ⟨locales, header?⟩⟩ := by
  have called := read_calling asks plain noHeader noConfig line line'
  -- Nothing but what all commands share stands before the name.
  have onlyAfter {name : String} (apart : name ≠ config.name ∧ name ≠ logLevel.name) :
      valuesFor name before = [] := by
    refine valuesFor_eq_nil fun i member same => ?_
    obtain shared | shared := name_of_shared (asks.shared i member)
    · exact apart.1 (same.symm.trans shared)
    · exact apart.2 (same.symm.trans shared)
  have single {name : String} {v? : Option String}
      (apart : name ≠ config.name ∧ name ≠ logLevel.name)
      (values : valuesFor name after = v?.toList) : (calling before after).value? name = v? := by
    refine value?_calling ?_
    rw [valuesFor_append, onlyAfter apart, List.nil_append, values]
  have isKey : (calling before after).value? keyPlace.name = some key :=
    single (by decide) asks.key
  have isHeader := single (by decide) asks.header
  have areArguments := values_calling argument.name (onlyAfter (by decide)) after
  have areLocales := values_calling locale.name (onlyAfter (by decide)) after
  have command : commandOf (calling before after) =
      .ok (.localize key arguments ⟨locales, header?⟩) := by
    have names : (calling before after).names = ["localize"] := rfl
    simp only [commandOf, names, required, isKey, isHeader, areArguments, areLocales,
      asks.arguments, asks.locales]
    rfl
  have isConfig := value?_calling asks.config
  have isLevel := value?_calling asks.level
  refine Except.bind_eq_ok_iff.mpr ⟨_, called, ?_⟩
  rw [ofCall, command, isConfig, isLevel]
  rfl

/-- Items in no particular order, with values that could be taken for something else. -/
def mixed : List Item :=
  [.option argument "name=Ada", .option locale "fr", .place keyPlace "help",
    .option config "my.yaml", .option argument "n=1=2", .option acceptLanguage "de, en",
    .option locale "en"]

theorem asks_mixed : Asks [.option logLevel "localize"] mixed "help" ["name=Ada", "n=1=2"]
    ["fr", "en"] (some "de, en") (some "my.yaml") (some "localize") where
  shared := by simpa using IsShared.level "localize"
  localizing := by
    simp only [mixed, List.forall_mem_cons, List.not_mem_nil, false_imp_iff, implies_true, and_true]
    exact ⟨.argument _, .locale _, .key _, .shared (.config _), .argument _, .header _, .locale _⟩
  key := by decide
  arguments := by decide
  locales := by decide
  header := by decide
  config := by decide
  level := by decide

theorem read_mixed :
    Asks [.option logLevel "localize"] mixed "help" ["name=Ada", "n=1=2"] ["fr", "en"]
      (some "de, en") (some "my.yaml") (some "localize") ∧
    read (fun _ => none) ["--log-level", "localize", "localize", "-a", "name=Ada", "--locale=fr",
        "help", "--config", "my.yaml", "--arg=n=1=2", "--accept-language", "de, en", "--locale",
        "en"] =
      .ok ⟨some ⟨"my.yaml"⟩, some "localize",
        .localize "help" ["name=Ada", "n=1=2"] ⟨["fr", "en"], some "de, en"⟩⟩ :=
  ⟨asks_mixed, read_localize asks_mixed (by decide) rfl rfl (.cons (.apart _ _) .nil)
    (.cons (.short rfl _) <| .cons (.joined _ _) <| .cons (.place _ _) <| .cons (.apart _ _) <|
      .cons (.joined _ _) <| .cons (.apart _ _) <| .cons (.apart _ _) .nil)⟩

end CommandLine
end Phrasebook
