import Phrasebook.Proofs.Failure

/-!
The locale that is printed is the one that texts are taken from. Both go by the list of locales that
preferences stand for: the list that is given, or else the one in the header; so a header says no
more than a list does, and nothing beside a list.
-/

namespace Phrasebook

/-! ### The list that preferences stand for -/

namespace Preferences

theorem requested_of_header (header : String) :
    (requested ⟨[], some header⟩).value = languageHeader header := rfl

theorem requested_unheaded (ls : List String) : (requested ⟨ls, none⟩).value = ls := by
  cases ls <;> rfl

end Preferences

/-! ### The locale and its bundle -/

namespace Command

variable {s : Settings} {c : Catalog} {p q : Preferences}

theorem select_value (s : Settings) (c : Catalog) (p : Preferences) : (select s c p).value =
    (Negotiation.choose? c p.requested.value s.translations.defaultLocale).toList := by
  have chosen := Negotiation.selectLocales_value c p.requested.value s.translations.defaultLocale
  rw [← chosen]
  simp only [select, Logged.bind_value]
  split <;> rfl

/-- The bundles that a text is taken from are those of the locales that are printed. -/
theorem bundles_of_select (s : Settings) (c : Catalog) (p : Preferences) :
    List.Forall₂ (fun l b => ∃ documents, c.get? l.name = some documents ∧
        b = (Bundle.ofDocuments l documents s.translations.isolating).value)
      (select s c p).value (s.negotiator.negotiate c p.requested.value).value := by
  rw [select_value, Negotiator.negotiate_value, List.forall₂_map_right_iff]
  apply List.forall₂_same.mpr
  intro l member
  have supported := Negotiation.supports_of_choose? (Option.mem_toList.mp member)
  exact ⟨_, Catalog.get?_of_supports supported, rfl⟩

theorem bundles_of_select_nil (none : (select s c p).value = []) :
    (s.negotiator.negotiate c p.requested.value).value = [] := by
  have related := bundles_of_select s c p
  rw [none] at related
  exact List.forall₂_nil_left_iff.mp related

/-! ### Preferences that stand for one list -/

theorem select_congr (same : p.requested.value = q.requested.value) :
    (select s c p).value = (select s c q).value := by
  rw [select_value, select_value, same]

theorem localized_congr (same : p.requested.value = q.requested.value) (key : String)
    (arguments : List String) :
    (localized s c key arguments p).value = (localized s c key arguments q).value := by
  rw [localized_value, localized_value, same]

/-- A text is what the bundles of the selected locales answer, so it is the key if none is selected;
and these are the locales that are printed. A header beside a list changes nothing, and alone it is
as good as the list of its locales. -/
theorem localized_of_select (s : Settings) (c : Catalog) {arguments : List String}
    (wellFormed : ∀ a ∈ arguments, IsArgument a) :
    (∃ pairs, messageArguments arguments = .ok pairs ∧ ∀ key p,
      (∃ bundles, List.Forall₂ (fun l b => ∃ documents, c.get? l.name = some documents ∧
            b = (Bundle.ofDocuments l documents s.translations.isolating).value)
          (select s c p).value bundles ∧
        (localized s c key arguments p).value =
          .ok (Localizer.localize ⟨bundles⟩ key (some (argumentSet pairs))).value) ∧
      ((select s c p).value = [] → (localized s c key arguments p).value = .ok key)) ∧
    (∀ fs, (s.catalog fs).value = .ok c → ∀ key p,
      (run s fs (.negotiate p)).value =
        .ok ("\n".intercalate ((select s c p).value.map (·.name))) ∧
      (run s fs (.localize key arguments p)).value = (localized s c key arguments p).value) ∧
    (∀ l ls header? other? key,
      select s c ⟨l :: ls, header?⟩ = select s c ⟨l :: ls, other?⟩ ∧
      localized s c key arguments ⟨l :: ls, header?⟩ =
        localized s c key arguments ⟨l :: ls, other?⟩) ∧
    (∀ header key,
      (select s c ⟨[], some header⟩).value = (select s c ⟨languageHeader header, none⟩).value ∧
      (localized s c key arguments ⟨[], some header⟩).value =
        (localized s c key arguments ⟨languageHeader header, none⟩).value) ∧
    ∀ header key, languageHeader header = [] →
      (select s c ⟨[], some header⟩).value = (select s c ⟨[], none⟩).value ∧
      (localized s c key arguments ⟨[], some header⟩).value =
        (localized s c key arguments ⟨[], none⟩).value := by
  obtain ⟨pairs, split⟩ := messageArguments_of_wellFormed wellFormed
  have answered (key : String) (p : Preferences) : (localized s c key arguments p).value =
      .ok (Localizer.localize ⟨(s.negotiator.negotiate c p.requested.value).value⟩ key
        (some (argumentSet pairs))).value := by
    rw [localized_value, split]
    rfl
  have headed (header : String) : (Preferences.requested ⟨[], some header⟩).value =
      (Preferences.requested ⟨languageHeader header, none⟩).value := by
    rw [Preferences.requested_of_header, Preferences.requested_unheaded]
  refine ⟨⟨pairs, split, ?_⟩, ?_, ?_, ?_, ?_⟩
  · intro key p
    refine ⟨⟨_, bundles_of_select s c p, answered key p⟩, ?_⟩
    intro none
    rw [answered, bundles_of_select_nil none]
    rfl
  · intro fs loaded key p
    rw [run_negotiate_value, run_localize_value, loaded]
    exact ⟨rfl, rfl⟩
  · intro l ls header? other? key
    exact ⟨rfl, rfl⟩
  · intro header key
    exact ⟨select_congr (headed header), localized_congr (headed header) key arguments⟩
  · intro header key empty
    have alike := headed header
    rw [empty] at alike
    exact ⟨select_congr alike, localized_congr alike key arguments⟩

/-- The documents of a tree of two locales, of which one has none. -/
def localeCatalog : Catalog :=
  Loading.file ⟨"translations"⟩ (localeList.map (·.document ⟨"translations"⟩))

theorem localeCatalog_loaded : (Settings.usual.catalog localeFiles).value = .ok localeCatalog := by
  obtain ⟨t, located, isDirectory⟩ := localeFiles_locate
  exact catalog_value (s := Settings.usual) located isDirectory (isDirectory ▸ localeEntries_proper)
    (isDirectory ▸ localeEntries_lists)

theorem header_as_list :
    IsArgument "who=Ann" ∧ (Settings.usual.catalog localeFiles).value = .ok localeCatalog ∧
    (run Settings.usual localeFiles (.negotiate ⟨[], some "fr, en;q=0.5"⟩)).value = .ok "en" ∧
    (run Settings.usual localeFiles
      (.localize "greeting" ["who=Ann"] ⟨[], some "fr, en;q=0.5"⟩)).value =
      (localized Settings.usual localeCatalog "greeting" ["who=Ann"] ⟨["fr", "en"], none⟩).value ∧
    languageHeader ";q=1, ," = [] ∧ (select Settings.usual .empty ⟨[], none⟩).value = [] ∧
    (localized Settings.usual .empty "greeting" ["who=Ann"] ⟨[], some ";q=1, ,"⟩).value =
      .ok "greeting" := by
  have argument : IsArgument "who=Ann" := ⟨"who", "Ann", by decide, by decide, by decide⟩
  have wellFormed : ∀ a ∈ ["who=Ann"], IsArgument a := by simpa using argument
  have header : languageHeader "fr, en;q=0.5" = ["fr", "en"] := by decide +kernel
  have blank : languageHeader ";q=1, ," = [] := by decide +kernel
  have selected : (select Settings.usual localeCatalog ⟨["fr", "en"], none⟩).value = [⟨"en"⟩] := by
    decide +kernel
  have noLocale : (select Settings.usual .empty ⟨[], none⟩).value = [] := by decide +kernel
  obtain ⟨-, commands, -, headed, -⟩ :=
    localized_of_select Settings.usual localeCatalog wellFormed
  obtain ⟨⟨pairs, -, answers⟩, -, -, -, blanks⟩ :=
    localized_of_select Settings.usual .empty wellFormed
  obtain ⟨printed, rendered⟩ :=
    commands localeFiles localeCatalog_loaded "greeting" ⟨[], some "fr, en;q=0.5"⟩
  obtain ⟨sameLocales, sameText⟩ := headed "fr, en;q=0.5" "greeting"
  rw [header] at sameLocales sameText
  refine ⟨argument, localeCatalog_loaded, ?_, rendered.trans sameText, blank, noLocale, ?_⟩
  · rw [printed, sameLocales, selected]
    rfl
  · rw [(blanks ";q=1, ," "greeting" blank).2]
    exact (answers "greeting" ⟨[], none⟩).2 noLocale

end Command
end Phrasebook
