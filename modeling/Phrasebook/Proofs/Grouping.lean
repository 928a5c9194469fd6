import Mathlib.Data.List.Dedup
import Mathlib.Data.List.Sort
import Phrasebook.Proofs.Catalog

/-!
What a catalog shows of the pushes that made it. For every locale it has the documents pushed for
that locale and keeps their order, its locales stand in the order of the code points of their names,
and it does not tell in which order the locales took turns.
-/

namespace Phrasebook

/-! ### Names by code points -/

/-- The code points of a name. -/
def Locale.codePoints (l : Locale) : List Nat := l.name.toList.map Char.toNat

theorem map_toNat_lt_iff (cs ds : List Char) :
    cs.map Char.toNat < ds.map Char.toNat ↔ cs < ds := by
  induction cs generalizing ds with
  | nil => cases ds <;> simp
  | cons c cs ih =>
    cases ds with
    | nil => simp
    | cons d ds =>
      rw [List.map_cons, List.map_cons, List.cons_lt_cons_iff, List.cons_lt_cons_iff, ih,
        Char.toNat_inj]
      rfl

theorem Locale.codePoints_lt_iff (a b : Locale) :
    a.codePoints < b.codePoints ↔ a.name < b.name := by
  rw [String.lt_iff_toList_lt]
  exact map_toNat_lt_iff a.name.toList b.name.toList

namespace Catalog

variable {c c' : Catalog} {ps qs : List (Locale × Document)}

/-! ### Runs of pushes -/

/-- Catalogs and the documents that went into them: collected from a list at first, then pushed one
after another. -/
inductive Filed : List (Locale × Document) → Catalog → Prop where
  | collected (ps : List (Locale × Document)) : Filed ps (ofList ps)
  | pushed {ps : List (Locale × Document)} {c : Catalog} (filed : Filed ps c) (locale : Locale)
    (d : Document) : Filed (ps ++ [(locale, d)]) (c.push locale d)

theorem filed_empty : Filed [] empty := .collected []

theorem Filed.eq_ofList (filed : Filed ps c) : c = ofList ps := by
  induction filed with
  | collected ps => rfl
  | pushed filed locale d ih => rw [ih, ofList, ofList, List.foldl_append]; rfl

/-! ### Shelves -/

theorem WellFormed.locales_ordered (wf : c.WellFormed) :
    c.locales.Pairwise fun a b => a.codePoints < b.codePoints := by
  rw [locales, List.pairwise_map]
  exact wf.ordered.imp fun before => (Locale.codePoints_lt_iff _ _).mpr before

theorem WellFormed.locales_nodup (wf : c.WellFormed) : c.locales.Nodup := by
  refine wf.locales_ordered.imp ?_
  rintro a b before rfl
  exact lt_irrefl _ before

/-- The documents of a locale stand on its only shelf. -/
theorem WellFormed.mem_shelves_iff (wf : c.WellFormed) {s : Shelf} :
    s ∈ c.shelves ↔ c.get? s.locale.name = some s.documents := by
  constructor
  · intro member
    have found : (c.shelves.find? (·.locale.name == s.locale.name)).isSome = true := by
      rw [List.find?_isSome]
      exact ⟨s, member, by simp⟩
    obtain ⟨t, first⟩ := Option.isSome_iff_exists.mp found
    have sameLocale : t.locale = s.locale :=
      Locale.eq_of_name (by simpa using List.find?_some first)
    have same : t = s :=
      List.inj_on_of_nodup_map wf.locales_nodup (List.mem_of_find?_eq_some first) member sameLocale
    rw [get?, first, same]
    rfl
  · intro found
    obtain ⟨t, first, documents⟩ := Option.map_eq_some_iff.mp found
    have sameLocale : t.locale = s.locale :=
      Locale.eq_of_name (by simpa using List.find?_some first)
    have same : t = s := by
      cases t
      cases s
      exact congrArg₂ Shelf.mk sameLocale documents
    exact same ▸ List.mem_of_find?_eq_some first

/-- A catalog is known by the documents that it has for each locale. -/
theorem WellFormed.eq_of_get? (wf : c.WellFormed) (wf' : c'.WellFormed)
    (same : ∀ name, c'.get? name = c.get? name) : c' = c := by
  have antisymmetric : Std.Antisymm fun s t : Shelf => s.locale.name < t.locale.name :=
    ⟨fun _ _ before after => absurd after (lt_asymm before)⟩
  have irreflexive : Std.Irrefl fun s t : Shelf => s.locale.name < t.locale.name :=
    ⟨fun s => lt_irrefl s.locale.name⟩
  have shelves : c'.shelves = c.shelves := by
    refine wf'.ordered.eq_of_mem_iff wf.ordered fun s => ?_
    rw [wf.mem_shelves_iff, wf'.mem_shelves_iff, same]
  cases c
  cases c'
  exact congrArg Catalog.mk shelves

theorem supports_iff_mem_locales {name : String} :
    c.supports name = true ↔ (⟨name⟩ : Locale) ∈ c.locales := by
  simp only [supports, locales, List.any_eq_true, List.mem_map, beq_iff_eq]
  constructor
  · rintro ⟨s, member, rfl⟩
    exact ⟨s, member, rfl⟩
  · rintro ⟨s, member, same⟩
    exact ⟨s, member, congrArg Locale.name same⟩

/-! ### Observations -/

theorem pushedFor_eq_nil_iff {name : String} :
    pushedFor ps name = [] ↔ (⟨name⟩ : Locale) ∉ ps.map Prod.fst := by
  simp only [pushedFor, List.map_eq_nil_iff, List.filter_eq_nil_iff, List.mem_map, beq_iff_eq]
  constructor
  · rintro others ⟨p, member, same⟩
    exact others p member (congrArg Locale.name same)
  · rintro others p member same
    exact others ⟨p, member, Locale.eq_of_name same⟩

theorem isSome_get?_ofList {name : String} :
    ((ofList ps).get? name).isSome = true ↔ (⟨name⟩ : Locale) ∈ ps.map Prod.fst := by
  rw [get?_ofList, isSome_shelved, Bool.not_eq_true', List.isEmpty_eq_false_iff, Ne,
    pushedFor_eq_nil_iff, not_not]

theorem locales_ofList_perm (ps : List (Locale × Document)) :
    (ofList ps).locales.Perm (ps.map Prod.fst).dedup := by
  rw [List.perm_ext_iff_of_nodup (wellFormed_ofList ps).locales_nodup (List.nodup_dedup _)]
  intro l
  rw [List.mem_dedup, ← isSome_get?_ofList, ← supports_eq_get?_isSome]
  exact supports_iff_mem_locales.symm

theorem size_ofList (ps : List (Locale × Document)) :
    (ofList ps).size = (ps.map Prod.fst).dedup.length := by
  rw [← (locales_ofList_perm ps).length_eq, size, locales, List.length_map]

theorem isEmpty_ofList : (ofList ps).isEmpty = true ↔ ps = [] := by
  have none : (ofList ps).isEmpty = true ↔ (ofList ps).locales = [] := by
    rw [isEmpty, List.isEmpty_iff, locales, List.map_eq_nil_iff]
  rw [none, ← List.perm_nil, (locales_ofList_perm ps).congr_left, List.perm_nil,
    List.dedup_eq_nil, List.map_eq_nil_iff]

/-- A catalog that documents went into shows for each locale what came for it, in that order, and
nothing else: catalogs with the same documents for each locale are the same. -/
theorem Filed.observed (filed : Filed ps c) :
    (∀ name, c.get? name = shelved (pushedFor ps name)) ∧
    (∀ name, ((c.get? name).isSome = true ↔ c.supports name = true) ∧
      (c.supports name = true ↔ ⟨name⟩ ∈ c.locales)) ∧
    (∀ s ∈ c.shelves, s.documents ≠ []) ∧
    (c.locales.Pairwise fun a b => a.codePoints < b.codePoints) ∧ c.locales.Nodup ∧
    c.size = (ps.map Prod.fst).dedup.length ∧ c.documentCount = ps.length ∧
    (c.isEmpty = true ↔ ps = []) ∧
    ∀ qs c', Filed qs c' → ((∀ name, pushedFor qs name = pushedFor ps name) ↔ c' = c) := by
  obtain rfl := filed.eq_ofList
  have wf := wellFormed_ofList ps
  refine ⟨get?_ofList ps, ?_, wf.filled, wf.locales_ordered, wf.locales_nodup, size_ofList ps,
    documentCount_ofList ps, isEmpty_ofList, ?_⟩
  · intro name
    rw [supports_eq_get?_isSome]
    exact ⟨Iff.rfl, by rw [← supports_eq_get?_isSome]; exact supports_iff_mem_locales⟩
  · intro qs c' filed'
    obtain rfl := filed'.eq_ofList
    constructor
    · intro same
      refine wf.eq_of_get? (wellFormed_ofList qs) fun name => ?_
      rw [get?_ofList, get?_ofList, same]
    · intro same name
      rw [← getD_shelved (pushedFor qs name), ← get?_ofList, same, get?_ofList, getD_shelved]

/-- A document without entries. -/
def blankDocument (path : String) : Document := ⟨⟨path⟩, []⟩

/-- Locales that take turns, and one that differs from another in the case of its letters. -/
def takingTurns : Catalog :=
  ((empty.push ⟨"fr"⟩ (blankDocument "fr/a.ftl")).push ⟨"EN"⟩ (blankDocument "EN/a.ftl")).push
    ⟨"fr"⟩ (blankDocument "fr/b.ftl")

theorem takingTurns_observed :
    Filed [(⟨"fr"⟩, blankDocument "fr/a.ftl"), (⟨"EN"⟩, blankDocument "EN/a.ftl"),
      (⟨"fr"⟩, blankDocument "fr/b.ftl")] takingTurns ∧
    takingTurns.get? "fr" = some [blankDocument "fr/a.ftl", blankDocument "fr/b.ftl"] ∧
    takingTurns.get? "en" = none ∧
    ofList [(⟨"EN"⟩, blankDocument "EN/a.ftl"), (⟨"fr"⟩, blankDocument "fr/a.ftl"),
      (⟨"fr"⟩, blankDocument "fr/b.ftl")] = takingTurns := by
  have filed : Filed [(⟨"fr"⟩, blankDocument "fr/a.ftl"), (⟨"EN"⟩, blankDocument "EN/a.ftl"),
      (⟨"fr"⟩, blankDocument "fr/b.ftl")] takingTurns :=
    .pushed (.pushed (.pushed filed_empty _ _) _ _) _ _
  obtain ⟨found, _, _, _, _, _, _, _, turns⟩ := filed.observed
  refine ⟨filed, found "fr", found "en", (turns _ _ (.collected _)).mp fun name => ?_⟩
  by_cases fr : "fr" = name
  · subst fr
    rfl
  · by_cases en : "EN" = name
    · subst en
      rfl
    · simp [pushedFor, fr, en]

end Catalog
end Phrasebook
