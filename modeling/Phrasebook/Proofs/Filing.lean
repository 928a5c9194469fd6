import Phrasebook.Loading
import Phrasebook.Proofs.Spelling

/-!
The locale of a document. Below its base a document is filed by the first stretch of its path that
names something, elsewhere by the first such stretch of the whole path; how the paths are spelled
makes no difference.
-/

namespace Phrasebook

open Phrasebook.Path

variable {base base' path path' rest : Path}

/-! ### What stands below a base -/

theorem Path.below_congr (sameBase : base'.components = base.components)
    (same : path'.components = path.components) : below base' path' = below base path := by
  unfold below
  rw [sameBase, same]

theorem Path.below_of_within {cs : List Component}
    (inFront : path.components = base.components ++ cs) : below base path = cs := by
  unfold below
  rw [inFront, if_pos (List.isPrefixOf_iff_prefix.mpr (List.prefix_append _ _)), List.drop_left]

theorem Path.below_of_not_within (apart : ¬ base.components <+: path.components) :
    below base path = path.components := by
  unfold below
  rw [if_neg (by rwa [List.isPrefixOf_iff_prefix])]

theorem Path.mem_below {c : Component} (member : c ∈ below base path) : c ∈ path.components := by
  unfold below at member
  split at member
  · exact List.mem_of_mem_drop member
  · exact member

/-! ### Locales -/

theorem findSome?_below_join (base : Path) (relative : rest.isAbsolute = false) :
    (below base (base.join rest)).findSome? Component.name? = rest.firstSegment? := by
  have joined := components_join_relative (p := base) relative
  by_cases empty : base.text = ""
  · rw [if_pos empty] at joined
    have nothing : base.components = [] := by
      rw [show base = ⟨""⟩ from congrArg Path.mk empty]
      decide
    have whole : (base.join rest).components = base.components ++ rest.components := by
      rw [joined, nothing, List.nil_append]
    rw [below_of_within whole]
    exact findSome?_components rest
  · rw [if_neg empty] at joined
    rw [below_of_within joined]
    exact findSome?_innerComponents rest.text.toList

theorem localeForPath_eq_empty_iff : localeForPath base path = ⟨""⟩ ↔
    ∀ c ∈ below base path, c.name? = none := by
  rw [← List.findSome?_eq_none_iff, localeForPath]
  cases first : (below base path).findSome? Component.name? with
  | none => simp
  | some name =>
    obtain ⟨c, member, named⟩ := List.exists_of_findSome?_eq_some first
    simpa using name_ne_empty (mem_below member) named

/-- Documents below a base are filed by the first stretch of their paths there that names something,
and by nothing else. -/
theorem localeForPath_filed (base : Path) :
    (∀ rest segment, rest.isAbsolute = false → rest.firstSegment? = some segment →
      ∀ base' path, (base'.components = base.components ∨ base.Respelled base') →
        (path.components = (base.join rest).components ∨ (base.join rest).Respelled path) →
        localeForPath base' path = ⟨segment⟩) ∧
    (∀ path path' rest rest' segment segment',
      rest.isAbsolute = false → rest.firstSegment? = some segment →
      rest'.isAbsolute = false → rest'.firstSegment? = some segment' →
      path.components = (base.join rest).components →
      path'.components = (base.join rest').components →
      (localeForPath base path = localeForPath base path' ↔ segment = segment')) ∧
    (∀ path, ¬ base.components <+: path.components →
      localeForPath base path = ⟨path.firstSegment?.getD ""⟩) ∧
    ∀ path, localeForPath base path = ⟨""⟩ ↔ ∀ c ∈ below base path, c.name? = none := by
  have filed {rest base' path : Path} {segment : String} (relative : rest.isAbsolute = false)
      (first : rest.firstSegment? = some segment) (sameBase : base'.components = base.components)
      (same : path.components = (base.join rest).components) :
      localeForPath base' path = ⟨segment⟩ := by
    rw [localeForPath, below_congr sameBase same, findSome?_below_join base relative, first]
    rfl
  refine ⟨?_, ?_, ?_, fun path => localeForPath_eq_empty_iff⟩
  · intro rest segment relative first base' path sameBase same
    exact filed relative first (sameBase.elim id Respelled.components_eq)
      (same.elim id Respelled.components_eq)
  · intro path path' rest rest' segment segment' relative first relative' first' same same'
    rw [filed relative first rfl same, filed relative' first' rfl same', Locale.mk.injEq]
  · intro path apart
    rw [localeForPath, below_of_not_within apart, findSome?_components]

/-- Dots and slashes on the way to a document do not count, and those of its base do not either. -/
theorem localeForPath_dotted :
    (⟨"./..//en/page/home.ftl"⟩ : Path).isAbsolute = false ∧
    (⟨"./..//en/page/home.ftl"⟩ : Path).firstSegment? = some "en" ∧
    localeForPath ⟨"site/./translations/"⟩ ⟨"site/translations/.././en//page/home.ftl"⟩ = ⟨"en"⟩ ∧
    localeForPath ⟨"site/translations"⟩ ⟨"site/translations-old/en/home.ftl"⟩ = ⟨"site"⟩ := by
  obtain ⟨filed, _, apart, _⟩ := localeForPath_filed ⟨"site/translations"⟩
  have relative : (⟨"./..//en/page/home.ftl"⟩ : Path).isAbsolute = false := by
    rw [isAbsolute_eq_false_iff]
    decide
  have first : (⟨"./..//en/page/home.ftl"⟩ : Path).firstSegment? = some "en" := by decide
  refine ⟨relative, first, filed _ "en" relative first _ _ (.inl ?_) (.inl ?_), apart _ ?_⟩
  · decide
  · rw [components_join_relative relative]
    decide
  · decide

end Phrasebook
