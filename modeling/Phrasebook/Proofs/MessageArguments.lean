import Mathlib.Data.List.Induction
import Mathlib.Data.List.Perm.Basic
import Phrasebook.Proofs.Failure
import Phrasebook.Proofs.Unmentioned

/-!
Arguments of a message as they are written and as they are looked up. The first equals sign of an
argument parts its name from its value, and nothing is lost. Of several values for one name the last
counts, so only these matter for a text, and arguments with different names may come in any order.
-/

namespace Phrasebook

open Fluent

/-! ### Parts of an argument -/

/-- An argument and its name and value, which a first equals sign keeps apart. -/
structure Parted (a : String) (pair : String × String) : Prop where
  whole : a = pair.1 ++ "=" ++ pair.2
  noSign : '=' ∉ pair.1.toList
  named : pair.1 ≠ ""

theorem messageArgument_eq_ok_iff {a : String} {pair : String × String} :
    messageArgument a = .ok pair ↔ Parted a pair := by
  constructor
  · intro accepted
    obtain ⟨nameless, failed⟩ | ⟨named, -⟩ := messageArgument_cases a
    · rw [failed] at accepted
      cases accepted
    · obtain ⟨name, value, given, noSign, rfl⟩ := isArgument_of_not_nameless named
      rw [messageArgument_of_wellFormed given noSign value] at accepted
      cases accepted
      exact ⟨rfl, noSign, given⟩
  · rintro ⟨rfl, noSign, named⟩
    exact messageArgument_of_wellFormed named noSign pair.2

theorem messageArguments_eq_ok_iff {as : List String} {pairs : List (String × String)} :
    messageArguments as = .ok pairs ↔ List.Forall₂ Parted as pairs := by
  simp only [messageArguments, Except.mapM_eq_ok_iff, messageArgument_eq_ok_iff]

/-! ### Last values -/

/-- The value of the last pair with that name. -/
def lastValue? (pairs : List (String × String)) (name : String) : Option String :=
  (pairs.reverse.find? (·.1 == name)).map (·.2)

variable {pairs others : List (String × String)} {name value : String}

theorem not_mem_names_iff : name ∉ pairs.map (·.1) ↔ ∀ pair ∈ pairs, pair.1 ≠ name := by
  simp only [List.mem_map, not_exists, not_and, ne_eq]

theorem lastValue?_eq_some_iff : lastValue? pairs name = some value ↔
    ∃ before after, pairs = before ++ (name, value) :: after ∧ name ∉ after.map (·.1) := by
  rw [lastValue?, Option.map_eq_some_iff]
  constructor
  · rintro ⟨⟨n, v⟩, found, rfl⟩
    obtain ⟨same, after, before, split, fresh⟩ := List.find?_eq_some_iff_append.mp found
    obtain rfl := eq_of_beq same
    refine ⟨before.reverse, after.reverse, List.reverse_injective (by simpa using split), ?_⟩
    apply not_mem_names_iff.mpr
    intro pair member
    simpa using fresh pair (List.mem_reverse.mp member)
  · rintro ⟨before, after, rfl, fresh⟩
    refine ⟨(name, value), List.find?_eq_some_iff_append.mpr ⟨beq_self_eq_true name, ?_⟩, rfl⟩
    refine ⟨after.reverse, before.reverse, by simp, ?_⟩
    intro pair member
    simpa using not_mem_names_iff.mp fresh pair (List.mem_reverse.mp member)

theorem lastValue?_eq_none_iff : lastValue? pairs name = none ↔ name ∉ pairs.map (·.1) := by
  rw [not_mem_names_iff, lastValue?, Option.map_eq_none_iff, List.find?_eq_none]
  simp only [List.mem_reverse, beq_iff_eq, ne_eq]

theorem lastValue?_concat (pairs : List (String × String)) (n v name : String) :
    lastValue? (pairs ++ [(n, v)]) name = if n = name then some v else lastValue? pairs name := by
  by_cases same : n = name <;> simp [lastValue?, same]

/-- Setting one argument after another leaves the last value of each name. -/
theorem get?_argumentSet (pairs : List (String × String)) (name : String) :
    (argumentSet pairs).get? name = (lastValue? pairs name).map Value.string := by
  induction pairs using List.reverseRecOn with
  | nil => rfl
  | append_singleton pairs pair ih =>
    have step : argumentSet (pairs ++ [pair]) = (argumentSet pairs).set pair.1 (.string pair.2) := by
      simp [argumentSet, ArgumentSet.ofPairs]
    rw [step, ArgumentSet.get?_set, ih, lastValue?_concat]
    split <;> rfl

theorem lastValue?_eq_some_iff_mem (distinct : (pairs.map (·.1)).Nodup) :
    lastValue? pairs name = some value ↔ (name, value) ∈ pairs := by
  rw [lastValue?_eq_some_iff]
  constructor
  · rintro ⟨before, after, rfl, -⟩
    simp
  · intro member
    obtain ⟨before, after, rfl⟩ := List.append_of_mem member
    refine ⟨before, after, rfl, ?_⟩
    rw [List.map_append, List.map_cons] at distinct
    exact (List.nodup_cons.mp distinct.of_append_right).1

theorem lastValue?_perm (perm : others.Perm pairs) (distinct : (pairs.map (·.1)).Nodup)
    (name : String) : lastValue? others name = lastValue? pairs name := by
  have alsoDistinct : (others.map (·.1)).Nodup := (perm.map _).nodup_iff.mpr distinct
  apply Option.ext
  intro value
  rw [lastValue?_eq_some_iff_mem alsoDistinct, lastValue?_eq_some_iff_mem distinct, perm.mem_iff]

/-! ### Texts -/

namespace Command

/-- The last value of each name is all of the arguments that a text can depend on. -/
theorem localized_of_lastValue? {as bs : List String} (accepted : messageArguments as = .ok pairs)
    (alsoAccepted : messageArguments bs = .ok others)
    (same : ∀ name, lastValue? others name = lastValue? pairs name) (s : Settings) (c : Catalog)
    (key : String) (p : Preferences) : localized s c key bs p = localized s c key as p := by
  have sets (bundles : List Bundle) : Localizer.localize ⟨bundles⟩ key (some (argumentSet others)) =
      Localizer.localize ⟨bundles⟩ key (some (argumentSet pairs)) := by
    apply Localizer.localize_congr
    intro b _ id e _ name _
    simp only [Option.bind_some, get?_argumentSet, same]
  simp only [localized, accepted, alsoAccepted, sets]

theorem exists_perm_pairs {as bs : List String} (accepted : messageArguments as = .ok pairs)
    (perm : bs.Perm as) : ∃ others, messageArguments bs = .ok others ∧ others.Perm pairs := by
  obtain ⟨others, parted, samePairs⟩ :=
    List.perm_comp_forall₂ perm (messageArguments_eq_ok_iff.mp accepted)
  exact ⟨others, messageArguments_eq_ok_iff.mpr parted, samePairs⟩

/-- Each accepted argument is its name, an equals sign and its value. For every name the last value
that is given counts, and there is none for other names. So arguments lead to the same text and
reports if the last value of each name is the same, as it is if arguments with different names are
put in another order. -/
theorem messageArguments_last {as : List String} (accepted : messageArguments as = .ok pairs) :
    List.Forall₂ Parted as pairs ∧
    (∀ before name value after, pairs = before ++ (name, value) :: after →
      name ∉ after.map (·.1) → (argumentSet pairs).get? name = some (.string value)) ∧
    (∀ name, name ∉ pairs.map (·.1) → (argumentSet pairs).get? name = none) ∧
    (∀ bs others, messageArguments bs = .ok others →
      (∀ name, lastValue? others name = lastValue? pairs name) →
      ∀ s c key p, localized s c key bs p = localized s c key as p) ∧
    ∀ bs, bs.Perm as → (pairs.map (·.1)).Nodup →
      (∃ others, messageArguments bs = .ok others) ∧
      ∀ s c key p, localized s c key bs p = localized s c key as p := by
  refine ⟨messageArguments_eq_ok_iff.mp accepted, ?_, ?_, ?_, ?_⟩
  · intro before name value after split fresh
    rw [get?_argumentSet, lastValue?_eq_some_iff.mpr ⟨before, after, split, fresh⟩]
    rfl
  · intro name absent
    rw [get?_argumentSet, lastValue?_eq_none_iff.mpr absent]
    rfl
  · intro bs others alsoAccepted same
    exact localized_of_lastValue? accepted alsoAccepted same
  · intro bs perm distinct
    obtain ⟨others, alsoAccepted, samePairs⟩ := exists_perm_pairs accepted perm
    exact ⟨⟨others, alsoAccepted⟩,
      localized_of_lastValue? accepted alsoAccepted (lastValue?_perm samePairs distinct)⟩

theorem repeated_argument_last :
    messageArguments ["n=1", "url=a=b", "n="] = .ok [("n", "1"), ("url", "a=b"), ("n", "")] ∧
      (argumentSet [("n", "1"), ("url", "a=b"), ("n", "")]).get? "n" = some (.string "") ∧
      ∀ s c key p, localized s c key ["url=a=b", "n="] p =
        localized s c key ["n=1", "url=a=b", "n="] p := by
  have accepted : messageArguments ["n=1", "url=a=b", "n="] =
      .ok [("n", "1"), ("url", "a=b"), ("n", "")] := rfl
  obtain ⟨-, last, -, same, -⟩ := messageArguments_last accepted
  refine ⟨accepted, last [("n", "1"), ("url", "a=b")] "n" "" [] rfl (by simp), ?_⟩
  apply same _ [("url", "a=b"), ("n", "")] rfl
  intro name
  by_cases isNumber : "n" = name <;> by_cases isAddress : "url" = name <;>
    simp [lastValue?, isNumber, isAddress]

end Command
end Phrasebook
