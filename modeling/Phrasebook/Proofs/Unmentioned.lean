import Phrasebook.Command.Run
import Phrasebook.Proofs.Alike

/-!
Arguments that nothing refers to. A localizer looks up only the arguments that some message or term
of its documents mentions, so whatever else is given makes no difference, nor does it make one
whether no arguments are given or a set without any.
-/

namespace Phrasebook

open Fluent

/-! ### Sets of arguments -/

namespace Fluent.ArgumentSet

theorem get?_cons (first : String × Value) (rest : ArgumentSet) (name : String) :
    get? (first :: rest) name = if first.1 = name then some first.2 else rest.get? name := by
  by_cases same : first.1 = name <;> simp [get?, same]

theorem get?_isSome (args : ArgumentSet) (name : String) :
    (args.get? name).isSome = args.any (·.1 == name) := by
  rw [get?, Option.isSome_map, Bool.eq_iff_iff, List.find?_isSome, List.any_eq_true]

theorem get?_replaced (args : ArgumentSet) (name : String) (value : Value) (other : String) :
    get? (args.map fun a => if a.1 == name then (name, value) else a) other =
      (args.get? other).map fun old => if name = other then value else old := by
  induction args with
  | nil => rfl
  | cons first rest ih =>
    rw [List.map_cons, get?_cons, get?_cons, ih]
    by_cases replaced : first.1 = name
    · subst replaced
      by_cases asked : first.1 = other <;> simp [asked]
    · by_cases asked : first.1 = other
      · subst asked
        simp [replaced, Ne.symm replaced]
      · simp [replaced, asked]

theorem get?_set (args : ArgumentSet) (name : String) (value : Value) (other : String) :
    (args.set name value).get? other = if name = other then some value else args.get? other := by
  unfold set
  rw [← get?_isSome]
  split
  · next present =>
    rw [get?_replaced]
    by_cases same : name = other
    · subst same
      obtain ⟨old, found⟩ := Option.isSome_iff_exists.mp present
      simp [found]
    · simp [same]
  · next absent =>
    have appended : get? (args ++ [(name, value)]) other =
        (args.get? other).or (get? [(name, value)] other) := by
      simp [get?, List.find?_append, Option.map_or]
    rw [appended, get?_cons]
    by_cases same : name = other
    · subst same
      simp [Option.not_isSome_iff_eq_none.mp absent]
    · simp [same, get?]

end Fluent.ArgumentSet

/-! ### Answers without them -/

/-- Some message or term of the documents refers to the variable. -/
def Mentions (docs : List Document) (name : String) : Prop :=
  .reference (.variable name) ∈ partsOf docs

namespace Localizer

/-- Every bundle is built from some of the documents. -/
def BasedOn (l : Localizer) (docs : List Document) : Prop :=
  ∀ b ∈ l.bundles, ∃ ds ⊆ docs, Bundle.Built ds b

variable {l : Localizer} {docs : List Document} {args? others? : Option ArgumentSet}

theorem localize_congr (key : String)
    (same : ∀ b ∈ l.bundles, ∀ id e, b.entry? id = some e →
      ∀ name, .reference (.variable name) ∈ e.parts →
        args?.bind (·.get? name) = others?.bind (·.get? name)) :
    l.localize key args? = l.localize key others? := by
  suffices alike : (l.localize key args?).Alike (fun s t => s = t ∧ True) (l.localize key others?) from
    alike.eq fun _ _ both => both.1
  apply localize_alike _ ⟨rfl, trivial⟩
  apply List.forall₂_same.mpr
  intro b member
  have keeps : (b.scope args?).Keeps fun _ => True :=
    ⟨trivial, fun _ _ => trivial, fun _ => trivial, trivial, fun _ => trivial⟩
  apply Bundle.agree_of_links (T := .each fun _ => True) _ rfl key
  apply keeps.links
  · intro id e found part inEntry
    cases part with
    | string raw => exact ⟨trivial, trivial⟩
    | _ => trivial
  · intro id e found name inEntry
    exact ⟨(same b member id e found name inEntry).symm, fun _ _ => trivial⟩

theorem localize_none (l : Localizer) (key : String) :
    l.localize key none = l.localize key (some []) := by
  apply localize_congr
  intro b _ id e _ name _
  rfl

theorem BasedOn.localize_congr (based : l.BasedOn docs) (key : String)
    (same : ∀ name, Mentions docs name →
      args?.bind (·.get? name) = others?.bind (·.get? name)) :
    l.localize key args? = l.localize key others? := by
  apply Localizer.localize_congr
  intro b member id e found name inEntry
  obtain ⟨ds, among, built⟩ := based b member
  obtain ⟨d, present, inDocument⟩ := List.mem_flatMap.mp (built.mem_partsOf found inEntry)
  exact same name (List.mem_flatMap.mpr ⟨d, among present, inDocument⟩)

/-- Where no message or term of the documents refers to a variable, text and reports are the same
whether or not an argument of that name is given, whatever its value. To give no arguments is the
same as to give an empty set, so a command without arguments finds what a localizer finds that is
asked for the key alone. -/
theorem localize_unmentioned (based : l.BasedOn docs) (key : String) (args : ArgumentSet) :
    (∀ name, ¬Mentions docs name →
      (∀ value, l.localize key (some (args.set name value)) = l.localize key (some args)) ∧
      ∀ others : ArgumentSet, (∀ other, other ≠ name → others.get? other = args.get? other) →
        l.localize key (some others) = l.localize key (some args)) ∧
    l.localize key none = l.localize key (some []) ∧
    ∀ (s : Settings) (c : Catalog) (p : Preferences),
      Command.localized s c key [] p = do
        let bundles ← s.negotiator.negotiate c (← p.requested)
        return .ok (← Localizer.localize ⟨bundles⟩ key none) := by
  refine ⟨?_, localize_none l key, ?_⟩
  · intro name unmentioned
    have irrelevant (others : ArgumentSet)
        (agree : ∀ other, other ≠ name → others.get? other = args.get? other) :
        l.localize key (some others) = l.localize key (some args) := by
      apply based.localize_congr
      intro other mentioned
      apply agree
      rintro rfl
      exact unmentioned mentioned
    refine ⟨?_, irrelevant⟩
    intro value
    apply irrelevant
    intro other different
    rw [ArgumentSet.get?_set, if_neg different.symm]
  · intro s c p
    have nothing : Command.localized s c key [] p = do
        let bundles ← s.negotiator.negotiate c (← p.requested)
        return .ok (← Localizer.localize ⟨bundles⟩ key (some [])) := rfl
    simp only [nothing, localize_none]

/-- A message with the name of who is welcomed. -/
def welcome : Document :=
  ⟨⟨"en/a.ftl"⟩,
    [⟨.message, "welcome", some [.text "Welcome, ", .placeable (.inline (.variable "name"))], []⟩]⟩

theorem count_unmentioned :
    let l : Localizer := ⟨[(Bundle.ofDocuments ⟨"en"⟩ [welcome] true).value]⟩
    l.BasedOn [welcome] ∧ ¬Mentions [welcome] "count" ∧ Mentions [welcome] "name" ∧
      l.localize "welcome" (some [("name", .string "Ada"), ("count", .string "3")]) =
        l.localize "welcome" (some [("name", .string "Ada")]) := by
  intro l
  have based : l.BasedOn [welcome] := by
    intro b member
    rw [List.mem_singleton.mp member]
    exact ⟨[welcome], List.Subset.refl _, Bundle.built_ofDocuments ⟨"en"⟩ [welcome] true⟩
  have parts : partsOf [welcome] = [.text "Welcome, ", .reference (.variable "name")] := rfl
  have unmentioned : ¬Mentions [welcome] "count" := by simp [Mentions, parts]
  refine ⟨based, unmentioned, by simp [Mentions, parts], ?_⟩
  exact ((localize_unmentioned based "welcome" [("name", .string "Ada")]).1 "count" unmentioned).1
    (.string "3")

end Localizer
end Phrasebook
