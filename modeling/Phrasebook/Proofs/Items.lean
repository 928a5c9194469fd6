import Mathlib.Data.List.Pairwise
import Phrasebook.Proofs.Cut
import Phrasebook.Proofs.StandIn

/-!
What stands on a command line, in any order: options with their values, each in one of its
spellings, and positional arguments. Reading such items one after another comes to what they say,
although a value is taken into account only when the next item comes.
-/

namespace Phrasebook.Arguments

/-! ### Items and their spellings -/

/-- A value on a command line, and what it is given for. -/
inductive Item where
  | option (o : Parameter) (value : String)
  | place (p : Positional) (value : String)

namespace Item

def name : Item → String
  | option o _ => o.name
  | place p _ => p.name

def value : Item → String
  | option _ v | place _ v => v

/-- Whether more than one item may be for the same thing. -/
def repeats : Item → Bool
  | option o _ => o.effect == .many
  | place p _ => p.many

def given (i : Item) : Given := ⟨i.name, i.value, .line⟩

/-- How an item can be written. -/
inductive Written : Item → List String → Prop where
  | apart (o : Parameter) (v : String) : Written (option o v) ["--" ++ o.name, v]
  | joined (o : Parameter) (v : String) : Written (option o v) ["--" ++ o.name ++ "=" ++ v]
  | short {o : Parameter} {c : Char} (short : o.short? = some c) (v : String) :
    Written (option o v) [String.ofList ['-', c], v]
  | place (p : Positional) (v : String) : Written (place p v) [v]

/-- A value that cannot be taken for an option. -/
def IsPlain (i : Item) : Prop := i.value ≠ "" ∧ i.value.toList.head? ≠ some '-'

instance (i : Item) : Decidable i.IsPlain := inferInstanceAs (Decidable (_ ∧ _))

/-- What a command takes items for. -/
inductive Offered (u : Usage) : Item → Prop where
  | option {o : Parameter} (long : u.long? o.name = some o)
    (short : ∀ c, o.short? = some c → c ≠ '-' ∧ u.short? c = some o)
    (takes : o.effect.takesValue = true) (named : o.name ≠ "") (noSign : '=' ∉ o.name.toList)
    (v : String) : Offered u (option o v)
  | place {p : Positional} (only : u.positionals = [p]) (alone : u.commands = []) (v : String) :
    Offered u (place p v)

theorem Offered.of_all {u : Usage} {o : Parameter} (long : u.long? o.name = some o)
    (short : (o.short?.all fun c => c != '-' && decide (u.short? c = some o)) = true)
    (takes : o.effect.takesValue = true) (named : o.name ≠ "") (noSign : '=' ∉ o.name.toList)
    (v : String) : Offered u (.option o v) := by
  refine .option long (fun c isShort => ?_) takes named noSign v
  rw [isShort, Option.all_some, Bool.and_eq_true, bne_iff_ne, decide_eq_true_eq] at short
  exact short

end Item

/-- Items one after another. -/
inductive Line : List Item → List String → Prop where
  | nil : Line [] []
  | cons {i : Item} {is : List Item} {as bs : List String} (first : i.Written as)
    (rest : Line is bs) : Line (i :: is) (as ++ bs)

/-- No item comes twice, unless it may be repeated. -/
def Single (is : List Item) : Prop := is.Pairwise fun i j => i.name = j.name → j.repeats = true

/-- The values for a name, in their order. -/
def valuesFor (name : String) (is : List Item) : List String :=
  (is.filter (·.name == name)).map Item.value

/-! ### Shapes -/

theorem shape_long {name : String} (named : name ≠ "") (noSign : '=' ∉ name.toList) :
    shape ("--" ++ name).toList = .long name none := by
  obtain ⟨c, cs, split⟩ := List.exists_cons_of_ne_nil (by simpa using named : name.toList ≠ [])
  have spelled : ("--" ++ name).toList = '-' :: '-' :: c :: cs := by simp [← split]
  have whole : (c :: cs).takeWhile (· != '=') = c :: cs :=
    List.takeWhile_eq_self_iff.mpr (Text.bne_of_not_mem (split ▸ noSign))
  have nothing : (c :: cs).dropWhile (· != '=') = [] :=
    List.dropWhile_eq_nil_iff.mpr (Text.bne_of_not_mem (split ▸ noSign))
  have same : String.ofList (c :: cs) = name := by rw [← split, String.ofList_toList]
  rw [spelled]
  simp only [shape, whole, nothing, same]

theorem shape_joined {name : String} (named : name ≠ "") (noSign : '=' ∉ name.toList) (v : String) :
    shape ("--" ++ name ++ "=" ++ v).toList = .long name (some v) := by
  obtain ⟨c, cs, split⟩ := List.exists_cons_of_ne_nil (by simpa using named : name.toList ≠ [])
  have spelled : ("--" ++ name ++ "=" ++ v).toList =
      '-' :: '-' :: c :: (cs ++ '=' :: v.toList) := by
    simp [split]
  have plain := Text.bne_of_not_mem (split ▸ noSign)
  have front := Text.takeWhile_cut plain (Text.bne_self '=') v.toList
  have back := Text.dropWhile_cut plain (Text.bne_self '=') v.toList
  rw [List.cons_append] at front back
  rw [spelled]
  simp only [shape, front, back, ← split, String.ofList_toList]

theorem shape_short {c : Char} (other : c ≠ '-') : shape ['-', c] = .shorts [c] := by
  unfold shape
  split <;> simp_all

/-! ### One item -/

/-- No command of a usage is named like an option. -/
def Usage.NamesPlainly (u : Usage) : Prop :=
  ∀ a : String, a.toList.head? = some '-' → u.hasCommand a = false

namespace Frame

variable {f s : Frame} {o : Parameter} {p : Positional} {v : String} {c : Char}

theorem settle_separated (settled : f.settle = .ok s) : s.separated = f.separated := by
  unfold settle at settled
  split at settled
  · cases settled
    rfl
  · cases settled
  · rw [take_eq_ok settled]
    rfl

theorem settle_self (nothing : s.pending? = none) : s.settle = .ok s := by
  rw [settle, nothing]

/-- What nothing is given for once the pending option is taken into account, nothing was given for
before. -/
theorem has_of_settle (settled : f.settle = .ok s) {n : String} (free : s.has n = false) :
    f.has n = false := by
  rw [← Bool.not_eq_true] at free ⊢
  intro given
  obtain later | ⟨p, pending, _⟩ := (settle_grows settled).names n (.inl given)
  · exact free later
  · rw [settle_pending? settled] at pending
    cases pending

theorem seeksCommand_of_settle (settled : f.settle = .ok s) (unseparated : f.separated = false) :
    f.seeksCommand = true := by
  have ready : f.awaits = false := by
    unfold awaits
    split
    · next pending => simp [settle, pending] at settled
    · rfl
  simp [seeksCommand, ready, unseparated]

theorem take_ok (free : s.has o.name = true → o.effect = .many) (filled : v ≠ "") :
    s.take o v .line = .ok (s.plus [⟨o.name, v, .line⟩]) := by
  have once : (o.effect != .many && s.has o.name) = false := by
    cases has : s.has o.name with
    | false => rw [Bool.and_false]
    | true => simp [free has]
  simp [take, once, filled, plus]

/-- The frame when an option waits for its value, or has it and is not yet taken into account. -/
def waiting (s : Frame) (o : Parameter) (v? : Option String) : Frame :=
  { s with pending? := some (o, v?) }

theorem settle_waiting (nothing : s.pending? = none)
    (free : s.has o.name = true → o.effect = .many) (filled : v ≠ "") :
    (s.waiting o (some v)).settle = .ok (s.plus [⟨o.name, v, .line⟩]) := by
  have same : { s.waiting o (some v) with pending? := none } = s := by
    cases s
    cases nothing
    rfl
  have settles : (s.waiting o (some v)).settle =
      { s.waiting o (some v) with pending? := none }.take o v .line := rfl
  rw [settles, same, take_ok free filled]

variable (settled : f.settle = .ok s) (unseparated : f.separated = false)

include settled unseparated

theorem step_apart (long : f.usage.long? o.name = some o) (takes : o.effect.takesValue = true)
    (named : o.name ≠ "") (noSign : '=' ∉ o.name.toList) :
    f.step ("--" ++ o.name) = .ok (s.waiting o none) := by
  simp only [step, unseparated, Bool.false_eq_true, if_false, shape_long named noSign, withLong,
    long, takes, if_true, withOption, settled]
  rfl

theorem step_short (other : c ≠ '-') (found : f.usage.short? c = some o)
    (takes : o.effect.takesValue = true) :
    f.step (String.ofList ['-', c]) = .ok (s.waiting o none) := by
  simp only [step, unseparated, Bool.false_eq_true, if_false, String.toList_ofList,
    shape_short other, withShorts, found, takes, if_true, withOption, attached?, settled]
  rfl

theorem step_joined (long : f.usage.long? o.name = some o) (takes : o.effect.takesValue = true)
    (named : o.name ≠ "") (noSign : '=' ∉ o.name.toList)
    (free : s.has o.name = true → o.effect = .many) (filled : v ≠ "") :
    f.step ("--" ++ o.name ++ "=" ++ v) = .ok (s.plus [⟨o.name, v, .line⟩]) := by
  simp only [step, unseparated, Bool.false_eq_true, if_false, shape_joined named noSign v, withLong,
    long, takes, if_true, withOption, settled]
  exact take_ok free filled

theorem step_place (plain : v.toList.head? ≠ some '-') (only : f.usage.positionals = [p])
    (free : s.has p.name = true → p.many = true) :
    f.step v = .ok (s.plus [⟨p.name, v, .line⟩]) := by
  have open? : (p.many || !f.has p.name) = true := by
    cases has : s.has p.name with
    | false => simp [has_of_settle settled has]
    | true => simp [free has]
  have place : f.slot? = some p := by simp [slot?, only, open?]
  have placed : f.withPositional v = .ok (s.plus [⟨p.name, v, .line⟩]) := by
    simp only [withPositional, place, settled]
    rfl
  simp only [step, unseparated, Bool.false_eq_true, if_false, shape_of_head? plain, withPlain]
  split
  · next x pending => simp [settle, pending] at settled
  · exact placed

end Frame

namespace Progress

variable {f g s : Frame} {outer : List Frame} {a : String} {as rest : List String} {i : Item}
  {is : List Item} {o : Parameter} {v : String}

theorem run_step (plain : f.seeksCommand = true → f.usage.hasCommand a = false)
    (step : f.step a = .ok g) : run ⟨f, outer⟩ (a :: rest) = run ⟨g, outer⟩ rest := by
  have stepped : withStep ⟨f, outer⟩ a = .ok ⟨g, outer⟩ := by
    rw [withStep, step]
    rfl
  rw [run]
  cases seeks : f.seeksCommand with
  | false =>
    simp only [Bool.false_eq_true, if_false, stepped]
    rfl
  | true =>
    have none : f.usage.command? a = none := by
      have absent := plain seeks
      rw [Usage.hasCommand, Bool.or_eq_false_iff] at absent
      simpa using absent.1
    simp only [if_true, none, plain seeks, Bool.false_eq_true, if_false, stepped]
    rfl

/-- The value that an option waits for. -/
theorem run_value (unseparated : s.separated = false) (plain : v.toList.head? ≠ some '-') :
    run ⟨s.waiting o none, outer⟩ (v :: rest) = run ⟨s.waiting o (some v), outer⟩ rest := by
  refine run_step (fun seeks => ?_) ?_
  · simp [Frame.seeksCommand, Frame.awaits, Frame.waiting] at seeks
  · simp [Frame.step, Frame.waiting, unseparated, shape_of_head? plain, Frame.withPlain]

/-- An item is read as what it says. -/
theorem run_item (written : i.Written as) (offered : i.Offered f.usage)
    (names : f.usage.NamesPlainly) (plain : i.IsPlain) (settled : f.settle = .ok s)
    (unseparated : f.separated = false) (free : s.has i.name = true → i.repeats = true)
    (outer : List Frame) (rest : List String) :
    ∃ g, run ⟨f, outer⟩ (as ++ rest) = run ⟨g, outer⟩ rest ∧ g.settle = .ok (s.plus [i.given]) ∧
      g.separated = false := by
  have nothing := Frame.settle_pending? settled
  have sameSeparated : s.separated = false := (Frame.settle_separated settled).trans unseparated
  cases offered with
  | @option o long short takes named noSign v =>
    have filled : v ≠ "" := plain.1
    have once : s.has o.name = true → o.effect = .many := fun has => by
      simpa [Item.repeats] using free has
    -- Either way to write the value apart leaves the option waiting for it.
    have apart {a : String} (start : a.toList.head? = some '-')
        (step : f.step a = .ok (s.waiting o none)) :
        ∃ g, run ⟨f, outer⟩ ([a, v] ++ rest) = run ⟨g, outer⟩ rest ∧
          g.settle = .ok (s.plus [(Item.option o v).given]) ∧ g.separated = false := by
      refine ⟨s.waiting o (some v), ?_, Frame.settle_waiting nothing once filled, sameSeparated⟩
      rw [List.cons_append, run_step (fun _ => names a start) step]
      exact run_value sameSeparated plain.2
    cases written with
    | apart => exact apart (by simp) (Frame.step_apart settled unseparated long takes named noSign)
    | joined =>
      exact ⟨_, run_step (fun _ => names _ (by simp))
        (Frame.step_joined settled unseparated long takes named noSign once filled),
        Frame.settle_self nothing, sameSeparated⟩
    | @short _ c isShort =>
      obtain ⟨other, found⟩ := short c isShort
      exact apart (by simp) (Frame.step_short settled unseparated other found takes)
  | @place p only alone v =>
    cases written
    have noCommand : f.usage.hasCommand v = false := by
      simp [Usage.hasCommand, Usage.command?, Usage.hasHelp, alone]
    exact ⟨_, run_step (fun _ => noCommand)
      (Frame.step_place settled unseparated plain.2 only free),
      Frame.settle_self nothing, sameSeparated⟩

theorem has_plus_item {n : String} :
    (s.plus [i.given]).has n = true ↔ s.has n = true ∨ i.name = n := by
  simp [Frame.has, Frame.plus, Item.given]

/-- Items are read as what they say, one after another. -/
theorem run_items (line : Line is as) (offered : ∀ i ∈ is, i.Offered f.usage)
    (names : f.usage.NamesPlainly) (plain : ∀ i ∈ is, i.IsPlain) (settled : f.settle = .ok s)
    (unseparated : f.separated = false) (single : Single is)
    (free : ∀ i ∈ is, s.has i.name = true → i.repeats = true) (outer : List Frame)
    (rest : List String) :
    ∃ g, run ⟨f, outer⟩ (as ++ rest) = run ⟨g, outer⟩ rest ∧
      g.settle = .ok (s.plus (is.map Item.given)) ∧ g.separated = false := by
  induction line generalizing f s with
  | nil => exact ⟨f, rfl, by simpa [Frame.plus] using settled, unseparated⟩
  | @cons i is as bs written line ih =>
    obtain ⟨offeredFirst, offered⟩ := List.forall_mem_cons.mp offered
    obtain ⟨plainFirst, plain⟩ := List.forall_mem_cons.mp plain
    obtain ⟨freeFirst, free⟩ := List.forall_mem_cons.mp free
    obtain ⟨singleFirst, single⟩ := List.pairwise_cons.mp single
    obtain ⟨g, read, settledFirst, unseparatedFirst⟩ :=
      run_item written offeredFirst names plainFirst settled unseparated freeFirst outer (bs ++ rest)
    have usage : g.usage = f.usage := by
      rw [← (Frame.settle_grows settledFirst).usage, ← (Frame.settle_grows settled).usage]
      rfl
    obtain ⟨h, readMore, settledMore, unseparatedMore⟩ := ih (by rwa [usage]) (by rwa [usage]) plain
      settledFirst unseparatedFirst single fun j member has =>
        (has_plus_item.mp has).elim (free j member) (singleFirst j member)
    refine ⟨h, ?_, ?_, unseparatedMore⟩
    · rw [List.append_assoc, read, readMore]
    · rw [settledMore, Frame.plus_plus]
      rfl

end Progress

/-! ### What comes of items in the end -/

namespace Frame

variable {f s : Frame} {env : Environment} {xs : List Parameter} {led : Bool}

theorem withVariables_unset (unset : ∀ x ∈ xs, x.standIn?.bind env = none) :
    xs.foldlM (withVariable env) f = .ok f := by
  induction xs with
  | nil => rfl
  | cons x xs ih =>
    obtain ⟨first, unset⟩ := List.forall_mem_cons.mp unset
    rw [List.foldlM_cons]
    have same : f.withVariable env x = .ok f := by simp [withVariable, first]
    exact Except.bind_eq_ok_iff.mpr ⟨f, same, ih unset⟩

theorem finish_unset (settled : f.settle = .ok s)
    (unset : ∀ x ∈ s.usage.options, x.standIn?.bind env = none)
    (leads : led = true ∨ s.usage.commands = []) (complete : s.missing? = none) :
    f.finish env led = .ok s.given :=
  finish_eq_ok_iff.mpr ⟨s, s, settled, withVariables_unset unset, leads, complete, rfl⟩

end Frame

theorem givenOf_line_items (name : String) (is : List Item) :
    Call.givenOf .line name (is.map Item.given) = valuesFor name is := by
  rw [Call.givenOf, valuesFor, List.filter_map, List.map_map]
  simp [Function.comp_def, Item.given]

theorem givenOf_environment_items (name : String) (is : List Item) :
    Call.givenOf .environment name (is.map Item.given) = [] := by
  rw [Call.givenOf, List.filter_map]
  simp [Function.comp_def, Item.given]

theorem valuesFor_append (name : String) (is js : List Item) :
    valuesFor name (is ++ js) = valuesFor name is ++ valuesFor name js := by
  rw [valuesFor, List.filter_append, List.map_append]
  rfl

theorem valuesFor_eq_nil {name : String} {is : List Item} (others : ∀ i ∈ is, i.name ≠ name) :
    valuesFor name is = [] := by
  have none : is.filter (·.name == name) = [] := by simpa using others
  rw [valuesFor, none, List.map_nil]

theorem length_valuesFor_le {name : String} {is js : List Item} {v? : Option String}
    (values : valuesFor name (is ++ js) = v?.toList) :
    (valuesFor name is).length ≤ 1 ∧ (valuesFor name js).length ≤ 1 := by
  have few := congrArg List.length values
  rw [valuesFor_append, List.length_append] at few
  have single : v?.toList.length ≤ 1 := Option.length_toList_le
  omega

theorem has_of_valuesFor {f : Frame} {name : String} {is : List Item}
    (some : valuesFor name is ≠ []) : (f.plus (is.map Item.given)).has name = true := by
  have named : is.filter (·.name == name) ≠ [] := fun none => some (by rw [valuesFor, none]; rfl)
  obtain ⟨i, member⟩ := List.exists_mem_of_ne_nil _ named
  obtain ⟨inList, same⟩ := List.mem_filter.mp member
  exact Frame.has_iff.mpr
    ⟨i.given, List.mem_append_right _ (List.mem_map_of_mem inList), beq_iff_eq.mp same⟩

/-- Items of which those that must not be repeated come once at most. -/
theorem single_of_valuesFor {is : List Item}
    (once : ∀ i ∈ is, i.repeats = false → (valuesFor i.name is).length ≤ 1) : Single is := by
  rw [Single, List.pairwise_iff_forall_sublist]
  intro i j both same
  by_contra unrepeated
  have few := once j (both.subset (by simp)) (by simpa using unrepeated)
  have two := (both.filter (·.name == j.name)).length_le
  rw [valuesFor, List.length_map] at few
  simp [same] at two
  omega

end Phrasebook.Arguments
