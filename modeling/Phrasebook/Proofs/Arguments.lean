import Mathlib.Data.List.Find
import Phrasebook.Arguments.Reader
import Phrasebook.Proofs.Except

/-!
Command lines, one argument at a time. Nothing that was read is lost on the way; and an option that
goes before all other arguments stays before all else that is given, so they are read as they are
without it.
-/

namespace Phrasebook.Arguments

/-! ### What a command offers -/

namespace Usage

/-- Something that holds of a command and of all commands below it. -/
inductive Everywhere (P : Usage → Prop) : Usage → Prop where
  | intro {u : Usage} (here : P u) (below : ∀ v ∈ u.commands, Everywhere P v) : Everywhere P u

theorem Everywhere.here {P : Usage → Prop} {u : Usage} (all : u.Everywhere P) : P u := by
  cases all with
  | intro here below => exact here

theorem Everywhere.command? {P : Usage → Prop} {u v : Usage} {name : String}
    (all : u.Everywhere P) (found : u.command? name = some v) : v.Everywhere P := by
  cases all with
  | intro here below => exact below v (List.mem_of_find?_eq_some found)

end Usage

theorem shape_of_head? {cs : List Char} (plain : cs.head? ≠ some '-') : shape cs = .plain := by
  unfold shape
  split <;> simp_all

namespace Frame

variable {f f' f₁ s : Frame} {o x : Parameter} {n v a : String} {w : Origin}

/-! ### Growing frames -/

/-- More is given. -/
def plus (f : Frame) (gs : List Given) : Frame := { f with given := f.given ++ gs }

/-- Something is given for a name, or will be once its option is taken into account. -/
def Names (n : String) (f : Frame) : Prop := f.has n = true ∨ ∃ p ∈ f.pending?, p.1.name = n

theorem has_iff : f.has n = true ↔ ∃ g ∈ f.given, g.name = n := by
  simp [has]

/-- What arguments do to a frame: nothing that was read is lost. -/
structure Grows (f f₁ : Frame) : Prop where
  usage : f₁.usage = f.usage
  names : ∀ n, f.Names n → f₁.Names n
  origins : ∀ g ∈ f₁.given, g ∈ f.given ∨ g.origin = .line

theorem Grows.refl (f : Frame) : f.Grows f := ⟨rfl, fun _ named => named, fun _ => .inl⟩

theorem Grows.trans {g h : Frame} (first : f.Grows g) (second : g.Grows h) : f.Grows h where
  usage := second.usage.trans first.usage
  names n named := second.names n (first.names n named)
  origins x member := by
    obtain earlier | line := second.origins x member
    · exact first.origins x earlier
    · exact .inr line

theorem grows_plus (f : Frame) (m a : String) : f.Grows (f.plus [⟨m, a, .line⟩]) where
  usage := rfl
  names n named := by
    obtain given | pending := named
    · left
      rw [has_iff] at given ⊢
      obtain ⟨g, member, name⟩ := given
      exact ⟨g, List.mem_append_left _ member, name⟩
    · exact .inr pending
  origins g member := by
    obtain old | new := List.mem_append.mp member
    · exact .inl old
    · rw [List.mem_singleton.mp new]
      exact .inr rfl

theorem take_eq_ok (taken : f.take x a w = .ok f₁) : f₁ = f.plus [⟨x.name, a, w⟩] := by
  unfold take at taken
  split at taken
  · cases taken
  · split at taken
    · cases taken
    · cases taken
      rfl

theorem take_grows (taken : f.take x a .line = .ok f₁) : f.Grows f₁ := by
  rw [take_eq_ok taken]
  exact grows_plus f x.name a

theorem settle_pending? (settled : f.settle = .ok s) : s.pending? = none := by
  unfold settle at settled
  split at settled
  · next pending =>
    cases settled
    exact pending
  · cases settled
  · rw [take_eq_ok settled]
    rfl

theorem settle_grows (settled : f.settle = .ok s) : f.Grows s := by
  unfold settle at settled
  split at settled
  · cases settled
    exact .refl f
  · cases settled
  · next x a pending =>
    have taken := take_eq_ok settled
    refine ⟨by rw [taken]; rfl, ?_, (take_grows settled).origins⟩
    rintro n (given | ⟨_, isPending, name⟩)
    · exact (take_grows settled).names n (.inl given)
    · left
      rw [pending, Option.mem_some] at isPending
      rw [taken, has_iff]
      exact ⟨_, List.mem_append_right _ (List.mem_singleton.mpr rfl), by rw [← name, ← isPending]⟩

theorem withFlag_eq_ok_iff : f.withFlag x = .ok f₁ ↔ x.effect ≠ .help ∧ x.effect ≠ .version ∧
    ∃ s, f.settle = .ok s ∧ s.take x "" .line = .ok f₁ := by
  unfold withFlag
  rw [Except.bind_eq_ok_iff]
  cases x.effect <;> simp

theorem withFlag_grows (read : f.withFlag x = .ok f₁) : f.Grows f₁ := by
  obtain ⟨_, _, s, settled, taken⟩ := withFlag_eq_ok_iff.mp read
  exact (settle_grows settled).trans (take_grows taken)

theorem withOption_grows {a? : Option String} (read : f.withOption x a? = .ok f₁) : f.Grows f₁ := by
  obtain ⟨s, settled, rest⟩ := Except.bind_eq_ok_iff.mp read
  split at rest
  · exact (settle_grows settled).trans (take_grows rest)
  · cases rest
    refine (settle_grows settled).trans ⟨rfl, ?_, fun _ => .inl⟩
    rintro n (given | ⟨p, pending, _⟩)
    · exact .inl given
    · rw [settle_pending? settled] at pending
      cases pending

theorem withLong_eq_ok_iff {a? : Option String} : f.withLong n a? = .ok f₁ ↔
    ∃ x, f.usage.long? n = some x ∧ (x.effect.takesValue = true ∧ f.withOption x a? = .ok f₁ ∨
      x.effect.takesValue = false ∧ a? = none ∧ f.withFlag x = .ok f₁) := by
  unfold withLong
  cases f.usage.long? n with
  | none => simp
  | some x => cases takes : x.effect.takesValue <;> cases a? <;> simp [takes]

theorem withLong_grows {a? : Option String} (read : f.withLong n a? = .ok f₁) : f.Grows f₁ := by
  obtain ⟨x, _, ⟨_, option⟩ | ⟨_, _, flag⟩⟩ := withLong_eq_ok_iff.mp read
  · exact withOption_grows option
  · exact withFlag_grows flag

theorem withShorts_cons_eq_ok_iff {c : Char} {cs : List Char} :
    f.withShorts (c :: cs) = .ok f₁ ↔ ∃ x, f.usage.short? c = some x ∧
      (x.effect.takesValue = true ∧ f.withOption x (attached? cs) = .ok f₁ ∨
      x.effect.takesValue = false ∧ ∃ g, f.withFlag x = .ok g ∧ g.withShorts cs = .ok f₁) := by
  rw [withShorts]
  cases f.usage.short? c with
  | none => simp
  | some x => cases takes : x.effect.takesValue <;> simp [takes, Except.bind_eq_ok_iff]

theorem withShorts_grows {cs : List Char} (read : f.withShorts cs = .ok f₁) : f.Grows f₁ := by
  induction cs generalizing f with
  | nil =>
    cases read
    exact .refl _
  | cons c cs ih =>
    obtain ⟨x, _, ⟨_, option⟩ | ⟨_, g, flag, rest⟩⟩ := withShorts_cons_eq_ok_iff.mp read
    · exact withOption_grows option
    · exact (withFlag_grows flag).trans (ih rest)

theorem withPositional_grows (read : f.withPositional a = .ok f₁) : f.Grows f₁ := by
  unfold withPositional at read
  split at read
  · cases read
  · next p _ =>
    obtain ⟨s, settled, rest⟩ := Except.bind_eq_ok_iff.mp read
    cases rest
    exact (settle_grows settled).trans (grows_plus s p.name a)

theorem withPlain_grows (read : f.withPlain a = .ok f₁) : f.Grows f₁ := by
  unfold withPlain at read
  split at read
  · next x pending =>
    cases read
    refine ⟨rfl, ?_, fun _ => .inl⟩
    rintro n (given | ⟨p, isPending, name⟩)
    · exact .inl given
    · rw [pending, Option.mem_some] at isPending
      exact .inr ⟨(x, some a), rfl, by rw [← name, ← isPending]⟩
  · exact withPositional_grows read

theorem step_grows (read : f.step a = .ok f₁) : f.Grows f₁ := by
  unfold step at read
  split at read
  · exact withPositional_grows read
  · split at read
    · cases read
      exact ⟨rfl, fun _ named => named, fun _ => .inl⟩
    · exact withLong_grows read
    · exact withShorts_grows read
    · exact withPlain_grows read

/-! ### An option that goes first -/

/-- The option is given before all else. -/
def withFirst (o : Parameter) (v : String) (f : Frame) : Frame :=
  { f with given := ⟨o.name, v, .line⟩ :: f.given }

/-- A frame, and the same one with an option before all else. As long as nothing else is given, the
option may still be waiting to be taken into account. -/
inductive Ahead (o : Parameter) (v : String) (f : Frame) : Frame → Prop where
  | taken : Ahead o v f (f.withFirst o v)
  | waiting (filled : v ≠ "") (given : f.given = []) (pending : f.pending? = none) :
    Ahead o v f { f with pending? := some (o, some v) }

theorem has_withFirst {m : String} (other : o.name ≠ m) : (f.withFirst o v).has m = f.has m := by
  simp [has, withFirst, other]

theorem not_has (free : ¬ f.Names n) : f.has n = false := by
  rw [← Bool.not_eq_true]
  exact fun given => free (.inl given)

theorem Ahead.usage (ahead : Ahead o v f f') : f'.usage = f.usage := by
  cases ahead <;> rfl

theorem Ahead.separated (ahead : Ahead o v f f') : f'.separated = f.separated := by
  cases ahead <;> rfl

theorem Ahead.seeksCommand (ahead : Ahead o v f f') : f'.seeksCommand = f.seeksCommand := by
  cases ahead with
  | taken => rfl
  | waiting _ _ pending => simp [Frame.seeksCommand, awaits, pending]

theorem Ahead.slot? (ahead : Ahead o v f f') (places : ∀ p ∈ f.usage.positionals, p.name ≠ o.name) :
    f'.slot? = f.slot? := by
  cases ahead with
  | taken =>
    apply List.find?_congr
    intro p member
    simp only [has_withFirst (places p member).symm]
  | waiting => rfl

theorem take_first (taken : f.take x a w = .ok f₁) (other : x.name ≠ o.name) :
    (f.withFirst o v).take x a w = .ok (f₁.withFirst o v) := by
  unfold take at taken ⊢
  rw [has_withFirst other.symm]
  split at taken
  · cases taken
  · split at taken
    · cases taken
    · cases taken
      simp [withFirst, *]

theorem not_names_of_take (taken : f.take x a .line = .ok f₁) (free : ¬ f₁.Names n) :
    x.name ≠ n ∧ ¬ f.Names n := by
  refine ⟨?_, fun named => free ((take_grows taken).names n named)⟩
  rintro rfl
  apply free
  left
  rw [take_eq_ok taken, has_iff]
  exact ⟨_, List.mem_append_right _ (List.mem_singleton.mpr rfl), rfl⟩

/-- Whatever comes next takes the option into account. -/
theorem Ahead.settle (ahead : Ahead o v f f') (settled : f.settle = .ok s)
    (free : ¬ s.Names o.name) : f'.settle = .ok (s.withFirst o v) := by
  cases ahead with
  | taken =>
    unfold Frame.settle at settled
    split at settled
    · next pending =>
      cases settled
      simp [Frame.settle, withFirst, pending]
    · cases settled
    · next x a pending =>
      have first := take_first (o := o) (v := v) settled (not_names_of_take settled free).1
      simpa [Frame.settle, withFirst, pending] using first
  | waiting filled given pending =>
    have same : s = f := by simpa [Frame.settle, pending, eq_comm] using settled
    subst same
    simp [Frame.settle, take, has, withFirst, given, pending, filled]

/- What a step names stays named, so it is enough that the option is not named in the end. -/
variable (free : ¬ f₁.Names o.name) (ahead : Ahead o v f f')

include free ahead

theorem withFlag_ahead (read : f.withFlag x = .ok f₁) :
    f'.withFlag x = .ok (f₁.withFirst o v) := by
  obtain ⟨noHelp, noVersion, s, settled, taken⟩ := withFlag_eq_ok_iff.mp read
  obtain ⟨other, freeSettled⟩ := not_names_of_take taken free
  exact withFlag_eq_ok_iff.mpr ⟨noHelp, noVersion, s.withFirst o v,
    ahead.settle settled freeSettled, take_first taken other⟩

theorem withOption_ahead {a? : Option String} (read : f.withOption x a? = .ok f₁) :
    f'.withOption x a? = .ok (f₁.withFirst o v) := by
  obtain ⟨s, settled, rest⟩ := Except.bind_eq_ok_iff.mp read
  cases a? with
  | some a =>
    obtain ⟨other, freeSettled⟩ := not_names_of_take rest free
    exact Except.bind_eq_ok_iff.mpr
      ⟨s.withFirst o v, ahead.settle settled freeSettled, take_first rest other⟩
  | none =>
    cases rest
    have freeSettled : ¬ s.Names o.name := by
      rintro (given | ⟨p, pending, _⟩)
      · exact free (.inl given)
      · rw [settle_pending? settled] at pending
        cases pending
    exact Except.bind_eq_ok_iff.mpr ⟨s.withFirst o v, ahead.settle settled freeSettled, rfl⟩

theorem withLong_ahead {a? : Option String} (read : f.withLong n a? = .ok f₁) :
    f'.withLong n a? = .ok (f₁.withFirst o v) := by
  rw [withLong_eq_ok_iff] at read ⊢
  rw [ahead.usage]
  obtain ⟨x, found, ⟨takes, option⟩ | ⟨takes, alone, flag⟩⟩ := read
  · exact ⟨x, found, .inl ⟨takes, withOption_ahead free ahead option⟩⟩
  · exact ⟨x, found, .inr ⟨takes, alone, withFlag_ahead free ahead flag⟩⟩

theorem withShorts_ahead {cs : List Char} (read : f.withShorts cs = .ok f₁) :
    ∃ f₁', f'.withShorts cs = .ok f₁' ∧ Ahead o v f₁ f₁' := by
  induction cs generalizing f f' with
  | nil =>
    cases read
    exact ⟨f', rfl, ahead⟩
  | cons c cs ih =>
    simp only [withShorts_cons_eq_ok_iff, ahead.usage] at read ⊢
    obtain ⟨x, found, ⟨takes, option⟩ | ⟨takes, g, flag, rest⟩⟩ := read
    · exact ⟨_, ⟨x, found, .inl ⟨takes, withOption_ahead free ahead option⟩⟩, .taken⟩
    · have freeFlag : ¬ g.Names o.name := fun named => free ((withShorts_grows rest).names _ named)
      obtain ⟨f₁', rest', ahead'⟩ := ih .taken rest
      exact ⟨f₁', ⟨x, found, .inr ⟨takes, _, withFlag_ahead freeFlag ahead flag, rest'⟩⟩, ahead'⟩

theorem withPositional_ahead (places : ∀ p ∈ f.usage.positionals, p.name ≠ o.name)
    (read : f.withPositional a = .ok f₁) : f'.withPositional a = .ok (f₁.withFirst o v) := by
  unfold withPositional at read ⊢
  rw [ahead.slot? places]
  split at read
  · cases read
  · next p _ =>
    obtain ⟨s, settled, rest⟩ := Except.bind_eq_ok_iff.mp read
    cases rest
    have freeSettled : ¬ s.Names o.name := fun named => free ((grows_plus s p.name a).names _ named)
    exact Except.bind_eq_ok_iff.mpr ⟨s.withFirst o v, ahead.settle settled freeSettled, rfl⟩

theorem withPlain_ahead (places : ∀ p ∈ f.usage.positionals, p.name ≠ o.name)
    (read : f.withPlain a = .ok f₁) : f'.withPlain a = .ok (f₁.withFirst o v) := by
  have positional : (∀ x, f.pending? ≠ some (x, none)) → f'.withPlain a = f'.withPositional a := by
    intro settled
    cases ahead with
    | taken =>
      unfold withPlain
      split
      · next x pending => exact absurd pending (settled x)
      · rfl
    | waiting => rfl
  unfold withPlain at read
  split at read
  · next x pending =>
    cases read
    cases ahead with
    | taken => simp [withPlain, withFirst, pending]
    | waiting _ _ nothing => simp [nothing] at pending
  · next settled =>
    rw [positional settled]
    exact withPositional_ahead free ahead places read

/-- One argument leaves the option where it is, before all else. -/
theorem step_ahead (places : ∀ p ∈ f.usage.positionals, p.name ≠ o.name)
    (read : f.step a = .ok f₁) : ∃ f₁', f'.step a = .ok f₁' ∧ Ahead o v f₁ f₁' := by
  unfold step at read ⊢
  rw [ahead.separated]
  split at read
  · next separated =>
    rw [if_pos separated]
    exact ⟨_, withPositional_ahead free ahead places read, .taken⟩
  · next separated =>
    rw [if_neg separated]
    split at read
    · cases read
      refine ⟨_, rfl, ?_⟩
      cases ahead with
      | taken => exact .taken
      | waiting filled given pending => exact .waiting filled given pending
    · exact ⟨_, withLong_ahead free ahead read, .taken⟩
    · exact withShorts_ahead free ahead read
    · exact ⟨_, withPlain_ahead free ahead places read, .taken⟩

end Frame

/-! ### Whole command lines -/

namespace Progress

variable {f f' : Frame} {outer : List Frame} {a : String} {as : List String} {p q : Progress}
  {o : Parameter} {v : String}

/-- What was read for every command, the innermost first. -/
def frames (p : Progress) : List Frame := p.current :: p.outer

/-- An argument leads to a command below, or it is read for the command that it finds. -/
theorem run_cons_eq_ok_iff : run ⟨f, outer⟩ (a :: as) = .ok q ↔
    (∃ u, f.seeksCommand = true ∧ f.usage.command? a = some u ∧
      run ⟨.start u, f :: outer⟩ as = .ok q) ∨
    ((f.seeksCommand = true → f.usage.hasCommand a = false) ∧
      ∃ g, f.step a = .ok g ∧ run ⟨g, outer⟩ as = .ok q) := by
  have stepped : (do run (← withStep ⟨f, outer⟩ a) as) = .ok q ↔
      ∃ g, f.step a = .ok g ∧ run ⟨g, outer⟩ as = .ok q := by
    simp only [Except.bind_eq_ok_iff, withStep, Except.map_eq_ok_iff]
    constructor
    · rintro ⟨_, ⟨g, step, rfl⟩, rest⟩
      exact ⟨g, step, rest⟩
    · rintro ⟨g, step, rest⟩
      exact ⟨_, ⟨g, step, rfl⟩, rest⟩
  rw [run]
  cases seeks : f.seeksCommand with
  | false => simp [stepped]
  | true =>
    cases found : f.usage.command? a with
    | some u => simp [found, Usage.hasCommand]
    | none => cases f.usage.hasCommand a <;> simp [stepped]

/-- What was read for the commands above does not matter any more. -/
theorem run_below (read : run ⟨f, outer⟩ as = .ok q) : ∃ current inner,
    q = ⟨current, inner ++ outer⟩ ∧
      ∀ other, run ⟨f, other⟩ as = .ok ⟨current, inner ++ other⟩ := by
  induction as generalizing f outer with
  | nil =>
    cases read
    exact ⟨f, [], rfl, fun _ => rfl⟩
  | cons a as ih =>
    obtain ⟨u, seeks, found, below⟩ | ⟨plain, g, step, rest⟩ := run_cons_eq_ok_iff.mp read
    · obtain ⟨current, inner, rfl, others⟩ := ih below
      refine ⟨current, inner ++ [f], by simp, fun other => ?_⟩
      rw [List.append_assoc]
      exact run_cons_eq_ok_iff.mpr (.inl ⟨u, seeks, found, others (f :: other)⟩)
    · obtain ⟨current, inner, rfl, others⟩ := ih rest
      exact ⟨current, inner, rfl,
        fun other => run_cons_eq_ok_iff.mpr (.inr ⟨plain, g, step, others other⟩)⟩

/-- The command that arguments start with is still there in the end. -/
theorem run_grows (read : run ⟨f, outer⟩ as = .ok q) : ∃ h ∈ q.frames, f.Grows h := by
  induction as generalizing f with
  | nil =>
    cases read
    exact ⟨f, List.mem_cons_self, .refl f⟩
  | cons a as ih =>
    obtain ⟨u, _, _, below⟩ | ⟨_, g, step, rest⟩ := run_cons_eq_ok_iff.mp read
    · obtain ⟨current, inner, rfl, _⟩ := run_below below
      exact ⟨f, by simp [frames], .refl f⟩
    · obtain ⟨h, member, grows⟩ := ih rest
      exact ⟨h, member, (Frame.step_grows step).trans grows⟩

/-- What holds of the commands that are offered holds of all that are read, and arguments give
nothing but what stands on the line. -/
theorem run_sound {P : Usage → Prop} (offered : ∀ h ∈ f :: outer, h.usage.Everywhere P ∧
      ∀ g ∈ h.given, g.origin = .line) (read : run ⟨f, outer⟩ as = .ok q) :
    ∀ h ∈ q.frames, h.usage.Everywhere P ∧ ∀ g ∈ h.given, g.origin = .line := by
  induction as generalizing f outer with
  | nil =>
    cases read
    exact offered
  | cons a as ih =>
    obtain ⟨u, _, found, below⟩ | ⟨_, g, step, rest⟩ := run_cons_eq_ok_iff.mp read
    · refine ih (List.forall_mem_cons.mpr ⟨⟨?_, by simp [Frame.start]⟩, offered⟩) below
      exact (offered f List.mem_cons_self).1.command? found
    · obtain ⟨⟨usage, lines⟩, others⟩ := List.forall_mem_cons.mp offered
      have grows := Frame.step_grows step
      refine ih (List.forall_mem_cons.mpr ⟨⟨by rwa [grows.usage], fun x member => ?_⟩, others⟩) rest
      exact (grows.origins x member).elim (lines x) id

/-- Arguments that do not name an option are read behind it as they are without it. -/
theorem run_ahead (ahead : f.Ahead o v f') (places : ∀ p ∈ f.usage.positionals, p.name ≠ o.name)
    (read : run ⟨f, []⟩ as = .ok q) (free : ∀ h ∈ q.frames, ¬ h.Names o.name) :
    ∃ inner root root' q', q.frames = inner ++ [root] ∧ root.Ahead o v root' ∧
      run ⟨f', []⟩ as = .ok q' ∧ q'.frames = inner ++ [root'] := by
  induction as generalizing f f' with
  | nil =>
    cases read
    exact ⟨[], f, f', ⟨f', []⟩, rfl, ahead, rfl, rfl⟩
  | cons a as ih =>
    obtain ⟨u, seeks, found, below⟩ | ⟨plain, g, step, rest⟩ := run_cons_eq_ok_iff.mp read
    -- From here on the first command is not touched any more.
    · obtain ⟨current, inner, rfl, others⟩ := run_below below
      refine ⟨current :: inner, f, f', ⟨current, inner ++ [f']⟩, rfl, ahead, ?_, rfl⟩
      refine run_cons_eq_ok_iff.mpr (.inl ⟨u, ?_, ?_, others [f']⟩)
      · rwa [ahead.seeksCommand]
      · rwa [ahead.usage]
    -- What this step names is still named in the end, so it does not name the option.
    · obtain ⟨h, member, grows⟩ := run_grows rest
      have freeStep : ¬ g.Names o.name := fun named => free h member (grows.names _ named)
      obtain ⟨g', step', ahead'⟩ := Frame.step_ahead freeStep ahead places step
      have usage := (Frame.step_grows step).usage
      obtain ⟨inner, root, root', q', frames, aheadRoot, rest', frames'⟩ :=
        ih ahead' (by rwa [usage]) rest
      refine ⟨inner, root, root', q', frames, aheadRoot, ?_, frames'⟩
      rw [← ahead.seeksCommand, ← ahead.usage] at plain
      exact run_cons_eq_ok_iff.mpr (.inr ⟨plain, g', step', rest'⟩)

end Progress
end Phrasebook.Arguments
