import Phrasebook.Proofs.Arguments

/-!
A variable that stands in for an option. It gives the option a value for every command that has none
from its arguments, and that shows in nothing else; so what counts is what stands on the line, and
else the variable.
-/

namespace Phrasebook.Arguments

variable {n : String} {gs gs' hs : List Given} {o x : Parameter} {env env' : Environment}
  {v? w? : Option String}

theorem map_eq_of_forall₂ {α β γ : Type} {R : α → β → Prop} {f : α → γ} {g : β → γ}
    {as : List α} {bs : List β} (related : List.Forall₂ R as bs)
    (same : ∀ a b, R a b → g b = f a) : bs.map g = as.map f := by
  rw [← List.forall₂_eq_eq_eq, List.forall₂_map_left_iff, List.forall₂_map_right_iff]
  exact related.flip.imp fun b a => same a b

/-- An option that shares its name and its variable with nothing else that a command takes. -/
structure Usage.Offers (o : Parameter) (u : Usage) : Prop where
  listed : ∃ before after, u.options = before ++ o :: after ∧
    ∀ x ∈ before ++ after, x.name ≠ o.name ∧ x.standIn? ≠ o.standIn?
  places : ∀ p ∈ u.positionals, p.name ≠ o.name

/-! ### What was given for a name -/

def givenFor (name : String) (given : List Given) : List Given := given.filter (·.name == name)

/-- The same is given for every name but one. -/
def Alike (name : String) (gs gs' : List Given) : Prop :=
  ∀ m, m ≠ name → givenFor m gs' = givenFor m gs

theorem givenFor_append (m : String) (gs hs : List Given) :
    givenFor m (gs ++ hs) = givenFor m gs ++ givenFor m hs :=
  List.filter_append gs hs

theorem givenFor_eq_nil_iff : givenFor n gs = [] ↔ ∀ g ∈ gs, g.name ≠ n := by
  simp [givenFor]

theorem givenFor_of_named (named : ∀ g ∈ gs, g.name = n) : givenFor n gs = gs := by
  simpa [givenFor] using named

theorem Alike.refl (n : String) (gs : List Given) : Alike n gs gs := fun _ _ => rfl

theorem Alike.append (alike : Alike n gs gs') (hs : List Given) :
    Alike n (gs ++ hs) (gs' ++ hs) := by
  intro m other
  rw [givenFor_append, givenFor_append, alike m other]

theorem givenFor_append_others (gs : List Given) (others : ∀ g ∈ hs, g.name ≠ n) :
    givenFor n (gs ++ hs) = givenFor n gs := by
  rw [givenFor_append, givenFor_eq_nil_iff.mpr others, List.append_nil]

/-- What is given for the name itself does not count. -/
theorem Alike.append_named {hs' : List Given} (alike : Alike n gs gs')
    (named : ∀ g ∈ hs, g.name = n) (named' : ∀ g ∈ hs', g.name = n) :
    Alike n (gs ++ hs) (gs' ++ hs') := by
  intro m other
  rw [givenFor_append_others gs fun g member => (named g member).trans_ne other.symm,
    givenFor_append_others gs' fun g member => (named' g member).trans_ne other.symm, alike m other]

/-- Two environments that differ in the variable of an option alone, and what it is in each of them:
nothing, or a text that is not empty. -/
structure Varied (o : Parameter) (env : Environment) (v? : Option String) (env' : Environment)
    (w? : Option String) : Prop where
  others : ∀ name?, name? ≠ o.standIn? → name?.bind env' = name?.bind env
  first : o.standIn?.bind env = v?
  second : o.standIn?.bind env' = w?
  filledFirst : v? ≠ some ""
  filledSecond : w? ≠ some ""

/-- What is given for an option in the end, if its variable has this value. -/
def filled (o : Parameter) (v? : Option String) (gs : List Given) : List Given :=
  if gs.isEmpty then v?.toList.map (⟨o.name, ·, .environment⟩) else gs

namespace Frame

variable {f f' f₁ s s' : Frame} {a : String} {w : Origin} {led : Bool}

theorem plus_nil (f : Frame) : f.plus [] = f := by
  simp [plus]

theorem plus_plus (f : Frame) (gs hs : List Given) : (f.plus gs).plus hs = f.plus (gs ++ hs) := by
  simp [plus]

theorem has_eq (f : Frame) (n : String) : f.has n = !(givenFor n f.given).isEmpty := by
  rw [Bool.eq_iff_iff, has_iff, Bool.not_eq_true', List.isEmpty_eq_false_iff, Ne,
    givenFor_eq_nil_iff]
  push Not
  rfl

theorem has_congr (alike : Alike n f.given f'.given) {m : String} (other : m ≠ n) :
    f'.has m = f.has m := by
  rw [has_eq, has_eq, alike m other]

theorem take_alike (taken : f.take x a w = .ok f₁) (alike : Alike n f.given f'.given)
    (other : x.name ≠ n) : f'.take x a w = .ok (f'.plus [⟨x.name, a, w⟩]) := by
  unfold take at taken ⊢
  rw [has_congr alike other]
  split at taken
  · cases taken
  · split at taken
    · cases taken
    · simp [plus, *]

/-- The variable of another option gives the same to frames that are alike. -/
theorem withVariable_alike (alike : Alike n f.given f'.given) (other : x.name ≠ n)
    (agree : x.standIn?.bind env' = x.standIn?.bind env)
    (done : f.withVariable env x = .ok f₁) : ∃ extra, (∀ g ∈ extra, g.name ≠ n) ∧
      f₁ = f.plus extra ∧ f'.withVariable env' x = .ok (f'.plus extra) := by
  unfold withVariable at done ⊢
  rw [has_congr alike other, agree]
  split at done
  · next a stood =>
    exact ⟨[⟨x.name, a, .environment⟩], by simpa using other, take_eq_ok done,
      take_alike done alike other⟩
  · cases done
    exact ⟨[], by simp, (plus_nil f).symm, by rw [plus_nil]⟩

theorem withVariables_alike {xs : List Parameter} (alike : Alike n f.given f'.given)
    (others : ∀ x ∈ xs, x.name ≠ n ∧ x.standIn?.bind env' = x.standIn?.bind env)
    (done : xs.foldlM (withVariable env) f = .ok f₁) : ∃ extra, (∀ g ∈ extra, g.name ≠ n) ∧
      f₁ = f.plus extra ∧ xs.foldlM (withVariable env') f' = .ok (f'.plus extra) := by
  induction xs generalizing f f' with
  | nil =>
    cases done
    exact ⟨[], by simp, (plus_nil _).symm, by rw [plus_nil]; rfl⟩
  | cons x xs ih =>
    obtain ⟨⟨other, agree⟩, others⟩ := List.forall_mem_cons.mp others
    rw [List.foldlM_cons] at done ⊢
    obtain ⟨g, first, rest⟩ := Except.bind_eq_ok_iff.mp done
    obtain ⟨extra, otherNames, rfl, first'⟩ := withVariable_alike alike other agree first
    have alikeNext : Alike n (f.plus extra).given (f'.plus extra).given := alike.append extra
    obtain ⟨more, moreNames, rfl, rest'⟩ := ih alikeNext others rest
    refine ⟨extra ++ more, List.forall_mem_append.mpr ⟨otherNames, moreNames⟩, plus_plus .., ?_⟩
    rw [← plus_plus]
    exact Except.bind_eq_ok_iff.mpr ⟨_, first', rest'⟩

/-- The variable of the option itself gives a value where there is none. -/
theorem withVariable_own (f : Frame) (stood : o.standIn?.bind env = v?) (proper : v? ≠ some "") :
    ∃ own, f.withVariable env o = .ok (f.plus own) ∧ (∀ g ∈ own, g.name = o.name) ∧
      givenFor o.name (f.given ++ own) = filled o v? (givenFor o.name f.given) := by
  unfold withVariable filled
  rw [stood]
  cases has : f.has o.name with
  | true =>
    have given : (givenFor o.name f.given).isEmpty = false := by simpa [has_eq] using has
    exact ⟨[], by simp [plus_nil], by simp, by simp [given]⟩
  | false =>
    have nothing : givenFor o.name f.given = [] := by simpa [has_eq] using has
    cases v? with
    | none => exact ⟨[], by simp [plus_nil], by simp, by simp [nothing]⟩
    | some a =>
      have filled : a ≠ "" := fun empty => proper (by rw [empty])
      refine ⟨[⟨o.name, a, .environment⟩], ?_, by simp, ?_⟩
      · simp [take, has, filled, plus]
      · rw [givenFor_append, nothing, givenFor_of_named (by simp)]
        rfl

/-- The variables of all options, for two frames that are alike under environments that differ in the
variable of one of them. -/
theorem withVariables_filled {us : List Parameter} (listed : ∃ before after,
      us = before ++ o :: after ∧ ∀ x ∈ before ++ after, x.name ≠ o.name ∧ x.standIn? ≠ o.standIn?)
    (alike : Alike o.name f.given f'.given) (varied : Varied o env v? env' w?)
    (done : us.foldlM (withVariable env) f = .ok f₁) :
    ∃ hs hs', f₁ = f.plus hs ∧ us.foldlM (withVariable env') f' = .ok (f'.plus hs') ∧
      Alike o.name (f.given ++ hs) (f'.given ++ hs') ∧
      givenFor o.name (f.given ++ hs) = filled o v? (givenFor o.name f.given) ∧
      givenFor o.name (f'.given ++ hs') = filled o w? (givenFor o.name f'.given) := by
  -- The variables before the option, its own and those behind it are looked at in this order.
  obtain ⟨before, after, rfl, apart⟩ := listed
  have agree : ∀ x ∈ before ++ after,
      x.name ≠ o.name ∧ x.standIn?.bind env' = x.standIn?.bind env :=
    fun x member => ⟨(apart x member).1, varied.others _ (apart x member).2⟩
  obtain ⟨agreeBefore, agreeAfter⟩ := List.forall_mem_append.mp agree
  rw [List.foldlM_append] at done ⊢
  obtain ⟨g, first, rest⟩ := Except.bind_eq_ok_iff.mp done
  rw [List.foldlM_cons] at rest
  obtain ⟨h, middle, last⟩ := Except.bind_eq_ok_iff.mp rest
  obtain ⟨ks, ksNames, rfl, first'⟩ := withVariables_alike alike agreeBefore first
  obtain ⟨own, read, named, given⟩ :=
    (f.plus ks).withVariable_own varied.first varied.filledFirst
  obtain ⟨own', read', named', given'⟩ :=
    (f'.plus ks).withVariable_own varied.second varied.filledSecond
  cases middle.symm.trans read
  have alikeMiddle : Alike o.name ((f.plus ks).plus own).given ((f'.plus ks).plus own').given :=
    (alike.append ks).append_named named named'
  obtain ⟨ls, lsNames, rfl, last'⟩ := withVariables_alike alikeMiddle agreeAfter last
  refine ⟨ks ++ own ++ ls, ks ++ own' ++ ls, by simp only [plus_plus], ?_, ?_, ?_, ?_⟩
  · refine Except.bind_eq_ok_iff.mpr ⟨_, first', ?_⟩
    rw [List.foldlM_cons]
    refine Except.bind_eq_ok_iff.mpr ⟨_, read', ?_⟩
    simpa only [plus_plus] using last'
  · simpa only [plus, List.append_assoc] using alikeMiddle.append ls
  · rw [← List.append_assoc, ← List.append_assoc, givenFor_append_others _ lsNames]
    exact given.trans (congrArg _ (givenFor_append_others _ ksNames))
  · rw [← List.append_assoc, ← List.append_assoc, givenFor_append_others _ lsNames]
    exact given'.trans (congrArg _ (givenFor_append_others _ ksNames))

theorem missing?_congr (usage : f'.usage = f.usage) (alike : Alike n f.given f'.given)
    (places : ∀ p ∈ f.usage.positionals, p.name ≠ n) : f'.missing? = f.missing? := by
  rw [missing?, usage]
  apply List.find?_congr
  intro p member
  rw [has_congr alike (places p member)]

theorem finish_eq_ok_iff : f.finish env led = .ok gs ↔
    ∃ s t, f.settle = .ok s ∧ s.usage.options.foldlM (withVariable env) s = .ok t ∧
      (led = true ∨ t.usage.commands = []) ∧ t.missing? = none ∧ t.given = gs := by
  unfold finish
  simp only [Except.bind_eq_ok_iff]
  constructor
  · rintro ⟨s, settled, t, stood, done⟩
    split at done
    · cases done
    · next leads =>
      split at done
      · cases done
      · next complete =>
        cases done
        refine ⟨s, t, settled, stood, ?_, complete, rfl⟩
        cases led with
        | true => exact .inl rfl
        | false => exact .inr (by simpa using leads)
  · rintro ⟨s, t, settled, stood, leads, complete, rfl⟩
    refine ⟨s, settled, t, stood, ?_⟩
    rw [if_neg (by obtain rfl | none := leads <;> simp [*]), complete]

theorem finish_unique {led' : Bool} (done : f.finish env led = .ok gs)
    (done' : f.finish env led' = .ok hs) : hs = gs := by
  obtain ⟨s, t, settled, stood, _, _, rfl⟩ := finish_eq_ok_iff.mp done
  obtain ⟨s', t', settled', stood', _, _, rfl⟩ := finish_eq_ok_iff.mp done'
  cases settled.symm.trans settled'
  cases stood.symm.trans stood'
  rfl

/-- What is given for one command in the end, for two frames that are alike under environments that
differ in the variable of an option. -/
theorem finish_alike (offers : s.usage.Offers o) (settled : f.settle = .ok s)
    (settled' : f'.settle = .ok s') (usage : s'.usage = s.usage)
    (alike : Alike o.name s.given s'.given) (varied : Varied o env v? env' w?)
    (done : f.finish env led = .ok gs) : ∃ gs', f'.finish env' led = .ok gs' ∧
      Alike o.name gs gs' ∧ givenFor o.name gs = filled o v? (givenFor o.name s.given) ∧
      givenFor o.name gs' = filled o w? (givenFor o.name s'.given) := by
  obtain ⟨_, t, same, stood, leads, complete, rfl⟩ := finish_eq_ok_iff.mp done
  cases settled.symm.trans same
  obtain ⟨hs, hs', rfl, stood', alikeEnd, own, own'⟩ :=
    withVariables_filled offers.listed alike varied stood
  refine ⟨s'.given ++ hs', ?_, alikeEnd, own, own'⟩
  refine finish_eq_ok_iff.mpr ⟨s', s'.plus hs', settled', by rwa [usage], ?_, ?_, rfl⟩
  · exact leads.imp_right fun none => (congrArg Usage.commands usage).trans none
  · rw [← complete]
    exact missing?_congr usage alikeEnd offers.places

end Frame

namespace Call

theorem givenOf_eq (w : Origin) (m : String) (gs : List Given) :
    givenOf w m gs = ((givenFor m gs).filter (·.origin = w)).map (·.value) := by
  rw [givenOf, givenFor, List.filter_filter]
  simp only [Bool.and_comm]

/-- Two calls of one command that differ in nothing but what is given for a name. -/
structure Alike (n : String) (c c' : Call) : Prop where
  names : c'.names = c.names
  given : List.Forall₂ (Arguments.Alike n) c.given c'.given

theorem Alike.values {c c' : Call} (alike : c.Alike n c') {m : String} (other : m ≠ n) :
    c'.values m = c.values m := by
  have same (w : Origin) : c'.given.map (givenOf w m) = c.given.map (givenOf w m) :=
    map_eq_of_forall₂ alike.given fun gs gs' alike => by rw [givenOf_eq, givenOf_eq, alike m other]
  rw [Call.values, Call.values, same, same]

variable {c c' : Call} {a : String}

theorem head?_firstNonempty (lss : List (List String)) :
    ((lss.find? (!·.isEmpty)).getD []).head? = lss.flatten.head? := by
  induction lss with
  | nil => rfl
  | cons ls lss ih =>
    cases ls with
    | nil => simpa using ih
    | cons s ls => simp

/-- What counts is the first value on the line, else the first one from the environment. -/
theorem value?_eq (c : Call) (n : String) : c.value? n =
    (c.given.flatMap (givenOf .line n)).head?.or
      (c.given.flatMap (givenOf .environment n)).head? := by
  rw [value?, values, head?_firstNonempty, List.flatten_append, List.head?_append]
  rfl

theorem mem_givenOf {w : Origin} : a ∈ givenOf w n gs ↔
    ∃ g ∈ givenFor n gs, g.origin = w ∧ g.value = a := by
  rw [givenOf_eq]
  simp [and_assoc]

theorem value?_mem (given : c.value? n = some a) :
    ∃ gs ∈ c.given, ∃ g ∈ givenFor n gs, g.value = a := by
  have listed : a ∈ c.given.flatMap (givenOf .line n) ++ c.given.flatMap (givenOf .environment n) :=
    List.mem_of_head? (by rw [List.head?_append, ← value?_eq, given])
  simp only [List.mem_append, List.mem_flatMap, mem_givenOf] at listed
  obtain ⟨gs, member, g, inList, _, same⟩ | ⟨gs, member, g, inList, _, same⟩ := listed
  all_goals exact ⟨gs, member, g, inList, same⟩

theorem value?_eq_none_iff : c.value? n = none ↔ ∀ gs ∈ c.given, givenFor n gs = [] := by
  constructor
  · intro nothing gs member
    rw [value?_eq, Option.or_eq_none_iff, List.head?_eq_none_iff, List.head?_eq_none_iff,
      List.flatMap_eq_nil_iff, List.flatMap_eq_nil_iff] at nothing
    rw [List.eq_nil_iff_forall_not_mem]
    intro g isGiven
    have inList : g.value ∈ givenOf g.origin n gs := mem_givenOf.mpr ⟨g, isGiven, rfl, rfl⟩
    cases origin : g.origin with
    | line => simp [origin, nothing.1 gs member] at inList
    | environment => simp [origin, nothing.2 gs member] at inList
  · intro nothing
    by_contra given
    obtain ⟨a, isGiven⟩ := Option.ne_none_iff_exists'.mp given
    obtain ⟨gs, member, g, inList, _⟩ := value?_mem isGiven
    simp [nothing gs member] at inList

/-- A value that is given once, and no other one is, counts. -/
theorem value?_of_single {g : Given}
    (single : ∀ gs ∈ c.given, givenFor n gs = [] ∨ givenFor n gs = [g])
    (given : ∃ gs ∈ c.given, givenFor n gs = [g]) : c.value? n = some g.value := by
  obtain ⟨gs, member, own⟩ := given
  cases value : c.value? n with
  | none => simp [value?_eq_none_iff.mp value gs member] at own
  | some a =>
    obtain ⟨hs, inCall, h, inList, rfl⟩ := value?_mem value
    obtain none | one := single hs inCall
    · simp [none] at inList
    · rw [one, List.mem_singleton] at inList
      rw [inList]

theorem value?_of_line (onLine : ∀ gs ∈ c.given, ∀ g ∈ givenFor n gs, g.origin = .line) :
    c.value? n = (c.given.flatMap (givenOf .line n)).head? := by
  have none : c.given.flatMap (givenOf .environment n) = [] := by
    rw [List.flatMap_eq_nil_iff]
    intro gs member
    rw [List.eq_nil_iff_forall_not_mem]
    intro a inList
    obtain ⟨g, isGiven, origin, _⟩ := mem_givenOf.mp inList
    rw [onLine gs member g isGiven] at origin
    cases origin
  rw [value?_eq, none, List.head?_nil, Option.or_none]

end Call

namespace Progress

variable {p p' : Progress} {c : Call} {f : Frame}

theorem finish_eq_ok_iff : p.finish env = .ok c ↔
    ∃ gs hss, p.current.finish env false = .ok gs ∧ p.outer.mapM (Frame.finish env true) = .ok hss ∧
      c = ⟨(p.frames.map (·.usage.name)).reverse.tail, gs :: hss⟩ := by
  simp only [finish, Except.bind_eq_ok_iff]
  constructor
  · rintro ⟨gs, inner, hss, outer, done⟩
    cases done
    exact ⟨gs, hss, inner, outer, rfl⟩
  · rintro ⟨gs, hss, inner, outer, rfl⟩
    exact ⟨gs, inner, hss, outer, rfl⟩

theorem finish_each (done : p.finish env = .ok c) (member : f ∈ p.frames) :
    ∃ led, ∃ gs ∈ c.given, f.finish env led = .ok gs := by
  obtain ⟨gs, hss, inner, outer, rfl⟩ := finish_eq_ok_iff.mp done
  obtain rfl | above := List.mem_cons.mp member
  · exact ⟨false, gs, List.mem_cons_self, inner⟩
  · obtain ⟨hs, inCall, finished⟩ := Except.of_mapM_eq_ok outer above
    exact ⟨true, hs, List.mem_cons_of_mem _ inCall, finished⟩

/-- Frames that are related one by one come to calls that are. -/
theorem finish_forall₂ {R : Frame → Frame → Prop} {S : List Given → List Given → Prop}
    (frames : List.Forall₂ R p.frames p'.frames) (usage : ∀ f f', R f f' → f'.usage = f.usage)
    (each : ∀ led f f' gs, R f f' → f.finish env led = .ok gs →
      ∃ gs', f'.finish env' led = .ok gs' ∧ S gs gs') (done : p.finish env = .ok c) :
    ∃ c', p'.finish env' = .ok c' ∧ c'.names = c.names ∧ List.Forall₂ S c.given c'.given := by
  obtain ⟨gs, hss, inner, outer, rfl⟩ := finish_eq_ok_iff.mp done
  have names : p'.frames.map (·.usage.name) = p.frames.map (·.usage.name) :=
    map_eq_of_forall₂ frames fun f f' related => by rw [usage f f' related]
  obtain ⟨first, others⟩ := List.forall₂_cons.mp frames
  obtain ⟨gs', inner', related⟩ := each false _ _ gs first inner
  obtain ⟨hss', outer', allRelated⟩ := Except.mapM_forall₂ others (each true) outer
  exact ⟨_, finish_eq_ok_iff.mpr ⟨gs', hss', inner', outer', rfl⟩, by rw [names],
    .cons related allRelated⟩

end Progress

/-! ### The value of the option -/

theorem filled_none (o : Parameter) (gs : List Given) : filled o none gs = gs := by
  cases gs <;> rfl

theorem eq_nil_of_filled (none : filled o v? gs = []) : gs = [] := by
  cases gs with
  | nil => rfl
  | cons g gs => cases none

theorem givenOf_line_filled (own : givenFor o.name hs = filled o v? (givenFor o.name gs)) :
    Call.givenOf .line o.name hs = Call.givenOf .line o.name gs := by
  rw [Call.givenOf_eq, Call.givenOf_eq, own]
  cases givenFor o.name gs with
  | nil => cases v? <;> rfl
  | cons g gs => rfl

theorem givenOf_environment_filled
    (own : givenFor o.name gs = [] ∧ givenFor o.name hs = filled o v? (givenFor o.name gs)) :
    Call.givenOf .environment o.name hs = v?.toList := by
  rw [Call.givenOf_eq, own.2, own.1]
  cases v? <;> rfl

/-- What the line says goes before what the variable says. -/
theorem Call.value?_filled {c c' : Call} (nonempty : c.given ≠ [])
    (onLine : ∀ gs ∈ c.given, ∀ g ∈ givenFor o.name gs, g.origin = .line)
    (own : List.Forall₂ (fun gs gs' => givenFor o.name gs' = filled o v? (givenFor o.name gs))
      c.given c'.given) : c'.value? o.name = (c.value? o.name).or v? := by
  have lines : c'.given.map (givenOf .line o.name) = c.given.map (givenOf .line o.name) :=
    map_eq_of_forall₂ own fun _ _ => givenOf_line_filled
  rw [value?_of_line onLine, value?_eq, List.flatMap_def, lines, ← List.flatMap_def]
  cases first : (c.given.flatMap (givenOf .line o.name)).head? with
  | some a => rfl
  | none =>
    have nothing : ∀ gs ∈ c.given, givenFor o.name gs = [] :=
      value?_eq_none_iff.mp ((value?_of_line onLine).trans first)
    have stood : c'.given.map (givenOf .environment o.name) = c.given.map fun _ => v?.toList :=
      map_eq_of_forall₂ ((List.forall₂_and_left ..).mpr ⟨nothing, own⟩)
        fun _ _ => givenOf_environment_filled
    obtain ⟨gs, rest, same⟩ := List.exists_cons_of_ne_nil nonempty
    rw [List.flatMap_def, stood, same]
    cases v? <;> simp

/-! ### One option in two readings -/

namespace Frame

variable {f f' s : Frame} {v : String} {led : Bool}

/-- The variable of the option gives its value where the line does not. -/
theorem finish_variable (offers : f.usage.Offers o) (onLine : ∀ g ∈ f.given, g.origin = .line)
    (varied : Varied o env none env' v?) (done : f.finish env led = .ok gs) :
    ∃ gs', f.finish env' led = .ok gs' ∧ (∀ g ∈ givenFor o.name gs, g.origin = .line) ∧
      Alike o.name gs gs' ∧ givenFor o.name gs' = filled o v? (givenFor o.name gs) := by
  obtain ⟨s, _, settled, _⟩ := finish_eq_ok_iff.mp done
  have grows := settle_grows settled
  obtain ⟨gs', done', alike, own, own'⟩ := finish_alike (by rwa [grows.usage]) settled settled rfl
    (.refl _ _) varied done
  rw [filled_none] at own
  refine ⟨gs', done', ?_, alike, by rw [own', own]⟩
  rw [own]
  intro g member
  exact (grows.origins g (List.mem_of_mem_filter member)).elim (onLine g) id

/-- A frame that comes to nothing for the option does not name it once it is settled. -/
theorem not_names_of_finish (offers : s.usage.Offers o) (varied : Varied o env v? env' w?)
    (settled : f.settle = .ok s) (done : f.finish env led = .ok gs)
    (nothing : givenFor o.name gs = []) : ¬ s.Names o.name := by
  obtain ⟨_, _, _, own, _⟩ := finish_alike offers settled settled rfl (.refl _ _) varied done
  have nothingSettled : givenFor o.name s.given = [] := eq_nil_of_filled (own.symm.trans nothing)
  rintro (given | ⟨p, pending, _⟩)
  · simp [has_eq, nothingSettled] at given
  · rw [settle_pending? settled] at pending
    cases pending

/-- The option before all else is the only thing that is given for it. -/
theorem finish_ahead (offers : f.usage.Offers o) (varied : Varied o env none env none)
    (ahead : f.Ahead o v f') (done : f.finish env led = .ok gs)
    (nothing : givenFor o.name gs = []) : ∃ gs', f'.finish env led = .ok gs' ∧
      Alike o.name gs gs' ∧ givenFor o.name gs' = [⟨o.name, v, .line⟩] := by
  obtain ⟨s, _, settled, _⟩ := finish_eq_ok_iff.mp done
  have offersSettled : s.usage.Offers o := by rwa [(settle_grows settled).usage]
  have free := not_names_of_finish offersSettled varied settled done nothing
  have alike : Alike o.name s.given (s.withFirst o v).given := by
    intro m other
    simp [givenFor, withFirst, other.symm]
  have own : givenFor o.name (s.withFirst o v).given = [⟨o.name, v, .line⟩] := by
    have none := not_has free
    simpa [has, givenFor, withFirst] using none
  obtain ⟨gs', done', alikeEnd, _, own'⟩ := finish_alike offersSettled settled
    (ahead.settle settled free) rfl alike varied done
  exact ⟨gs', done', alikeEnd, by rw [own', filled_none, own]⟩

/-- In two readings of which one has the option before all else, a frame has it once at most. -/
theorem finish_single (offers : f.usage.Offers o) (varied : Varied o env none env none)
    (twice : f' = f ∨ f.Ahead o v f') (done : f.finish env led = .ok gs)
    (nothing : givenFor o.name gs = []) : ∃ gs', f'.finish env led = .ok gs' ∧
      Alike o.name gs gs' ∧
      (givenFor o.name gs' = [] ∨ givenFor o.name gs' = [⟨o.name, v, .line⟩]) := by
  obtain rfl | ahead := twice
  · exact ⟨gs, done, .refl _ _, .inl nothing⟩
  · obtain ⟨gs', done', alike, own⟩ := finish_ahead offers varied ahead done nothing
    exact ⟨gs', done', alike, .inr own⟩

end Frame

namespace Progress

variable {p p' : Progress} {c : Call} {f : Frame} {v : String}

theorem finish_variable (offers : ∀ f ∈ p.frames, f.usage.Offers o)
    (onLine : ∀ f ∈ p.frames, ∀ g ∈ f.given, g.origin = .line)
    (varied : Varied o env none env' v?) (done : p.finish env = .ok c) :
    ∃ c', p.finish env' = .ok c' ∧ c.Alike o.name c' ∧
      c'.value? o.name = (c.value? o.name).or v? := by
  have each (led : Bool) (f f' : Frame) (gs : List Given) (same : f ∈ p.frames ∧ f' = f)
      (finished : f.finish env led = .ok gs) : ∃ gs', f'.finish env' led = .ok gs' ∧
        (∀ g ∈ givenFor o.name gs, g.origin = .line) ∧
        Alike o.name gs gs' ∧ givenFor o.name gs' = filled o v? (givenFor o.name gs) := by
    obtain ⟨member, rfl⟩ := same
    exact Frame.finish_variable (offers f' member) (onLine f' member) varied finished
  obtain ⟨c', done', names, related⟩ := finish_forall₂
    (List.forall₂_same.mpr fun f member => ⟨member, rfl⟩)
    (fun f f' same => congrArg Frame.usage same.2) each done
  obtain ⟨origins, related⟩ := (List.forall₂_and_left ..).mp related
  have nonempty : c.given ≠ [] := by
    obtain ⟨gs, hss, _, _, rfl⟩ := finish_eq_ok_iff.mp done
    exact List.cons_ne_nil gs hss
  exact ⟨c', done', ⟨names, related.imp fun _ _ => And.left⟩,
    Call.value?_filled nonempty origins (related.imp fun _ _ => And.right)⟩

theorem givenFor_of_finish (done : p.finish env = .ok c) (nothing : c.value? n = none)
    (member : f ∈ p.frames) {led : Bool} (finished : f.finish env led = .ok gs) :
    givenFor n gs = [] := by
  obtain ⟨_, hs, inCall, once⟩ := finish_each done member
  rw [Frame.finish_unique once finished]
  exact Call.value?_eq_none_iff.mp nothing hs inCall

theorem not_names_of_finish (offers : f.usage.Offers o) (varied : Varied o env v? env' w?)
    (done : p.finish env = .ok c) (nothing : c.value? o.name = none) (member : f ∈ p.frames) :
    ¬ f.Names o.name := by
  intro named
  obtain ⟨led, gs, _, finished⟩ := finish_each done member
  obtain ⟨s, _, settled, _⟩ := Frame.finish_eq_ok_iff.mp finished
  have grows := Frame.settle_grows settled
  exact Frame.not_names_of_finish (by rwa [grows.usage]) varied settled finished
    (givenFor_of_finish done nothing member finished) (grows.names _ named)

theorem finish_ahead {inner : List Frame} {root root' : Frame}
    (offers : ∀ f ∈ p.frames, f.usage.Offers o) (varied : Varied o env none env none)
    (frames : p.frames = inner ++ [root]) (frames' : p'.frames = inner ++ [root'])
    (ahead : root.Ahead o v root') (done : p.finish env = .ok c)
    (nothing : c.value? o.name = none) :
    ∃ c', p'.finish env = .ok c' ∧ c.Alike o.name c' ∧ c'.value? o.name = some v := by
  -- All frames but the outermost are the same in both readings.
  have oneByOne : List.Forall₂ (fun f f' => f ∈ p.frames ∧ (f' = f ∨ f.Ahead o v f'))
      p.frames p'.frames := by
    rw [List.forall₂_and_left, frames, frames']
    refine ⟨fun _ => id, List.rel_append (List.forall₂_same.mpr fun _ _ => .inl rfl) ?_⟩
    exact .cons (.inr ahead) .nil
  obtain ⟨c', done', names, related⟩ := finish_forall₂ oneByOne
    (fun f f' related => related.2.elim (congrArg Frame.usage) Frame.Ahead.usage)
    (fun led f f' gs related finished => Frame.finish_single (offers f related.1) varied related.2
      finished (givenFor_of_finish done nothing related.1 finished)) done
  have single : ∀ gs' ∈ c'.given, givenFor o.name gs' = [] ∨
      givenFor o.name gs' = [⟨o.name, v, .line⟩] :=
    ((List.forall₂_and_left ..).mp (related.flip.imp fun _ _ both => both.symm)).1
  have atRoot : ∃ gs' ∈ c'.given, givenFor o.name gs' = [⟨o.name, v, .line⟩] := by
    have member : root ∈ p.frames := by simp [frames]
    obtain ⟨_, gs, _, finished⟩ := finish_each done member
    obtain ⟨_, gs', inCall, finished'⟩ := finish_each (f := root') done' (by simp [frames'])
    obtain ⟨hs', once, _, own⟩ := Frame.finish_ahead (offers root member) varied ahead finished
      (givenFor_of_finish done nothing member finished)
    rw [Frame.finish_unique finished' once] at own
    exact ⟨gs', inCall, own⟩
  exact ⟨c', done', ⟨names, related.imp fun _ _ => And.left⟩,
    Call.value?_of_single single atRoot⟩

end Progress

namespace Usage

variable {u : Usage} {arguments : List String} {c : Call}

theorem read_eq_ok_iff : u.read env arguments = .ok c ↔
    ∃ q, Progress.run ⟨.start u, []⟩ arguments = .ok q ∧ q.finish env = .ok c :=
  Except.bind_eq_ok_iff

theorem Everywhere.run {P : Usage → Prop} {q : Progress} (offered : u.Everywhere P)
    (run : Progress.run ⟨.start u, []⟩ arguments = .ok q) :
    ∀ f ∈ q.frames, P f.usage ∧ ∀ g ∈ f.given, g.origin = .line := by
  have sound := Progress.run_sound (by simpa [Frame.start] using offered) run
  exact fun f member => ⟨(sound f member).1.here, (sound f member).2⟩

/-- The variable of an option gives its value where the line does not, and nothing else. -/
theorem read_variable (offered : u.Everywhere (Offers o)) (varied : Varied o env none env' v?)
    (read : u.read env arguments = .ok c) : ∃ c', u.read env' arguments = .ok c' ∧
      c.Alike o.name c' ∧ c'.value? o.name = (c.value? o.name).or v? := by
  obtain ⟨q, run, done⟩ := read_eq_ok_iff.mp read
  have sound := offered.run run
  obtain ⟨c', done', same⟩ := Progress.finish_variable (fun f member => (sound f member).1)
    (fun f member => (sound f member).2) varied done
  exact ⟨c', read_eq_ok_iff.mpr ⟨q, run, done'⟩, same⟩

/-- An option before all other arguments, none of which names it, gives its value and nothing
else. -/
theorem read_ahead {f' : Frame} {v : String} (offered : u.Everywhere (Offers o))
    (varied : Varied o env none env none) (ahead : (Frame.start u).Ahead o v f')
    (read : u.read env arguments = .ok c) (nothing : c.value? o.name = none) :
    ∃ q' c', Progress.run ⟨f', []⟩ arguments = .ok q' ∧ q'.finish env = .ok c' ∧
      c.Alike o.name c' ∧ c'.value? o.name = some v := by
  obtain ⟨q, run, done⟩ := read_eq_ok_iff.mp read
  have offers : ∀ f ∈ q.frames, f.usage.Offers o := fun f member => (offered.run run f member).1
  have free : ∀ f ∈ q.frames, ¬ f.Names o.name := fun f member =>
    Progress.not_names_of_finish (offers f member) varied done nothing member
  obtain ⟨inner, root, root', q', frames, aheadRoot, run', frames'⟩ :=
    Progress.run_ahead ahead offered.here.places run free
  obtain ⟨c', done', same⟩ :=
    Progress.finish_ahead offers varied frames frames' aheadRoot done nothing
  exact ⟨q', c', run', done', same⟩

end Usage
end Phrasebook.Arguments
