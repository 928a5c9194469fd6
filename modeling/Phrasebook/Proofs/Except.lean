import Mathlib.Data.List.Forall2

/-!
Results that are not errors: what came before them was no error either.
-/

namespace Phrasebook
namespace Except

variable {ε ε' α β : Type}

theorem mapError_eq_ok_iff {f : ε → ε'} {x : Except ε α} {a : α} :
    x.mapError f = .ok a ↔ x = .ok a := by
  cases x <;> simp [Except.mapError]

theorem bind_eq_ok_iff {f : α → Except ε β} {x : Except ε α} {b : β} :
    (x >>= f) = .ok b ↔ ∃ a, x = .ok a ∧ f a = .ok b := by
  cases x <;> simp [bind, Except.bind]

theorem map_eq_ok_iff {f : α → β} {x : Except ε α} {b : β} :
    x.map f = .ok b ↔ ∃ a, x = .ok a ∧ f a = b := by
  cases x <;> simp [Except.map]

theorem map_eq_error_iff {f : α → β} {x : Except ε α} {e : ε} :
    x.map f = .error e ↔ x = .error e := by
  cases x <;> simp [Except.map]

theorem toOption_eq_some_iff {x : Except ε α} {a : α} : x.toOption = some a ↔ x = .ok a := by
  cases x <;> simp [Except.toOption]

theorem toOption_eq_none_iff {x : Except ε α} : x.toOption = none ↔ ∀ a, x ≠ .ok a := by
  cases x <;> simp [Except.toOption]

theorem toOption_bind (x : Except ε α) (f : α → Except ε β) :
    (x >>= f).toOption = x.toOption.bind fun a => (f a).toOption := by
  cases x <;> rfl

theorem toOption_mapError (f : ε → ε') (x : Except ε α) : (x.mapError f).toOption = x.toOption := by
  cases x <;> rfl

theorem toOption_mapError_bind (f : ε → ε') (x : Except ε α) (k : α → Except ε' β) :
    (x.mapError f >>= k).toOption = x.toOption.bind fun a => (k a).toOption := by
  rw [toOption_bind, toOption_mapError]

/-- A list is read if every member is. -/
theorem mapM_eq_ok_iff (f : α → Except ε β) {as : List α} {bs : List β} :
    as.mapM f = .ok bs ↔ List.Forall₂ (fun a b => f a = .ok b) as bs := by
  induction as generalizing bs with
  | nil => cases bs <;> simp [pure, Except.pure]
  | cons a as ih =>
    rw [List.mapM_cons]
    cases first : f a with
    | error e => cases bs <;> simp [bind, Except.bind, first]
    | ok b =>
      cases rest : as.mapM f with
      | error e => cases bs <;> simp [bind, Except.bind, ← ih, rest, first]
      | ok later => cases bs <;> simp [bind, Except.bind, pure, Except.pure, ← ih, rest, first]

theorem mapM_of_first_error {f : α → Except ε β} {before after : List α} {a : α} {e : ε}
    (earlier : ∀ c ∈ before, ∃ b, f c = .ok b) (failed : f a = .error e) :
    (before ++ a :: after).mapM f = .error e := by
  induction before with
  | nil =>
    rw [List.nil_append, List.mapM_cons, failed]
    rfl
  | cons c before ih =>
    obtain ⟨⟨b, given⟩, rest⟩ := List.forall_mem_cons.mp earlier
    rw [List.cons_append, List.mapM_cons, given, ih rest]
    rfl

/-- Reading a list fails with the first of its members that cannot be read. -/
theorem mapM_eq_error_iff (f : α → Except ε β) {as : List α} {e : ε} :
    as.mapM f = .error e ↔ ∃ before a after, as = before ++ a :: after ∧
      (∀ c ∈ before, ∃ b, f c = .ok b) ∧ f a = .error e := by
  constructor
  · intro failed
    induction as with
    | nil => cases failed
    | cons a as ih =>
      rw [List.mapM_cons] at failed
      cases first : f a with
      | error e' =>
        rw [first] at failed
        cases failed
        exact ⟨[], a, as, rfl, by simp, first⟩
      | ok b =>
        have later : as.mapM f = .error e := by
          rw [first] at failed
          cases rest : as.mapM f with
          | error e' =>
            rw [rest] at failed
            exact failed
          | ok bs =>
            rw [rest] at failed
            cases failed
        obtain ⟨before, c, after, rfl, earlier, failure⟩ := ih later
        refine ⟨a :: before, c, after, rfl, ?_, failure⟩
        exact List.forall_mem_cons.mpr ⟨⟨b, first⟩, earlier⟩
  · rintro ⟨before, a, after, rfl, earlier, failed⟩
    exact mapM_of_first_error earlier failed

theorem of_mapM_eq_ok {f : α → Except ε β} {as : List α} {bs : List β} (read : as.mapM f = .ok bs)
    {a : α} (member : a ∈ as) : ∃ b ∈ bs, f a = .ok b := by
  rw [mapM_eq_ok_iff] at read
  induction read with
  | nil => cases member
  | cons first _ ih =>
    obtain rfl | later := List.mem_cons.mp member
    · exact ⟨_, List.mem_cons_self, first⟩
    · obtain ⟨b, isLater, result⟩ := ih later
      exact ⟨b, List.mem_cons_of_mem _ isLater, result⟩

theorem mapM_isOk_iff (f : α → Except ε β) {as : List α} :
    (∃ bs, as.mapM f = .ok bs) ↔ ∀ a ∈ as, ∃ b, f a = .ok b := by
  constructor
  · rintro ⟨bs, read⟩ a member
    obtain ⟨b, -, result⟩ := of_mapM_eq_ok read member
    exact ⟨b, result⟩
  · intro each
    cases read : as.mapM f with
    | ok bs => exact ⟨bs, rfl⟩
    | error e =>
      obtain ⟨before, a, after, rfl, -, failed⟩ := (mapM_eq_error_iff f).mp read
      obtain ⟨b, result⟩ := each a (by simp)
      rw [failed] at result
      cases result

/-- Lists that are related member by member have results that are. -/
theorem mapM_forall₂ {f g : α → Except ε β} {R : α → α → Prop} {S : β → β → Prop} {as as' : List α}
    {bs : List β} (related : List.Forall₂ R as as')
    (each : ∀ a a' b, R a a' → f a = .ok b → ∃ b', g a' = .ok b' ∧ S b b')
    (read : as.mapM f = .ok bs) : ∃ bs', as'.mapM g = .ok bs' ∧ List.Forall₂ S bs bs' := by
  simp only [mapM_eq_ok_iff] at read ⊢
  induction related generalizing bs with
  | nil =>
    cases read
    exact ⟨[], .nil, .nil⟩
  | cons first _ ih =>
    cases read with
    | cons result rest =>
      obtain ⟨b', result', same⟩ := each _ _ _ first result
      obtain ⟨bs', rest', others⟩ := ih rest
      exact ⟨b' :: bs', .cons result' rest', .cons same others⟩

end Except
end Phrasebook
