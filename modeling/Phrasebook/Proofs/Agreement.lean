import Phrasebook.Json.Reader
import Phrasebook.Proofs.Except

/-!
Two readers of one text, one of which reads values. The other agrees with it if it gives what can be
made of these values, and nothing where there are none. Only the limits of values are left open: what
goes beyond them is no value, but the other reader may not need it to be one.
-/

namespace Phrasebook.Json

/-- The limits of values. They do not hold for what is skipped. -/
def Cause.isLimit : Cause → Bool
  | tooDeep | numberOutOfRange | loneSurrogate | brokenSurrogate => true
  | _ => false

def Stop.cause : Stop → Cause
  | here cause _ _ => cause
  | somewhere cause => cause

variable {α β γ δ : Type}

/-- The result is the one that is made of what a reader gives. Where the reader stops there is none,
unless it stops at a limit. -/
def Agrees (f : α → Option β) (result? : Option β) : Read α → Prop
  | .ok a => result? = f a
  | .error s => result? = none ∨ s.cause.isLimit = true

theorem Agrees.of_toOption {f : α → Option β} {result? : Option β} {y : Read α}
    (same : result? = y.toOption.bind f) : Agrees f result? y := by
  cases y with
  | ok a => exact same
  | error s => exact .inl same

theorem Agrees.of_none {f : α → Option β} {y : Read α} (lost : ∀ a, y = .ok a → f a = none) :
    Agrees f none y := by
  cases y with
  | ok a => exact (lost a rfl).symm
  | error s => exact .inl rfl

theorem Agrees.congr {f g : α → Option β} {result? : Option β} {y : Read α}
    (agrees : Agrees f result? y) (same : ∀ a, y = .ok a → f a = g a) : Agrees g result? y := by
  cases y with
  | ok a =>
    have made : result? = f a := agrees
    exact made.trans (same a rfl)
  | error s => exact agrees

theorem Agrees.andThen {f : α → Option β} {result? : Option β} {y : Read α}
    (agrees : Agrees f result? y) (k : β → Option γ) :
    Agrees (fun a => (f a).bind k) (result?.bind k) y := by
  cases y with
  | ok a =>
    have made : result? = f a := agrees
    rw [made]
    rfl
  | error s =>
    rcases agrees with rfl | limit
    · exact .inl rfl
    · exact .inr limit

theorem Agrees.map {f : α → Option β} {result? : Option β} {y : Read α}
    (agrees : Agrees f result? y) (g : β → γ) :
    Agrees (fun a => (f a).map g) (result?.map g) y := by
  simp only [Option.map_eq_bind]
  exact agrees.andThen _

theorem Agrees.made {f : α → Option β} {g : γ → Option β} {result? : Option β} {y : Read α}
    (agrees : Agrees f result? y) {h : α → γ} (same : ∀ a, y = .ok a → g (h a) = f a) :
    Agrees g result? (y >>= fun a => .ok (h a)) := by
  cases y with
  | ok a =>
    have given : result? = f a := agrees
    exact given.trans (same a rfl).symm
  | error s => exact agrees

theorem Agrees.bind {f : α → Option β} {g : γ → Option δ} {result? : Option β} {y : Read α}
    {k : β → Option δ} {l : α → Read γ} (first : Agrees f result? y)
    (next : ∀ a b, y = .ok a → f a = some b → Agrees g (k b) (l a))
    (lost : ∀ a c, y = .ok a → f a = none → l a = .ok c → g c = none) :
    Agrees g (result?.bind k) (y >>= l) := by
  cases y with
  | error s =>
    rcases first with rfl | limit
    · exact .inl rfl
    · exact .inr limit
  | ok a =>
    have made : result? = f a := first
    cases given : f a with
    | some b =>
      rw [made, given]
      exact next a b rfl given
    | none =>
      rw [made, given]
      exact .of_none fun c rest => lost a c rfl given rest

/-- Both read the same first. -/
theorem Agrees.after {g : γ → Option δ} {y : Read α} {k : α → Option δ} {l : α → Read γ}
    (next : ∀ a, y = .ok a → Agrees g (k a) (l a)) : Agrees g (y.toOption.bind k) (y >>= l) := by
  cases y with
  | ok a => exact next a rfl
  | error s => exact .inl rfl

/-! ### The text that is left -/

/-- The result is made of the value that is read, and the same text is left. -/
def Follows (h : α → Option β) (result? : Option (Then β)) (y : Read (Then α)) : Prop :=
  Agrees (fun q => (h q.1).map fun b => (b, q.2)) result? y

/-- Skipping leaves what reading leaves. -/
def Skips (skipped : Read (List Char)) (read : Read (Then α)) : Prop :=
  Agrees (fun p => some p.2) skipped.toOption read

theorem Follows.map {h : α → Option β} {result? : Option (Then β)} {y : Read (Then α)}
    (follows : Follows h result? y) (g : β → γ) :
    Follows (fun a => (h a).map g) (result?.map fun q => (g q.1, q.2)) y := by
  apply (Agrees.map follows fun q => (g q.1, q.2)).congr
  intro q _
  simp only [Option.map_map]
  rfl

theorem Skips.skipped {skipped : Read (List Char)} {y : Read (Then α)} (skips : Skips skipped y)
    {a : α} {r : List Char} (read : y = .ok (a, r)) : skipped = .ok r := by
  rw [read] at skips
  exact Except.toOption_eq_some_iff.mp skips

theorem Skips.bind {g : γ → Option δ} {skipped : Read (List Char)} {y : Read (Then α)}
    {k : List Char → Option δ} {l : Then α → Read γ} (first : Skips skipped y)
    (next : ∀ a r, y = .ok (a, r) → skipped = .ok r → Agrees g (k r) (l (a, r))) :
    Agrees g (skipped.toOption.bind k) (y >>= l) := by
  apply Agrees.bind first
  · rintro ⟨a, r⟩ r' given rest
    obtain rfl : r = r' := Option.some.inj rest
    exact next a r given (first.skipped given)
  · rintro a c - none
    cases none

theorem Skips.map {skipped : Read (List Char)} {y : Read (Then α)} (skips : Skips skipped y)
    (f : α → β) : Skips skipped (y >>= fun p => .ok (f p.1, p.2)) :=
  skips.made fun _ _ => rfl

end Phrasebook.Json
