import Phrasebook.Proofs.SkippedValue
import Phrasebook.Tag.Record

/-!
The two readers of records. One reads a record straight from its text and skips the members it does
not know; the other reads the whole value first, and then takes it for a token or a record. They
give the same record, unless what is skipped goes beyond what values can hold.
-/

namespace Phrasebook

open Json

namespace Json

/-! ### What a value opens with -/

/-- A value of this kind opens with the character. -/
def OpensWith (c : Char) : Json → Prop
  | .null => c = 'n'
  | .bool b => c = if b then 't' else 'f'
  | .number _ => c = '-' ∨ c.isDigit = true
  | .string _ => c = '"'
  | .array _ => c = '['
  | .object _ => c = '\x7b'

theorem holds_of_made {δ : Type} {y : Read δ} {made : δ → Then Json} {j : Json} {r : List Char}
    (read : (y >>= fun q => .ok (made q)) = .ok (j, r)) {P : Json → Prop}
    (each : ∀ q, P (made q).1) : P j := by
  obtain ⟨q, -, rest⟩ := Except.bind_eq_ok_iff.mp read
  have same : made q = (j, r) := Except.ok.inj rest
  have holds := each q
  rwa [same] at holds

theorem opensWith_of_readValue {fuel depth : Nat} {cs r : List Char} {j : Json}
    (read : readValue fuel depth cs = .ok (j, r)) :
    ∃ c r', skipBlanks cs = c :: r' ∧ OpensWith c j := by
  cases fuel with
  | zero => cases read
  | succ fuel =>
    rw [readValue] at read
    cases visible : skipBlanks cs with
    | nil =>
      rw [visible] at read
      cases read
    | cons c r' =>
      rw [visible] at read
      refine ⟨c, r', rfl, ?_⟩
      simp only at read
      split at read
      · next opens => exact holds_of_made read fun _ => opens
      split at read
      · next opens => exact holds_of_made read fun _ => opens
      split at read
      · next opens => exact holds_of_made read fun _ => opens
      split at read
      · next opens => exact holds_of_made read fun _ => .inl opens
      split at read
      · next opens => exact holds_of_made read fun _ => .inr opens
      split at read
      · next opens => exact holds_of_made read fun _ => opens
      split at read
      · next opens =>
        split at read
        · cases read
        · exact holds_of_made read fun _ => opens
      split at read
      · next opens =>
        split at read
        · cases read
        · exact holds_of_made read fun _ => opens
      · cases read

variable {fuel depth : Nat} {cs r : List Char}

theorem readValue_string (visible : skipBlanks cs = '"' :: r) :
    readValue (fuel + 1) depth cs = readString r >>= fun p => .ok (.string p.1, p.2) := by
  rw [readValue, visible]
  rfl

theorem readValue_null (visible : skipBlanks cs = 'n' :: r) :
    readValue (fuel + 1) depth cs =
      readWord ['u', 'l', 'l'] r >>= fun r' => .ok (.null, r') := by
  rw [readValue, visible]
  rfl

theorem readValue_array (visible : skipBlanks cs = '[' :: r) (deep : 1 < depth) :
    readValue (fuel + 1) depth cs =
      readItems fuel (depth - 1) true r >>= fun p => .ok (.array p.1, p.2) := by
  rw [readValue, visible]
  change (if depth ≤ 1 then _ else _) = _
  rw [if_neg (Nat.not_le.mpr deep)]

theorem readValue_object (visible : skipBlanks cs = '\x7b' :: r) (deep : 1 < depth) :
    readValue (fuel + 1) depth cs =
      readMembers fuel (depth - 1) true r >>= fun p => .ok (.object p.1, p.2) := by
  rw [readValue, visible]
  change (if depth ≤ 1 then _ else _) = _
  rw [if_neg (Nat.not_le.mpr deep)]

end Json

namespace Tag

variable {fuel fuel' depth : Nat} {cs r : List Char}

/-! ### Strings -/

theorem misfit_isNone {α : Type} (wanted : String) (cs : List Char) :
    (misfit wanted cs : Json.Read α).toOption = none := by
  have fails {δ : Type} (y : Json.Read δ) (cause : δ → Cause) (rest : δ → List Char) :
      (y >>= fun q => (stopAfter (cause q) (rest q) : Json.Read α)).toOption = none := by
    cases y <;> rfl
  unfold misfit
  cases skipBlanks cs with
  | nil => rfl
  | cons c r =>
    simp only
    split
    · exact fails ..
    split
    · exact fails ..
    split
    · exact fails ..
    split
    · exact fails ..
    split
    · exact fails ..
    split
    · exact fails ..
    split
    · rfl
    split
    · rfl
    · rfl

def string? : Json → Option String
  | .string s => some s
  | _ => none

/-- A string is read as any value is, and nothing but a string. -/
theorem readText_toOption (fuel depth : Nat) (cs : List Char) :
    (readText cs).toOption = (readValue (fuel + 1) depth cs).toOption.bind fun q =>
      (string? q.1).map fun s => (s, q.2) := by
  by_cases opens : ∃ r, skipBlanks cs = '"' :: r
  · obtain ⟨r, visible⟩ := opens
    have direct : readText cs = readString r := by
      rw [readText, visible]
      rfl
    rw [readValue_string visible, direct]
    cases readString r <;> rfl
  · have refused : (readText cs).toOption = none := by
      unfold readText
      split
      · next r visible => exact absurd ⟨r, visible⟩ opens
      · exact misfit_isNone ..
    rw [refused]
    cases read : readValue (fuel + 1) depth cs with
    | error s => rfl
    | ok q =>
      obtain ⟨c, r', visible, kind⟩ := opensWith_of_readValue read
      cases shape : q.1 with
      | string s =>
        rw [shape] at kind
        exact absurd ⟨r', kind ▸ visible⟩ opens
      | _ => simp [shape, string?, Except.toOption]

/-- So is a string or `null`. -/
theorem readText?_toOption (fuel depth : Nat) (cs : List Char) :
    (readText? cs).toOption = (readValue (fuel + 1) depth cs).toOption.bind fun q =>
      (valueOf? q.1).map fun v => (v, q.2) := by
  by_cases null : ∃ r, skipBlanks cs = 'n' :: r
  · obtain ⟨r, visible⟩ := null
    have direct : readText? cs = readWord ['u', 'l', 'l'] r >>= fun r' => .ok (none, r') := by
      rw [readText?, visible]
      rfl
    rw [readValue_null visible, direct]
    cases readWord ['u', 'l', 'l'] r <;> rfl
  · have direct : readText? cs = readText cs >>= fun p => .ok (some p.1, p.2) := by
      have same : readText (skipBlanks cs) = readText cs := by
        rw [readText, skipBlanks_again, readText]
      unfold readText?
      split
      · next r visible => exact absurd ⟨r, visible⟩ null
      · rw [same]
    rw [direct, Except.toOption_bind, readText_toOption fuel depth]
    cases read : readValue (fuel + 1) depth cs with
    | error s => rfl
    | ok q =>
      obtain ⟨c, r', visible, kind⟩ := opensWith_of_readValue read
      cases shape : q.1 with
      | null =>
        rw [shape] at kind
        exact absurd ⟨r', kind ▸ visible⟩ null
      | _ => simp [shape, string?, valueOf?, Except.toOption]

/-! ### Members -/

/-- What is known of a record after a member of that name and value. -/
def enter? (p : Partial) (name : String) (j : Json) : Option Partial :=
  if name = "key" then
    if p.key?.isSome then none else (string? j).map fun k => { p with key? := some k }
  else if name = "value" then
    if p.value?.isSome then none else (valueOf? j).map fun v => { p with value? := some v }
  else some p

theorem gather?_cons (name : String) (j : Json) (ms : List (String × Json)) (p : Partial) :
    gather? ((name, j) :: ms) p = (enter? p name j).bind (gather? ms) := by
  conv_lhs => unfold gather?
  unfold enter?
  by_cases key : name = "key"
  · rw [if_pos key, if_pos key]
    cases held : p.key? with
    | none => cases j <;> rfl
    | some k => cases j <;> rfl
  · rw [if_neg key, if_neg key]
    by_cases value : name = "value"
    · rw [if_pos value, if_pos value]
      cases p.value? with
      | none => cases valueOf? j <;> rfl
      | some v => cases valueOf? j <;> rfl
    · rw [if_neg value, if_neg value]
      rfl

/-- The same where the member's value is read straight from the text. -/
def member? (p : Partial) (name : String) (r : List Char) : Option (Then Partial) :=
  if name = "key" then
    if p.key?.isSome then none
    else (readText r).toOption.map fun q => ({ p with key? := some q.1 }, q.2)
  else if name = "value" then
    if p.value?.isSome then none
    else (readText? r).toOption.map fun q => ({ p with value? := some q.1 }, q.2)
  else (skipValue (enough r) r).toOption.map fun r => (p, r)

theorem readMembers_next (fuel : Nat) (isFirst : Bool) (p : Partial) (cs : List Char) :
    (readMembers (fuel + 1) isFirst p cs).toOption =
      (nextMember isFirst cs).toOption.bind fun
        | .done r => some (p, r)
        | .item r => (readString r).toOption.bind fun q =>
            (colon q.2).toOption.bind fun r =>
              (member? p q.1 r).bind fun q => (readMembers fuel false q.1 q.2).toOption := by
  have member {δ : Type} (r : List Char) (reader : List Char → Json.Read δ)
      (made : δ → Then Partial) :
      ((colon r >>= reader).mapError (·, cs) >>= fun a =>
        readMembers fuel false (made a).1 (made a).2).toOption =
      (colon r).toOption.bind fun r => ((reader r).toOption.map made).bind fun q =>
        (readMembers fuel false q.1 q.2).toOption := by
    rw [Except.toOption_mapError_bind, Except.toOption_bind, Option.bind_assoc]
    simp only [Option.bind_map]
    rfl
  rw [readMembers, Except.toOption_mapError_bind]
  congr 1
  funext step
  cases step with
  | done r => rfl
  | item r =>
    rw [Except.toOption_mapError_bind]
    congr 1
    funext q
    unfold member?
    by_cases key : q.1 = "key"
    · simp only [key, if_true]
      split
      · cases colon q.2 <;> rfl
      · exact member q.2 readText fun a => ({ p with key? := some a.1 }, a.2)
    · simp only [key, if_false]
      by_cases value : q.1 = "value"
      · simp only [value, if_true]
        split
        · cases colon q.2 <;> rfl
        · exact member q.2 readText? fun a => ({ p with value? := some a.1 }, a.2)
      · simp only [value, if_false]
        exact member q.2 (fun r => skipValue (enough r) r) (p, ·)

theorem member?_follows (p : Partial) (name : String) {r : List Char}
    (enough' : 2 * r.length + 1 ≤ fuel) :
    Follows (enter? p name) (member? p name r) (readValue fuel depth r) := by
  obtain ⟨fuel, rfl⟩ := Nat.exists_eq_add_of_le' (by omega : 1 ≤ fuel)
  unfold enter? member?
  by_cases key : name = "key"
  · simp only [key, if_true]
    split
    · exact .of_none fun _ _ => rfl
    · exact Follows.map (.of_toOption (readText_toOption fuel depth r)) fun k =>
        { p with key? := some k }
  · simp only [key, if_false]
    by_cases value : name = "value"
    · simp only [value, if_true]
      split
      · exact .of_none fun _ _ => rfl
      · exact Follows.map (.of_toOption (readText?_toOption fuel depth r)) fun v =>
          { p with value? := some v }
    · simp only [value, if_false]
      have plenty : 2 * r.length + 1 ≤ enough r := by
        unfold enough
        omega
      have skips : Skips (skipValue (enough r) r) (readValue (fuel + 1) depth r) :=
        skips_value plenty enough'
      exact Agrees.map skips fun r => (p, r)

/-- The members of a record are those of an object, up to the end, which is left here. -/
theorem readMembers_follows (isFirst : Bool) (p : Partial) (enough : cs.length < fuel)
    (enough' : 2 * cs.length + 2 ≤ fuel') :
    Agrees (fun q => (gather? q.1 p).map (·, '\x7d' :: q.2))
      (readMembers fuel isFirst p cs).toOption (Json.readMembers fuel' depth isFirst cs) := by
  induction fuel generalizing fuel' isFirst p cs with
  | zero => exact absurd enough (Nat.not_lt_zero _)
  | succ fuel ih =>
    obtain ⟨fuel', rfl⟩ := Nat.exists_eq_add_of_le' (by omega : 1 ≤ fuel')
    rw [readMembers_next, Json.readMembers]
    apply Agrees.after
    intro step next
    rcases nextMember_cases next with ⟨r, rfl, -⟩ | ⟨r, rfl, short⟩
    · rfl
    apply Agrees.after
    rintro ⟨name, r₁⟩ named
    have shorter := length_of_readString named
    apply Agrees.after
    intro r₂ passed
    have shorter' : r₂.length < r₁.length := length_of_colon passed
    apply Agrees.bind (member?_follows p name (by omega))
    · rintro ⟨j, r₃⟩ q read entered
      have shorter'' := length_of_readValue (by omega) read
      obtain ⟨p', known, rfl⟩ := Option.map_eq_some_iff.mp entered
      simp only
      apply (ih false p' (by omega) (by omega)).made
      rintro ⟨ms, r₄⟩ -
      simp only [gather?_cons, known, Option.bind_some]
    · rintro ⟨j, r₃⟩ ⟨ms, r₄⟩ - entered given
      have unknown : enter? p name j = none := Option.map_eq_none_iff.mp entered
      obtain ⟨⟨ms', r₅⟩, -, rest⟩ := Except.bind_eq_ok_iff.mp given
      cases rest
      simp only [gather?_cons, unknown]
      rfl

/-! ### Closing -/

/-- What is left behind the end of a list or an object, if it can be closed here. -/
def closed? (closing : List Char → Json.Read Unit × List Char) (cs : List Char) :
    Option (List Char) :=
  match closing cs with
  | (.ok (), r) => some r
  | (.error _, _) => none

theorem close_toOption {α : Type} (closing : List Char → Json.Read Unit × List Char)
    (x : Except (Stop × List Char) (Then α)) :
    (close closing x).toOption =
      x.toOption.bind fun q => (closed? closing q.2).map fun r => (q.1, r) := by
  cases x with
  | error s => rfl
  | ok q =>
    change (match closing q.2 with
      | (.ok (), r) => (.ok (q.1, r) : Json.Read (Then α))
      | (.error s, _) => .error s).toOption = (closed? closing q.2).map fun r => (q.1, r)
    unfold closed?
    split <;> rfl

theorem closed?_listEnd (cs : List Char) :
    closed? listEnd cs = (nextItem false cs).toOption.bind fun
      | .done r => some (r.drop 1)
      | .item _ => none := by
  unfold closed? listEnd nextItem
  cases skipBlanks cs with
  | nil => rfl
  | cons c r =>
    by_cases ends : c = ']'
    · simp only [ends, if_true]
      rfl
    by_cases comma : c = ','
    · subst c
      simp only [ends, if_true, if_false]
      cases skipBlanks r with
      | nil => rfl
      | cons d r =>
        by_cases trailing : d = ']'
        · subst d
          rfl
        · simp [trailing]
          rfl
    · simp only [ends, comma, if_false]
      rfl

theorem listEnd_follows (t : Tag) (fuel depth : Nat) (cs : List Char) :
    Follows (fun js => if js.isEmpty then some t else none)
      ((closed? listEnd cs).map fun r => (t, r)) (Json.readItems (fuel + 1) depth false cs) := by
  rw [closed?_listEnd, Json.readItems, Option.map_bind]
  apply Agrees.after
  intro step _
  cases step with
  | done r => rfl
  | item r =>
    apply Agrees.of_none
    intro q read
    obtain ⟨⟨j, r₁⟩, -, rest⟩ := Except.bind_eq_ok_iff.mp read
    obtain ⟨⟨js, r₂⟩, -, made⟩ := Except.bind_eq_ok_iff.mp rest
    cases made
    rfl

/-! ### Records -/

theorem readItems_toOption (cs : List Char) :
    (readItems cs).toOption = (nextItem true cs).toOption.bind fun
      | .done _ => none
      | .item r => (readText r).toOption.bind fun k =>
          (nextItem false k.2).toOption.bind fun
            | .done r => some (⟨k.1, none⟩, r)
            | .item r => (readText? r).toOption.map fun v => (⟨k.1, v.1⟩, v.2) := by
  rw [readItems, Except.toOption_mapError_bind]
  congr 1
  funext step
  cases step with
  | done r => rfl
  | item r =>
    rw [Except.toOption_mapError_bind]
    congr 1
    funext k
    rw [Except.toOption_mapError_bind]
    congr 1
    funext step
    cases step with
    | done r => rfl
    | item r =>
      rw [Except.toOption_mapError_bind]
      simp only [Option.map_eq_bind]
      rfl

/-- What comes behind the key in a list. -/
theorem itemsAfterKey_follows (k : String) (fuel depth : Nat) (cs : List Char) :
    Follows (fun js => ofJson? (.array (.string k :: js)))
      (((nextItem false cs).toOption.bind fun
        | .done r => some (⟨k, none⟩, r)
        | .item r => (readText? r).toOption.map fun v => (⟨k, v.1⟩, v.2)).bind fun q =>
          (closed? listEnd q.2).map fun r => (q.1, r))
      (Json.readItems (fuel + 2) depth false cs) := by
  rw [Json.readItems, Option.bind_assoc]
  apply Agrees.after
  intro step next
  rcases nextItem_cases next with ⟨r, rfl, -⟩ | ⟨r, rfl, -⟩
  · rfl
  simp only [Option.bind_map]
  apply Agrees.bind (.of_toOption (readText?_toOption fuel depth r))
  · rintro ⟨j, r₁⟩ q - given
    obtain ⟨v, known, rfl⟩ := Option.map_eq_some_iff.mp given
    apply (listEnd_follows ⟨k, v⟩ fuel depth r₁).made
    rintro ⟨js, r₂⟩ -
    cases js with
    | nil => simp [ofJson?, known]
    | cons j' js => rfl
  · rintro ⟨j, r₁⟩ ⟨js, r₂⟩ - lost given
    have unknown : valueOf? j = none := Option.map_eq_none_iff.mp lost
    obtain ⟨⟨js', r₃⟩, -, rest⟩ := Except.bind_eq_ok_iff.mp given
    cases rest
    cases js' with
    | nil => simp [ofJson?, unknown]
    | cons j' js => rfl

theorem readList_follows (fuel depth : Nat) (cs : List Char) :
    Follows (fun js => ofJson? (.array js)) (close listEnd (readItems cs)).toOption
      (Json.readItems (fuel + 3) depth true cs) := by
  rw [close_toOption, readItems_toOption, Json.readItems, Option.bind_assoc]
  apply Agrees.after
  intro step next
  rcases nextItem_cases next with ⟨r, rfl, -⟩ | ⟨r, rfl, -⟩
  · rfl
  dsimp only
  rw [Option.bind_assoc]
  apply Agrees.bind (.of_toOption (readText_toOption (fuel + 1) depth r))
  · rintro ⟨j, r₁⟩ q - given
    obtain ⟨k, known, rfl⟩ := Option.map_eq_some_iff.mp given
    cases j with
    | string s =>
      obtain rfl : s = k := Option.some.inj known
      exact (itemsAfterKey_follows s fuel depth r₁).made fun _ _ => rfl
    | _ => cases known
  · rintro ⟨j, r₁⟩ ⟨js, r₂⟩ - lost given
    obtain ⟨⟨js', r₃⟩, -, rest⟩ := Except.bind_eq_ok_iff.mp given
    cases rest
    cases j with
    | string s => cases lost
    | _ => rfl

theorem readObject_follows (enough' : 2 * cs.length + 2 ≤ fuel') :
    Follows (fun ms => ofJson? (.object ms))
      (close objectEnd do
        let (p, r) ← readMembers (cs.length + 1) true {} cs
        match p.finish with
        | .ok t => .ok (t, r)
        | .error cause => .error (.somewhere cause, r)).toOption
      (Json.readMembers fuel' depth true cs) := by
  rw [close_toOption, Except.toOption_bind, Option.bind_assoc]
  apply ((readMembers_follows true {} (Nat.lt_succ_self _) enough').andThen _).congr
  rintro ⟨ms, r⟩ -
  change _ = (((gather? ms {}).bind fun p => p.finish.toOption).map fun t => (t, r))
  cases gather? ms {} with
  | none => rfl
  | some p =>
    simp only [Option.map_some, Option.bind_some]
    cases p.finish <;> rfl

/-- Whatever comes next, a record is read from it if the value that is read holds one. -/
theorem readRecord_follows (deep : 1 < depth) (enough' : 2 * cs.length + 4 ≤ fuel') :
    Follows ofJson? (readRecord cs).toOption (readValue fuel' depth cs) := by
  obtain ⟨fuel, rfl⟩ := Nat.exists_eq_add_of_le' (by omega : 4 ≤ fuel')
  unfold readRecord
  split
  · next visible =>
    apply Agrees.of_none
    intro q read
    obtain ⟨c, r', visible', -⟩ := opensWith_of_readValue read
    rw [visible] at visible'
    cases visible'
  · next r visible =>
    rw [readValue_array visible deep]
    exact (readList_follows fuel (depth - 1) r).made fun _ _ => rfl
  · next r visible =>
    have short := length_of_skipBlanks visible
    rw [readValue_object visible deep]
    exact (readObject_follows (by omega)).made fun _ _ => rfl
  · next bracket brace =>
    rw [misfit_isNone]
    apply Agrees.of_none
    rintro ⟨j, r⟩ read
    obtain ⟨c, r', visible, kind⟩ := opensWith_of_readValue read
    cases j with
    | array js => exact absurd (kind ▸ visible) (bracket r')
    | object ms => exact absurd (kind ▸ visible) (brace r')
    | _ => rfl

end Tag
end Phrasebook
