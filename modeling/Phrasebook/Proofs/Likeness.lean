import Mathlib.Data.Option.Basic
import Phrasebook.Proofs.Parts

/-!
Two resolutions of one pattern, side by side. A likeness says which texts and which arguments count
as alike. If it bears what patterns are made of, and no selection sees a difference, then both
resolutions take the same way, end in the same problems and come to texts that are alike.
-/

namespace Phrasebook.Fluent

open Write

/-- What the caller gives for a name. -/
def Scope.given? (scope : Scope) (name : String) : Option Value :=
  scope.arguments?.bind (·.get? name)

/-- A text as it stands in a longer pattern. -/
def Scope.isolate (scope : Scope) (text : String) : String :=
  if scope.isolating then firstStrongIsolate ++ text ++ popDirectionalIsolate else text

/-- What a reference to a term hands to it. -/
def termArguments (scope : Scope) (follow : Follow) : Option Arguments → StateM Progress ArgumentSet
  | some arguments => argumentsOf scope follow arguments
  | none => pure []

def termText (scope : Scope) (follow : Follow) (id : String) (attribute? : Option String) : Write :=
  match ((scope.entry? id).filter (!·.isMessage)).bind (·.asked? attribute?) with
  | some p => follow p (Reference.term id attribute?).text
  | none => unknown (.term id attribute?)

theorem writeOperand_term (scope : Scope) (follow : Follow) (id : String)
    (attribute? : Option String) (arguments? : Option Arguments) :
    writeOperand scope follow (.term id attribute? arguments?) = do
      let args ← termArguments scope follow arguments?
      modify fun s => { s with local? := some args }
      let text ← termText scope follow id attribute?
      modify fun s => { s with local? := none }
      return text := by
  unfold termText
  cases arguments? <;> rw [writeOperand]
  all_goals
    generalize (scope.entry? id).filter (!·.isMessage) = e?
    cases e? with
    | none => rfl
    | some e =>
      simp only [Option.bind_some, Entry.asked?]
      cases attribute? with
      | some a =>
        simp only
        cases e.attribute? a <;> rfl
      | none =>
        simp only
        cases e.value? <;> rfl

structure Likeness where
  text : String → String → Prop
  /-- Which values of an argument of that name are alike. -/
  argument : String → Value → Value → Prop

namespace Likeness

variable (T : Likeness)

/-- The values that an operand can have on the two sides. -/
inductive Values : Operand → Value → Value → Prop
  | string {raw : String} (same : T.text (stringValue raw) (stringValue raw)) :
      Values (.string raw) (.string (stringValue raw)) (.string (stringValue raw))
  | number (spelling : String) :
      Values (.number spelling) (.number (.ofSpelling spelling)) (.number (.ofSpelling spelling))
  | variable {name : String} {v w : Value} (alike : T.argument name v w) :
      Values (.variable name) v w
  | missing (name : String) : Values (.variable name) .error .error
  | message {id : String} {attribute? : Option String} {s t : String} (alike : T.text s t) :
      Values (.message id attribute?) (.string s) (.string t)
  | term {id : String} {attribute? : Option String} {arguments? : Option Arguments} {s t : String}
      (alike : T.text s t) : Values (.term id attribute? arguments?) (.string s) (.string t)
  | function (name : String) (arguments : Arguments) :
      Values (.function name arguments) .error .error
  | nested {content : Expression} {s t : String} (alike : T.text s t) :
      Values (.nested content) (.string s) (.string t)

/-- The likeness bears a part: what the part writes is alike on both sides, a selection sees no
difference, and what is handed to a term may be handed to it. -/
def Bears (σ τ : Scope) : Part → Prop
  | .text value => T.text value value
  | .string raw => T.text (unescaped raw) (unescaped raw) ∧ T.text (stringValue raw) (stringValue raw)
  | .reference r => T.text (inBraces r.text) (inBraces r.text) ∧
      ∀ name, r = .variable name → Option.Rel (T.argument name) (σ.given? name) (τ.given? name)
  | .selector o => ∀ v w, T.Values o v w → v = w
  | .given name o => ∀ v w, T.Values o v w → T.argument name v w

def BearsAll (σ τ : Scope) (parts : List Part) : Prop := ∀ part ∈ parts, T.Bears σ τ part

/-- Scopes that have the same entries, all of which the likeness bears. -/
structure Links (σ τ : Scope) : Prop where
  entry? : τ.entry? = σ.entry?
  language : τ.language = σ.language
  empty : T.text "" ""
  append : ∀ {s t s' t'}, T.text s t → T.text s' t' → T.text (s ++ s') (t ++ t')
  isolate : ∀ {s t}, T.text s t → T.text (σ.isolate s) (τ.isolate t)
  braces : T.text (inBraces "") (inBraces "")
  number : ∀ n : Number, T.text n.text n.text
  argument : ∀ {name v w}, T.argument name v w → T.text v.text w.text
  entries : ∀ id e, σ.entry? id = some e → T.BearsAll σ τ e.parts

def ArgumentSets (as bs : ArgumentSet) : Prop :=
  ∀ name, Option.Rel (T.argument name) (as.get? name) (bs.get? name)

/-- Only the arguments of a term may differ on the way. -/
structure Progresses (p q : Progress) : Prop where
  placeables : q.placeables = p.placeables
  stopped : q.stopped = p.stopped
  travelled : q.travelled = p.travelled
  local? : Option.Rel T.ArgumentSets p.local? q.local?
  problems : q.problems = p.problems

def Simulates {α β : Type} (R : α → β → Prop) (x : StateM Progress α) (y : StateM Progress β) : Prop :=
  ∀ p q, T.Progresses p q → R (x.run p).1 (y.run q).1 ∧ T.Progresses (x.run p).2 (y.run q).2

/-- Patterns that references lead to are written alike. -/
def Follows (σ τ : Scope) (f g : Follow) : Prop :=
  ∀ pattern name, T.BearsAll σ τ (partsOfPattern pattern) → T.text (inBraces name) (inBraces name) →
    T.Simulates T.text (f pattern name) (g pattern name)

variable {T} {σ τ : Scope}

/-! ### Runs -/

namespace Simulates

variable {α β γ δ : Type} {R : α → β → Prop} {S : γ → δ → Prop} {a : α} {b : β}
  {x : StateM Progress α} {y : StateM Progress β}

theorem pure (related : R a b) : T.Simulates R (Pure.pure a) (Pure.pure b) :=
  fun _ _ alike => ⟨related, alike⟩

theorem bind {k : α → StateM Progress γ} {l : β → StateM Progress δ} (first : T.Simulates R x y)
    (next : ∀ a b, R a b → T.Simulates S (k a) (l b)) : T.Simulates S (x >>= k) (y >>= l) := by
  intro p q alike
  obtain ⟨related, after⟩ := first p q alike
  exact next _ _ related _ _ after

theorem imp {S : α → β → Prop} (first : T.Simulates R x y) (weaker : ∀ a b, R a b → S a b) :
    T.Simulates S x y := by
  intro p q alike
  obtain ⟨related, after⟩ := first p q alike
  exact ⟨weaker _ _ related, after⟩

theorem get : T.Simulates T.Progresses MonadState.get MonadState.get := fun _ _ alike => ⟨alike, alike⟩

theorem modify {f g : Progress → Progress} (kept : ∀ p q, T.Progresses p q → T.Progresses (f p) (g q)) :
    T.Simulates (fun _ _ => True) (modify f : StateM Progress Unit) (modify g : StateM Progress Unit) :=
  fun p q alike => ⟨trivial, kept p q alike⟩

theorem report (p : Problem) : T.Simulates (fun _ _ => True) (report p) (report p) := by
  apply modify
  intro p q alike
  exact { alike with problems := by simp only [alike.problems] }

theorem unknown {r : Reference} (named : T.text (inBraces r.text) (inBraces r.text)) :
    T.Simulates T.text (unknown r) (unknown r) := by
  apply (report (.unknown r)).bind
  intro _ _ _
  exact pure named

end Simulates

/-! ### Parts -/

theorem BearsAll.append_iff {ps qs : List Part} :
    T.BearsAll σ τ (ps ++ qs) ↔ T.BearsAll σ τ ps ∧ T.BearsAll σ τ qs := List.forall_mem_append

theorem BearsAll.cons_iff {part : Part} {ps : List Part} :
    T.BearsAll σ τ (part :: ps) ↔ T.Bears σ τ part ∧ T.BearsAll σ τ ps := List.forall_mem_cons

theorem ArgumentSets.nil : T.ArgumentSets [] [] := fun _ => .none

theorem ArgumentSets.cons {as bs : ArgumentSet} {name : String} {v w : Value}
    (first : T.argument name v w) (rest : T.ArgumentSets as bs) :
    T.ArgumentSets ((name, v) :: as) ((name, w) :: bs) := by
  intro other
  by_cases same : name = other
  · subst other
    simpa [ArgumentSet.get?] using first
  · simpa [ArgumentSet.get?, same] using rest other

section Links

variable (links : T.Links σ τ)
include links

theorem Links.isolated {s t : String} (alike : T.text s t) (inLonger : Bool) :
    T.text (if (σ.isolating && inLonger) = true then
        firstStrongIsolate ++ s ++ popDirectionalIsolate else s)
      (if (τ.isolating && inLonger) = true then
        firstStrongIsolate ++ t ++ popDirectionalIsolate else t) := by
  cases inLonger with
  | false => simpa using alike
  | true =>
    simp only [Bool.and_true]
    exact links.isolate alike

theorem Links.name (o : Operand) (borne : T.BearsAll σ τ o.parts) :
    T.text (inBraces o.name) (inBraces o.name) := by
  have named (r : Reference) (rest : List Part) (all : T.BearsAll σ τ (.reference r :: rest)) :
      T.text (inBraces r.text) (inBraces r.text) := (BearsAll.cons_iff.mp all).1.1
  cases o with
  | string | number | nested => exact links.braces
  | «variable» name => exact named (.variable name) _ borne
  | message id attribute? => exact named (.message id attribute?) _ borne
  | term id attribute? arguments? =>
    cases arguments? <;> exact named (.term id attribute?) _ borne
  | function name arguments => exact named (.function name) _ borne

theorem Links.expressionName (content : Expression) (borne : T.BearsAll σ τ content.parts) :
    T.text (inBraces content.name) (inBraces content.name) := by
  have selecting {o : Operand} {vs : List Variant}
      (all : T.BearsAll σ τ (Expression.select o vs).parts) : T.BearsAll σ τ o.parts := by
    rw [Expression.parts, BearsAll.cons_iff, BearsAll.append_iff] at all
    exact all.2.1
  cases content with
  | select o vs => exact links.name o (selecting borne)
  | inline operand =>
    rw [Expression.parts] at borne
    cases operand with
    | nested inner =>
      rw [Operand.parts] at borne
      cases inner with
      | inline o =>
        rw [Expression.parts] at borne
        exact links.name o borne
      | select o vs => exact links.name o (selecting borne)
    | string | number | «variable» | message | term | function => exact links.name _ borne

end Links

/-! ### Steps of a resolution -/

section Steps

variable (links : T.Links σ τ) {f g : Follow}
include links

theorem Simulates.text {whole rest : Pattern} {value : String} (same : T.text value value)
    (later : T.Simulates T.text (writeElements σ f whole rest) (writeElements τ g whole rest)) :
    T.Simulates T.text (writeElements σ f whole (.text value :: rest))
      (writeElements τ g whole (.text value :: rest)) := by
  rw [writeElements, writeElements]
  apply Simulates.get.bind
  intro p q alike
  rw [alike.stopped]
  split
  · exact .pure links.empty
  · apply later.bind
    intro s t alike
    exact .pure (links.append same alike)

theorem Simulates.placeable {whole rest : Pattern} {content : Expression}
    (named : T.text (inBraces content.name) (inBraces content.name))
    (inner : T.Simulates T.text (writeExpression σ f content) (writeExpression τ g content))
    (later : T.Simulates T.text (writeElements σ f whole rest) (writeElements τ g whole rest)) :
    T.Simulates T.text (writeElements σ f whole (.placeable content :: rest))
      (writeElements τ g whole (.placeable content :: rest)) := by
  rw [writeElements, writeElements]
  apply Simulates.get.bind
  intro p q alike
  rw [alike.stopped]
  split
  · exact .pure links.empty
  apply (Simulates.modify ?counted).bind
  case counted => 
    intro p q alike
    exact { alike with placeables := by simp only [alike.placeables] }
  intro _ _ _
  apply Simulates.get.bind
  intro p q alike
  rw [alike.placeables]
  split
  · apply (Simulates.modify ?stopped).bind
    case stopped => 
      intro p q alike
      exact { alike with stopped := rfl }
    intro _ _ _
    apply (Simulates.report _).bind
    intro _ _ _
    exact .pure links.empty
  apply (Simulates.modify ?entered).bind
  case entered =>
    intro p q alike
    rw [alike.travelled]
    split
    · exact { alike with travelled := rfl }
    · exact alike
  intro _ _ _
  apply inner.bind
  intro s t alike
  apply Simulates.get.bind
  intro p q run
  apply later.bind
  intro s' t' alike'
  apply Simulates.pure
  apply links.append _ alike'
  rw [run.stopped, Bool.and_assoc, Bool.and_assoc]
  apply links.isolated
  split
  · exact links.append alike named
  · exact alike

theorem Simulates.select {selector : Operand} {variants : List Variant}
    (seen : T.Bears σ τ (.selector selector))
    (value : T.Simulates (T.Values selector) (valueOf σ f selector) (valueOf τ g selector))
    (fitting : ∀ v, T.Simulates (Option.Rel T.text) (writeFitting σ f v variants)
      (writeFitting τ g v variants))
    (default : T.Simulates (Option.Rel T.text) (writeDefault σ f variants)
      (writeDefault τ g variants)) :
    T.Simulates T.text (writeExpression σ f (.select selector variants))
      (writeExpression τ g (.select selector variants)) := by
  rw [writeExpression, writeExpression]
  apply value.bind
  intro v w values
  obtain rfl := seen v w values
  apply (fitting v).bind
  rintro _ _ (alike | _)
  · exact .pure alike
  apply default.bind
  rintro _ _ (alike | _)
  · exact .pure alike
  apply (Simulates.report _).bind
  intro _ _ _
  exact .pure links.empty

/-- A reference that leads to a pattern has it written, any other leaves its name. -/
theorem Simulates.reference {id : String} (attribute? : Option String) {e : Entry} {r : Reference}
    {p : Pattern} (follows : T.Follows σ τ f g) (named : T.text (inBraces r.text) (inBraces r.text))
    (found : σ.entry? id = some e) (asked : e.asked? attribute? = some p) :
    T.Simulates T.text (f p r.text) (g p r.text) := by
  apply follows p r.text _ named
  intro part member
  exact links.entries id e found part (Entry.mem_parts_of_asked? asked member)

theorem Simulates.message {id : String} {attribute? : Option String}
    (follows : T.Follows σ τ f g) (borne : T.Bears σ τ (.reference (.message id attribute?))) :
    T.Simulates T.text (writeOperand σ f (.message id attribute?))
      (writeOperand τ g (.message id attribute?)) := by
  cases found : (σ.entry? id).filter (·.isMessage) with
  | none =>
    simp only [writeOperand, links.entry?, found]
    exact .unknown borne.1
  | some e =>
    have entry : σ.entry? id = some e := (Option.filter_eq_some_iff.mp found).1
    cases attribute? with
    | some a =>
      cases asked : e.attribute? a with
      | none =>
        simp only [writeOperand, links.entry?, found, asked]
        exact .unknown borne.1
      | some p =>
        simp only [writeOperand, links.entry?, found, asked]
        exact .reference links (some a) follows borne.1 entry asked
    | none =>
      cases asked : e.value? with
      | none =>
        simp only [writeOperand, links.entry?, found, asked]
        apply (Simulates.report _).bind
        intro _ _ _
        exact .pure borne.1
      | some p =>
        simp only [writeOperand, links.entry?, found, asked]
        exact .reference links none follows borne.1 entry asked

theorem Simulates.termText {id : String} {attribute? : Option String}
    (follows : T.Follows σ τ f g) (borne : T.Bears σ τ (.reference (.term id attribute?))) :
    T.Simulates T.text (termText σ f id attribute?) (termText τ g id attribute?) := by
  unfold Fluent.termText
  rw [links.entry?]
  split
  · next p found =>
    obtain ⟨e, isTerm, asked⟩ := Option.bind_eq_some_iff.mp found
    have entry : σ.entry? id = some e := (Option.filter_eq_some_iff.mp isTerm).1
    exact .reference links attribute? follows borne.1 entry asked
  · exact .unknown borne.1

theorem Simulates.term {id : String} {attribute? : Option String} {arguments? : Option Arguments}
    (follows : T.Follows σ τ f g) (borne : T.Bears σ τ (.reference (.term id attribute?)))
    (arguments : T.Simulates T.ArgumentSets (termArguments σ f arguments?)
      (termArguments τ g arguments?)) :
    T.Simulates T.text (writeOperand σ f (.term id attribute? arguments?))
      (writeOperand τ g (.term id attribute? arguments?)) := by
  rw [writeOperand_term, writeOperand_term]
  apply arguments.bind
  intro as bs alike
  apply (Simulates.modify ?_).bind
  · intro _ _ _
    apply (Simulates.termText links follows borne).bind
    intro s t alike
    apply (Simulates.modify ?_).bind
    · intro _ _ _
      exact .pure alike
    · intro p q run
      exact { run with local? := .none }
  · intro p q run
    exact { run with local? := .some alike }

theorem Simulates.variable {name : String} (borne : T.Bears σ τ (.reference (.variable name))) :
    T.Simulates T.text (writeOperand σ f (.variable name)) (writeOperand τ g (.variable name)) := by
  rw [writeOperand, writeOperand]
  apply Simulates.get.bind
  intro p q run
  have locals := run.local?
  generalize p.local? = as?, q.local? = bs? at locals
  cases locals with
  | @some as bs alike =>
    have own := alike name
    simp only
    generalize as.get? name = v?, bs.get? name = w? at own
    cases own with
    | some values => exact .pure (links.argument values)
    | none => exact .pure borne.1
  | none =>
    have caller := borne.2 name rfl
    unfold Scope.given? at caller
    generalize σ.arguments?.bind (·.get? name) = v?, τ.arguments?.bind (·.get? name) = w? at caller
    cases caller with
    | some values => exact .pure (links.argument values)
    | none => exact .unknown borne.1

omit links in
theorem Simulates.variableValue {name : String} (borne : T.Bears σ τ (.reference (.variable name))) :
    T.Simulates (T.Values (.variable name)) (valueOf σ f (.variable name))
      (valueOf τ g (.variable name)) := by
  rw [valueOf, valueOf]
  apply Simulates.get.bind
  intro p q run
  have locals := run.local?
  generalize p.local? = as?, q.local? = bs? at locals
  cases locals with
  | @some as bs alike =>
    have own := alike name
    simp only
    generalize as.get? name = v?, bs.get? name = w? at own
    cases own with
    | some values => exact .pure (.variable values)
    | none => exact .pure (.missing name)
  | none =>
    have caller := borne.2 name rfl
    unfold Scope.given? at caller
    generalize σ.arguments?.bind (·.get? name) = v?, τ.arguments?.bind (·.get? name) = w? at caller
    cases caller with
    | some values => exact .pure (.variable values)
    | none =>
      apply (Simulates.report _).bind
      intro _ _ _
      exact .pure (.missing name)

end Steps

/-! ### Whole patterns -/

section Patterns

variable {f g : Follow}

mutual

theorem simulates_elements (links : T.Links σ τ) (follows : T.Follows σ τ f g)
    (whole : Pattern) (es : List Element)
    (borne : T.BearsAll σ τ (partsOfPattern es)) :
    T.Simulates T.text (writeElements σ f whole es) (writeElements τ g whole es) := by
  cases es with
  | nil =>
    rw [writeElements, writeElements]
    exact .pure links.empty
  | cons e rest =>
    obtain ⟨first, others⟩ := BearsAll.append_iff.mp borne
    have later := simulates_elements links follows whole rest others
    cases e with
    | text value => exact .text links (BearsAll.cons_iff.mp first).1 later
    | placeable content =>
      have named := links.expressionName content first
      exact .placeable links named (simulates_expression links follows content first) later

theorem simulates_expression (links : T.Links σ τ) (follows : T.Follows σ τ f g)
    (content : Expression) (borne : T.BearsAll σ τ content.parts) :
    T.Simulates T.text (writeExpression σ f content) (writeExpression τ g content) := by
  cases content with
  | inline operand =>
    rw [writeExpression, writeExpression]
    exact (simulates_operand links follows operand borne).1
  | select selector variants =>
    rw [Expression.parts, BearsAll.cons_iff, BearsAll.append_iff] at borne
    obtain ⟨seen, own, others⟩ := borne
    have value := (simulates_operand links follows selector own).2
    exact .select links seen value (simulates_fitting links follows variants others)
      (simulates_default links follows variants others)

theorem simulates_fitting (links : T.Links σ τ) (follows : T.Follows σ τ f g)
    (vs : List Variant) (borne : T.BearsAll σ τ (partsOfVariants vs))
    (v : Value) : T.Simulates (Option.Rel T.text) (writeFitting σ f v vs) (writeFitting τ g v vs) := by
  cases vs with
  | nil =>
    rw [writeFitting, writeFitting]
    exact .pure .none
  | cons variant rest =>
    cases variant with
    | mk key isDefault pattern =>
      obtain ⟨first, others⟩ := BearsAll.append_iff.mp borne
      rw [writeFitting, writeFitting, links.language]
      split
      · apply (simulates_elements links follows pattern pattern first).bind
        intro s t alike
        exact .pure (.some alike)
      · exact simulates_fitting links follows rest others v

theorem simulates_default (links : T.Links σ τ) (follows : T.Follows σ τ f g)
    (vs : List Variant) (borne : T.BearsAll σ τ (partsOfVariants vs)) :
    T.Simulates (Option.Rel T.text) (writeDefault σ f vs) (writeDefault τ g vs) := by
  cases vs with
  | nil =>
    rw [writeDefault, writeDefault]
    exact .pure .none
  | cons variant rest =>
    cases variant with
    | mk key isDefault pattern =>
      obtain ⟨first, others⟩ := BearsAll.append_iff.mp borne
      rw [writeDefault, writeDefault]
      split
      · apply (simulates_elements links follows pattern pattern first).bind
        intro s t alike
        exact .pure (.some alike)
      · exact simulates_default links follows rest others

theorem simulates_operand (links : T.Links σ τ) (follows : T.Follows σ τ f g)
    (o : Operand) (borne : T.BearsAll σ τ o.parts) :
    T.Simulates T.text (writeOperand σ f o) (writeOperand τ g o) ∧
      T.Simulates (T.Values o) (valueOf σ f o) (valueOf τ g o) := by
  cases o with
  | string raw =>
    obtain ⟨written, valued⟩ := (BearsAll.cons_iff.mp borne).1
    rw [writeOperand, writeOperand, valueOf, valueOf]
    exact ⟨.pure written, .pure (.string valued)⟩
  | number spelling =>
    rw [writeOperand, writeOperand, valueOf, valueOf]
    exact ⟨.pure (links.number _), .pure (.number spelling)⟩
  | «variable» name =>
    have named := (BearsAll.cons_iff.mp borne).1
    exact ⟨.variable links named, .variableValue named⟩
  | message id attribute? =>
    have text := Simulates.message links follows (BearsAll.cons_iff.mp borne).1
    rw [valueOf, valueOf]
    exact ⟨text, text.bind fun _ _ alike => .pure (.message alike)⟩
  | term id attribute? arguments? =>
    have text : T.Simulates T.text (writeOperand σ f (.term id attribute? arguments?))
        (writeOperand τ g (.term id attribute? arguments?)) := by
      cases arguments? with
      | none => exact .term links follows (BearsAll.cons_iff.mp borne).1 (.pure .nil)
      | some arguments =>
        rw [Operand.parts, BearsAll.cons_iff, BearsAll.append_iff] at borne
        obtain ⟨named, given, own⟩ := borne
        apply Simulates.term links follows named
        exact (simulates_arguments links follows arguments own).imp fun _ _ alike => alike given
    rw [valueOf, valueOf]
    exact ⟨text, text.bind fun _ _ alike => .pure (.term alike)⟩
  | function name arguments =>
    obtain ⟨named, own⟩ := BearsAll.cons_iff.mp borne
    have inner := simulates_arguments links follows arguments own
    rw [writeOperand, writeOperand, valueOf, valueOf]
    exact ⟨inner.bind fun _ _ _ => .unknown named.1,
      inner.bind fun _ _ _ => .pure (.function name arguments)⟩
  | nested content =>
    have text := simulates_expression links follows content borne
    rw [writeOperand, writeOperand, valueOf, valueOf]
    exact ⟨text, text.bind fun _ _ alike => .pure (.nested alike)⟩

theorem simulates_arguments (links : T.Links σ τ) (follows : T.Follows σ τ f g)
    (c : Arguments) (borne : T.BearsAll σ τ c.parts) :
    T.Simulates (fun as bs => T.BearsAll σ τ c.given → T.ArgumentSets as bs)
      (argumentsOf σ f c) (argumentsOf τ g c) := by
  cases c with
  | mk positional named =>
    obtain ⟨first, others⟩ := BearsAll.append_iff.mp borne
    rw [argumentsOf, argumentsOf]
    apply (simulates_values links follows positional first).bind
    intro _ _ _
    exact simulates_named links follows named others

theorem simulates_values (links : T.Links σ τ) (follows : T.Follows σ τ f g)
    (os : List Operand) (borne : T.BearsAll σ τ (partsOfOperands os)) :
    T.Simulates (fun _ _ => True) (valuesOf σ f os) (valuesOf τ g os) := by
  cases os with
  | nil =>
    rw [valuesOf, valuesOf]
    exact .pure trivial
  | cons o os =>
    obtain ⟨first, others⟩ := BearsAll.append_iff.mp borne
    rw [valuesOf, valuesOf]
    apply (simulates_operand links follows o first).2.bind
    intro _ _ _
    exact simulates_values links follows os others

theorem simulates_named (links : T.Links σ τ) (follows : T.Follows σ τ f g)
    (ns : List NamedArgument) (borne : T.BearsAll σ τ (partsOfNamed ns)) :
    T.Simulates (fun as bs => T.BearsAll σ τ (Arguments.mk [] ns).given → T.ArgumentSets as bs)
      (namedValuesOf σ f ns) (namedValuesOf τ g ns) := by
  cases ns with
  | nil =>
    rw [namedValuesOf, namedValuesOf]
    exact .pure fun _ => .nil
  | cons n ns =>
    cases n with
    | mk name o =>
      obtain ⟨first, others⟩ := BearsAll.append_iff.mp borne
      rw [namedValuesOf, namedValuesOf]
      apply (simulates_operand links follows o first).2.bind
      intro v w values
      apply (simulates_named links follows ns others).bind
      intro as bs alike
      apply Simulates.pure
      intro given
      obtain ⟨handed, rest⟩ := BearsAll.cons_iff.mp given
      exact (alike rest).cons (handed v w values)

end

end Patterns

variable (links : T.Links σ τ)
include links

theorem Links.follows (depth : Nat) :
    T.Follows σ τ (followWithin σ depth) (followWithin τ depth) := by
  induction depth with
  | zero =>
    intro pattern name borne named
    exact .pure links.empty
  | succ depth ih =>
    intro pattern name borne named
    apply Simulates.get.bind
    intro p q alike
    rw [alike.travelled]
    split
    · apply (Simulates.report _).bind
      intro _ _ _
      exact .pure named
    · apply (Simulates.modify ?_).bind
      · intro _ _ _
        apply (simulates_elements links ih pattern pattern borne).bind
        intro s t alike
        apply (Simulates.modify ?_).bind
        · intro _ _ _
          exact .pure alike
        · intro p q run
          exact { run with travelled := by simp only [run.travelled] }
      · intro p q run
        exact { run with travelled := by simp only [run.travelled] }

/-- Both resolutions of a pattern come to texts that are alike, and to the same problems. -/
theorem Links.format {pattern : Pattern} (borne : T.BearsAll σ τ (partsOfPattern pattern)) :
    T.text (format σ pattern).1 (format τ pattern).1 ∧
      (Fluent.format τ pattern).2 = (Fluent.format σ pattern).2 := by
  have start : T.Progresses {} {} := ⟨rfl, rfl, rfl, .none, rfl⟩
  obtain ⟨alike, after⟩ := simulates_elements links (links.follows maxPlaceables) pattern pattern
    borne {} {} start
  exact ⟨alike, after.problems⟩

end Likeness
end Phrasebook.Fluent
