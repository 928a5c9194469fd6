import Phrasebook.Proofs.Keys
import Phrasebook.Proofs.Parts

/-!
What a document that was read can have in it. All names in it are identifiers; what is selected by is
a value, an argument, a function or an attribute of a term; and a term is given values, messages and
functions.
-/

namespace Phrasebook

namespace Fluent

def Reference.IsNamed : Reference → Prop
  | .message id attribute? | .term id attribute? =>
    IsIdentifier id ∧ ∀ a ∈ attribute?, IsIdentifier a
  | .variable name | .function name => IsIdentifier name

namespace Operand

def CanSelect : Operand → Prop
  | .string _ | .number _ | .variable _ | .function .. | .term _ (some _) _ => True
  | .message .. | .term _ none _ | .nested _ => False

def CanBeGiven : Operand → Prop
  | .string _ | .number _ | .message .. | .function .. => True
  | .variable _ | .term .. | .nested _ => False

theorem canSelect_of_no_fault {o : Operand} (selects : selectorFault? o = none) : o.CanSelect := by
  cases o with
  | message id attribute? => cases attribute? <;> cases selects
  | term id attribute? arguments? =>
    cases attribute? with
    | none => cases selects
    | some a => trivial
  | nested => cases selects
  | string | number | «variable» | function => trivial

end Operand

namespace Part

def Lawful : Part → Prop
  | text _ | string _ => True
  | reference r => r.IsNamed
  | selector o => o.CanSelect
  | given _ o => o.CanBeGiven

end Part

/-- No part is out of place. -/
def AllLawful (parts : List Part) : Prop := ∀ part ∈ parts, part.Lawful

namespace AllLawful

variable {ps qs : List Part}

theorem nil : AllLawful [] := by simp [AllLawful]

theorem cons {part : Part} (first : part.Lawful) (rest : AllLawful ps) : AllLawful (part :: ps) :=
  List.forall_mem_cons.mpr ⟨first, rest⟩

theorem append (first : AllLawful ps) (second : AllLawful qs) : AllLawful (ps ++ qs) :=
  List.forall_mem_append.mpr ⟨first, second⟩

theorem of_append (both : AllLawful (ps ++ qs)) : AllLawful ps ∧ AllLawful qs :=
  List.forall_mem_append.mp both

end AllLawful

/-! ### Pieces -/

def Piece.parts : Piece → List Part
  | .text value .. => [.text (String.ofList value)]
  | .placeable content _ => content.parts

def PiecesLawful (ps : List Piece) : Prop := ∀ p ∈ ps, AllLawful p.parts

theorem settle_lawful {p : Piece} (lawful : AllLawful p.parts) (common? : Option Nat)
    (isLast : Bool) : AllLawful (p.settle common? isLast).parts := by
  cases p with
  | text => exact .cons trivial .nil
  | placeable content position => exact lawful

theorem settleAll_lawful {ps : List Piece} (lawful : PiecesLawful ps) (common? : Option Nat) :
    AllLawful (partsOfPattern (settleAll common? ps)) := by
  induction ps with
  | nil => exact .nil
  | cons p ps ih =>
    obtain ⟨first, rest⟩ := List.forall_mem_cons.mp lawful
    cases ps with
    | nil => exact (settle_lawful first common? true).append .nil
    | cons q qs => exact (settle_lawful first common? false).append (ih rest)

theorem assemble_lawful {ps : List Piece} (lawful : PiecesLawful ps) {p : Pattern}
    (made : assemble ps = some p) : AllLawful (partsOfPattern p) := by
  unfold assemble at made
  split at made
  · cases made
  · cases made
    apply settleAll_lawful
    intro q member
    apply lawful
    have inTail := List.dropWhile_subset _ (List.mem_reverse.mp member)
    exact List.mem_reverse.mp inTail

/-! ### Readers -/

theorem attributeAccessor_named {cs rest : List Char} {attribute? : Option String}
    (read : attributeAccessor cs = .ok (attribute?, rest)) : ∀ a ∈ attribute?, IsIdentifier a := by
  unfold attributeAccessor at read
  split at read
  · obtain ⟨⟨name, r⟩, named, read⟩ := Except.bind_eq_ok_iff.mp read
    cases read
    rintro _ ⟨⟩
    exact isIdentifier_of_identifier named
  · cases read
    simp

/-- What the readers give with so much fuel is lawful. -/
structure ReadLawfully (fuel : Nat) : Prop where
  pattern : ∀ {cs p rest}, pattern fuel cs = .ok (some p, rest) → AllLawful (partsOfPattern p)
  pieces : ∀ {position cs ps rest}, pieces fuel position cs = .ok (ps, rest) → PiecesLawful ps
  placeable : ∀ {cs content rest}, placeable fuel cs = .ok (content, rest) → AllLawful content.parts
  expression : ∀ {cs content rest}, expression fuel cs = .ok (content, rest) →
    AllLawful content.parts
  variants : ∀ {hasDefault cs vs rest}, variants fuel hasDefault cs = .ok (vs, rest) →
    AllLawful (partsOfVariants vs)
  operand : ∀ {literal cs o rest}, operand fuel literal cs = .ok (o, rest) →
    AllLawful o.parts ∧ (literal = true → o.CanBeGiven)
  arguments : ∀ {cs c rest}, arguments fuel cs = .ok (some c, rest) →
    AllLawful (c.given ++ c.parts)
  argumentList : ∀ {names cs ps ns rest}, argumentList fuel names cs = .ok ((ps, ns), rest) →
    AllLawful ((Arguments.mk ps ns).given ++ (Arguments.mk ps ns).parts)

namespace ReadLawfully

theorem zero : ReadLawfully 0 where
  pattern read := by cases read
  pieces read := by cases read
  placeable read := by cases read
  expression read := by cases read
  variants read := by cases read
  operand read := by cases read
  arguments read := by cases read
  argumentList read := by cases read

variable {fuel : Nat} (ih : ReadLawfully fuel) {cs rest : List Char}
include ih

theorem placeable_succ {content : Expression}
    (read : Fluent.placeable (fuel + 1) cs = .ok (content, rest)) : AllLawful content.parts := by
  rw [Fluent.placeable] at read
  obtain ⟨⟨e, r⟩, inner, read⟩ := Except.bind_eq_ok_iff.mp read
  obtain ⟨s, -, read⟩ := Except.bind_eq_ok_iff.mp read
  cases read
  exact ih.expression inner

theorem pattern_succ {p : Pattern} (read : Fluent.pattern (fuel + 1) cs = .ok (some p, rest)) :
    AllLawful (partsOfPattern p) := by
  rw [Fluent.pattern] at read
  split at read
  all_goals
    obtain ⟨⟨ps, r⟩, given, read⟩ := Except.bind_eq_ok_iff.mp read
    simp only [Except.ok.injEq, Prod.mk.injEq] at read
    exact assemble_lawful (ih.pieces given) read.1

theorem pieces_succ {position : Position} {ps : List Piece}
    (read : Fluent.pieces (fuel + 1) position cs = .ok (ps, rest)) : PiecesLawful ps := by
  have none : PiecesLawful [] := by simp [PiecesLawful]
  cases cs with
  | nil =>
    cases read
    exact none
  | cons c r =>
    by_cases brace : c = '{'
    · subst c
      rw [Fluent.pieces] at read
      obtain ⟨⟨content, s⟩, inner, read⟩ := Except.bind_eq_ok_iff.mp read
      obtain ⟨⟨qs, t⟩, later, read⟩ := Except.bind_eq_ok_iff.mp read
      cases read
      exact List.forall_mem_cons.mpr ⟨ih.placeable inner, ih.pieces later⟩
    · rw [Fluent.pieces.eq_4 _ _ _ (by simp) (by simp [brace])] at read
      dsimp only at read
      generalize (if position = .lineStart then (c :: r).takeWhile (· == ' ') else []) = spaces
        at read
      split at read
      · cases read
        exact none
      · split at read
        · cases read
          exact none
        · obtain ⟨⟨t, s⟩, -, read⟩ := Except.bind_eq_ok_iff.mp read
          obtain ⟨⟨qs, r⟩, later, read⟩ := Except.bind_eq_ok_iff.mp read
          dsimp only at read
          split at read
          · cases read
            exact List.forall_mem_cons.mpr ⟨.cons trivial .nil, ih.pieces later⟩
          · cases read
            exact ih.pieces later

theorem expression_succ {content : Expression}
    (read : Fluent.expression (fuel + 1) cs = .ok (content, rest)) : AllLawful content.parts := by
  rw [Fluent.expression] at read
  obtain ⟨⟨o, r⟩, first, read⟩ := Except.bind_eq_ok_iff.mp read
  have own := (ih.operand first).1
  dsimp only at read
  split at read
  · split at read
    · cases read
    · next selects =>
      split at read
      · cases read
      · obtain ⟨⟨vs, r'⟩, later, read⟩ := Except.bind_eq_ok_iff.mp read
        cases read
        exact .cons (Operand.canSelect_of_no_fault selects) (own.append (ih.variants later))
  · split at read
    · cases read
    · cases read
      exact own

theorem variants_succ {hasDefault : Bool} {vs : List Variant}
    (read : Fluent.variants (fuel + 1) hasDefault cs = .ok (vs, rest)) :
    AllLawful (partsOfVariants vs) := by
  rw [Fluent.variants.eq_def] at read
  dsimp only at read
  split at read
  all_goals
    dsimp only at read
    split at read
    · cases read
    · split at read
      · obtain ⟨⟨key, r⟩, -, read⟩ := Except.bind_eq_ok_iff.mp read
        obtain ⟨⟨value?, s⟩, inner, read⟩ := Except.bind_eq_ok_iff.mp read
        cases value? with
        | none => cases read
        | some value =>
          obtain ⟨⟨ws, t⟩, later, read⟩ := Except.bind_eq_ok_iff.mp read
          cases read
          exact (ih.pattern inner).append (ih.variants later)
      · split at read
        · cases read
          exact .nil
        · cases read

theorem term_lawful {id : String} {attribute? : Option String} {arguments? : Option Arguments}
    {r : List Char} (id_named : IsIdentifier id) (attribute_named : ∀ a ∈ attribute?, IsIdentifier a)
    (read : Fluent.arguments fuel r = .ok (arguments?, rest)) :
    AllLawful (Operand.term id attribute? arguments?).parts := by
  cases arguments? with
  | none => exact .cons ⟨id_named, attribute_named⟩ .nil
  | some c => exact .cons ⟨id_named, attribute_named⟩ (ih.arguments read)

theorem operand_succ {literal : Bool} {o : Operand}
    (read : Fluent.operand (fuel + 1) literal cs = .ok (o, rest)) :
    AllLawful o.parts ∧ (literal = true → o.CanBeGiven) := by
  rw [Fluent.operand.eq_def] at read
  dsimp only at read
  split at read
  · cases read
  · split at read
    · obtain ⟨⟨raw, r⟩, -, read⟩ := Except.bind_eq_ok_iff.mp read
      cases read
      exact ⟨.cons trivial .nil, fun _ => trivial⟩
    · split at read
      · obtain ⟨⟨spelling, r⟩, -, read⟩ := Except.bind_eq_ok_iff.mp read
        cases read
        exact ⟨.nil, fun _ => trivial⟩
      · split at read
        · next isTerm =>
          -- A hyphen opens a term or a number, but no literal.
          suffices own : AllLawful o.parts from ⟨own, fun isLiteral => by simp [isLiteral] at isTerm⟩
          split at read
          · split at read
            · obtain ⟨⟨id, r⟩, named, read⟩ := Except.bind_eq_ok_iff.mp read
              obtain ⟨⟨attribute?, s⟩, accessed, read⟩ := Except.bind_eq_ok_iff.mp read
              obtain ⟨⟨arguments?, t⟩, handed, read⟩ := Except.bind_eq_ok_iff.mp read
              cases read
              exact ih.term_lawful (isIdentifier_of_identifier named)
                (attributeAccessor_named accessed) handed
            · obtain ⟨⟨spelling, r⟩, -, read⟩ := Except.bind_eq_ok_iff.mp read
              cases read
              exact .nil
          · obtain ⟨⟨spelling, r⟩, -, read⟩ := Except.bind_eq_ok_iff.mp read
            cases read
            exact .nil
        · split at read
          · next isVariable =>
            obtain ⟨⟨name, r⟩, named, read⟩ := Except.bind_eq_ok_iff.mp read
            cases read
            refine ⟨.cons (isIdentifier_of_identifier named) .nil, ?_⟩
            rintro rfl
            simp at isVariable
          · split at read
            · obtain ⟨⟨id, r⟩, named, read⟩ := Except.bind_eq_ok_iff.mp read
              obtain ⟨⟨arguments?, s⟩, handed, read⟩ := Except.bind_eq_ok_iff.mp read
              have id_named := isIdentifier_of_identifier named
              cases arguments? with
              | some c =>
                dsimp only at read
                split at read
                · cases read
                  exact ⟨.cons id_named (AllLawful.of_append (ih.arguments handed)).2,
                    fun _ => trivial⟩
                · cases read
              | none =>
                obtain ⟨⟨attribute?, t⟩, accessed, read⟩ := Except.bind_eq_ok_iff.mp read
                cases read
                exact ⟨.cons ⟨id_named, attributeAccessor_named accessed⟩ .nil, fun _ => trivial⟩
            · split at read
              · next isNested =>
                obtain ⟨⟨content, r⟩, inner, read⟩ := Except.bind_eq_ok_iff.mp read
                cases read
                refine ⟨ih.placeable inner, ?_⟩
                rintro rfl
                simp at isNested
              · cases read

theorem arguments_succ {c : Arguments}
    (read : Fluent.arguments (fuel + 1) cs = .ok (some c, rest)) :
    AllLawful (c.given ++ c.parts) := by
  rw [Fluent.arguments.eq_def] at read
  dsimp only at read
  split at read
  · obtain ⟨⟨⟨ps, ns⟩, r⟩, listed, read⟩ := Except.bind_eq_ok_iff.mp read
    cases read
    exact ih.argumentList listed
  · cases read

theorem argumentList_succ {names : List String} {ps : List Operand} {ns : List NamedArgument}
    (read : Fluent.argumentList (fuel + 1) names cs = .ok ((ps, ns), rest)) :
    AllLawful ((Arguments.mk ps ns).given ++ (Arguments.mk ps ns).parts) := by
  rw [Fluent.argumentList.eq_def] at read
  split at read
  · cases read
  · cases read
  · cases read
    exact .nil
  · next given _ _ =>
    cases given
    obtain ⟨⟨value, r⟩, first, read⟩ := Except.bind_eq_ok_iff.mp read
    dsimp only at read
    split at read
    · split at read
      · cases read
      · obtain ⟨⟨v, s⟩, named, read⟩ := Except.bind_eq_ok_iff.mp read
        obtain ⟨⟨⟨qs, ms⟩, t⟩, later, read⟩ := Except.bind_eq_ok_iff.mp read
        cases read
        obtain ⟨own, literal⟩ := ih.operand named
        obtain ⟨given, listed⟩ := AllLawful.of_append (ih.argumentList later)
        obtain ⟨positional, others⟩ := AllLawful.of_append listed
        exact .append (.cons (literal rfl) given) (positional.append (own.append others))
    · split at read
      · cases read
      · obtain ⟨⟨⟨qs, ms⟩, t⟩, later, read⟩ := Except.bind_eq_ok_iff.mp read
        cases read
        obtain ⟨given, listed⟩ := AllLawful.of_append (ih.argumentList later)
        obtain ⟨positional, others⟩ := AllLawful.of_append listed
        exact given.append (((ih.operand first).1.append positional).append others)

end ReadLawfully

theorem readLawfully (fuel : Nat) : ReadLawfully fuel := by
  induction fuel with
  | zero => exact .zero
  | succ fuel ih =>
    exact ⟨ih.pattern_succ, ih.pieces_succ, ih.placeable_succ, ih.expression_succ, ih.variants_succ,
      ih.operand_succ, ih.arguments_succ, ih.argumentList_succ⟩

/-! ### Documents -/

theorem entry_lawful {cs rest : List Char} {e : Entry} (read : entry cs = .ok (e, rest)) :
    AllLawful e.parts := by
  obtain ⟨-, ⟨fuel, _, _, valued⟩, listed⟩ := entry_parts read
  intro part member
  obtain ⟨p, inEntry, inPattern⟩ := List.mem_flatMap.mp member
  rcases List.mem_append.mp inEntry with isValue | ofAttribute
  · rw [Option.mem_toList.mp isValue] at valued
    exact (readLawfully fuel).pattern valued part inPattern
  · obtain ⟨a, present, rfl⟩ := List.mem_map.mp ofAttribute
    obtain ⟨_, _, body⟩ := listed a present
    obtain ⟨-, fuel, _, _, valued⟩ := attributeBody_parts body
    exact (readLawfully fuel).pattern valued part inPattern

end Fluent

theorem Document.IsRead.lawful {d : Document} (read : d.IsRead) : Fluent.AllLawful d.parts := by
  intro part member
  obtain ⟨e, listed, inEntry⟩ := List.mem_flatMap.mp member
  obtain ⟨cs, rest, entered⟩ := read.entry_read listed
  exact Fluent.entry_lawful entered part inEntry

theorem allLawful_partsOf {ds : List Document} (read : ∀ d ∈ ds, d.IsRead) :
    Fluent.AllLawful (partsOf ds) := by
  intro part member
  obtain ⟨d, present, inDocument⟩ := List.mem_flatMap.mp member
  exact (read d present).lawful part inDocument

end Phrasebook
