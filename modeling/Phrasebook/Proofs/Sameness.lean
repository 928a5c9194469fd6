import Phrasebook.Document

/-!
Patterns that are the same. Layout leaves no trace in a pattern, so patterns are the same exactly if
they are equal; with that, whether a text is read as a given document can be decided.
-/

namespace Phrasebook
namespace Fluent

mutual

theorem Element.same_iff : ∀ a b : Element, a.same b = true ↔ a = b
  | .text _, b => by cases b <;> simp [Element.same]
  | .placeable a, b => by cases b <;> simp [Element.same, Expression.same_iff a]

theorem Expression.same_iff : ∀ a b : Expression, a.same b = true ↔ a = b
  | .inline o, b => by cases b <;> simp [Expression.same, Operand.same_iff o]
  | .select o vs, b => by
    cases b <;> simp [Expression.same, Operand.same_iff o, sameVariants_iff vs]

theorem Variant.same_iff : ∀ a b : Variant, a.same b = true ↔ a = b
  | .mk _ _ p, .mk _ _ _ => by simp [Variant.same, samePattern_iff p, and_assoc]

theorem Operand.same_iff : ∀ a b : Operand, a.same b = true ↔ a = b
  | .string _, b => by cases b <;> simp [Operand.same]
  | .number _, b => by cases b <;> simp [Operand.same]
  | .variable _, b => by cases b <;> simp [Operand.same]
  | .message _ _, b => by cases b <;> simp [Operand.same]
  -- A term with arguments is never the same as one without.
  | .term _ _ none, b => by
    rcases b with _ | _ | _ | _ | ⟨_, _, _ | _⟩ | _ | _ <;> simp [Operand.same]
  | .term _ _ (some args), b => by
    rcases b with _ | _ | _ | _ | ⟨_, _, _ | _⟩ | _ | _ <;>
      simp [Operand.same, Arguments.same_iff args, and_assoc]
  | .function _ args, b => by cases b <;> simp [Operand.same, Arguments.same_iff args]
  | .nested e, b => by cases b <;> simp [Operand.same, Expression.same_iff e]

theorem Arguments.same_iff : ∀ a b : Arguments, a.same b = true ↔ a = b
  | .mk os ns, .mk _ _ => by simp [Arguments.same, sameOperands_iff os, sameNamed_iff ns]

theorem NamedArgument.same_iff : ∀ a b : NamedArgument, a.same b = true ↔ a = b
  | .mk _ o, .mk _ _ => by simp [NamedArgument.same, Operand.same_iff o]

theorem samePattern_iff : ∀ p q : Pattern, samePattern p q = true ↔ p = q
  | [], q => by cases q <;> simp [samePattern]
  | e :: es, q => by cases q <;> simp [samePattern, Element.same_iff e, samePattern_iff es]

theorem sameVariants_iff : ∀ vs ws : List Variant, sameVariants vs ws = true ↔ vs = ws
  | [], ws => by cases ws <;> simp [sameVariants]
  | v :: vs, ws => by cases ws <;> simp [sameVariants, Variant.same_iff v, sameVariants_iff vs]

theorem sameOperands_iff : ∀ os us : List Operand, sameOperands os us = true ↔ os = us
  | [], us => by cases us <;> simp [sameOperands]
  | o :: os, us => by cases us <;> simp [sameOperands, Operand.same_iff o, sameOperands_iff os]

theorem sameNamed_iff : ∀ ns ms : List NamedArgument, sameNamed ns ms = true ↔ ns = ms
  | [], ms => by cases ms <;> simp [sameNamed]
  | n :: ns, ms => by cases ms <;> simp [sameNamed, NamedArgument.same_iff n, sameNamed_iff ns]

end

instance : DecidableEq Element := fun a b => decidable_of_iff _ (a.same_iff b)

deriving instance DecidableEq for Attribute, Entry

end Fluent

deriving instance DecidableEq for Document

end Phrasebook
