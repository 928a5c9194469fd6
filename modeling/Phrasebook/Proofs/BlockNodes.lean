import Mathlib.Data.List.Forall2
import Phrasebook.Proofs.BlockTokens

/-!
The tree of a block mapping: its entries in the order of the text, each key a plain scalar and each
value what is written for it.
-/

namespace Phrasebook.Yaml

/-! ### Nodes of what is written -/

def Leaf.scalar : Leaf → Scalar
  | text s => ⟨.doubleQuoted, none, s⟩
  | truth t => ⟨.plain, none, t.word⟩

/-- The node is that scalar, wherever it stands. -/
def Scalar.At (s : Scalar) (n : Node) : Prop := ∃ h, n = .scalar h s

/-- The node is that key, in whatever style it is written. -/
def KeyAt (k : String) (n : Node) : Prop := ∃ style, (⟨style, none, k⟩ : Scalar).At n

def Field.At (f : Field) (p : Node × Node) : Prop := KeyAt f.key p.1 ∧ f.value.scalar.At p.2

/-- The value of an entry. -/
inductive Entry.ValueAt : Entry → Node → Prop where
  | field {f : Field} {n : Node} (leaf : f.value.scalar.At n) : (Entry.field f).ValueAt n
  | group {k : String} {fs : List Field} {h : Head} {entries : List (Node × Node)}
      (fields : List.Forall₂ Field.At fs entries) : (Entry.group k fs).ValueAt (.mapping h entries)

def Entry.At (e : Entry) (p : Node × Node) : Prop := KeyAt e.key p.1 ∧ e.ValueAt p.2

/-- A document that is a mapping of these entries and nothing else. -/
def Document.Lists (d : Document) (es : List Entry) : Prop :=
  ∃ h entries, d = ⟨some (.mapping h entries), none, false⟩ ∧ List.Forall₂ Entry.At es entries

/-- The tokens of the value of an entry. -/
def Entry.valueKinds : Entry → List TokenKind
  | field f => [f.value.kind]
  | group _ fs => .blockMappingStart :: (fs.flatMap Field.kinds ++ [.blockEnd])

namespace Reader

variable {r : Reader} {kind : TokenKind} {rest : List TokenKind}

/-! ### Single tokens -/

theorem peek_of_kinds (kinds : r.tokens.map Token.kind = kind :: rest) :
    ∃ t, r.peek = .ok t ∧ t.kind = kind ∧ r.skip.tokens.map Token.kind = rest := by
  cases tokens : r.tokens with
  | nil => rw [tokens] at kinds; cases kinds
  | cons t ts =>
    rw [tokens, List.map_cons] at kinds
    obtain ⟨same, more⟩ := List.cons.inj kinds
    refine ⟨t, by rw [peek, tokens], same, ?_⟩
    rw [skip, tokens]
    exact more

theorem opening_plain {t : Token} (next : r.peek = .ok t)
    (bare : (∀ name, t.kind ≠ .anchor name) ∧ ∀ handle suffix, t.kind ≠ .tag handle suffix) :
    r.opening = .ok (⟨⟨t.start, none⟩, none, t⟩, r) := by
  have none : r.properties = .ok (⟨t.start, none, none⟩, r) := by
    rw [properties, next]
    simp only [bind, Except.bind]
    split
    · next name same => exact absurd same (bare.1 name)
    · next handle suffix same => exact absurd same (bare.2 handle suffix)
    · rfl
  rw [opening, none]
  simp only [bind, Except.bind, next]
  rfl

theorem node_scalar {style : Style} {text : String}
    (kinds : r.tokens.map Token.kind = .scalar style text :: rest) (loose : Bool) (fuel : Nat) :
    ∃ n, node true loose (fuel + 2) r = (n, .ok r.skip) ∧ (⟨style, none, text⟩ : Scalar).At n ∧
      r.skip.tokens.map Token.kind = rest := by
  obtain ⟨t, next, kind, more⟩ := peek_of_kinds kinds
  have opened := opening_plain next ⟨by simp [kind], by simp [kind]⟩
  refine ⟨.scalar ⟨t.start, none⟩ ⟨style, none, text⟩, ?_, ⟨_, rfl⟩, more⟩
  rw [node, next]
  simp only [kind, opened]
  rw [content.eq_def]
  simp [kind]

theorem node_leaf {l : Leaf} (kinds : r.tokens.map Token.kind = l.kind :: rest) (loose : Bool)
    (fuel : Nat) :
    ∃ n, node true loose (fuel + 2) r = (n, .ok r.skip) ∧ l.scalar.At n ∧
      r.skip.tokens.map Token.kind = rest := by
  cases l with
  | text s => exact node_scalar kinds loose fuel
  | truth t => exact node_scalar kinds loose fuel

theorem node_mapping (kinds : r.tokens.map Token.kind = .blockMappingStart :: rest) (loose : Bool)
    (fuel : Nat) :
    ∃ start, node true loose (fuel + 2) r =
      (.mapping ⟨start, none⟩ (blockEntries start fuel r.skip).1,
        (blockEntries start fuel r.skip).2) := by
  obtain ⟨t, next, kind, -⟩ := peek_of_kinds kinds
  have opened := opening_plain next ⟨by simp [kind], by simp [kind]⟩
  refine ⟨t.start, ?_⟩
  rw [node, next]
  simp only [kind, opened]
  rw [content.eq_def]
  simp [kind]

/-! ### Entries -/

/-- What ends a slot in a mapping. -/
abbrev slotEnds : List TokenKind := [.key, .value, .blockEnd]

theorem begins_leaf (l : Leaf) : slotEnds.contains l.kind = false := by
  cases l <;> rfl

theorem blockSlot_node (kinds : r.tokens.map Token.kind = kind :: rest)
    (begins : slotEnds.contains kind = false) (mark : Mark) (fuel : Nat) :
    blockSlot true slotEnds mark (fuel + 1) r = node true true fuel r := by
  obtain ⟨t, next, same, -⟩ := peek_of_kinds kinds
  rw [blockSlot, next]
  simp only [same, begins, Bool.false_eq_true, if_false]

theorem blockValue_value (kinds : r.tokens.map Token.kind = .value :: kind :: rest)
    (begins : slotEnds.contains kind = false) (fuel : Nat) :
    blockValue (fuel + 2) r = node true true fuel r.skip := by
  obtain ⟨t, next, same, more⟩ := peek_of_kinds kinds
  rw [blockValue, next]
  simp only [same]
  exact blockSlot_node more begins _ fuel

theorem skip_kinds (kinds : r.tokens.map Token.kind = kind :: rest) :
    r.skip.tokens.map Token.kind = rest := by
  obtain ⟨_, -, -, more⟩ := peek_of_kinds kinds
  exact more

/-- An entry of a mapping is read, and then the entries after it. -/
theorem blockEntries_key (start : Mark) {fuel : Nat} {k : String} {v : Node} {r' : Reader}
    (kinds : r.tokens.map Token.kind = .key :: .scalar .plain k :: .value :: kind :: rest)
    (begins : slotEnds.contains kind = false)
    (value : node true true (fuel + 1) r.skip.skip.skip = (v, .ok r')) :
    ∃ n, KeyAt k n ∧ blockEntries start (fuel + 4) r =
      ((n, v) :: (blockEntries start (fuel + 3) r').1, (blockEntries start (fuel + 3) r').2) := by
  obtain ⟨t, next, same, more⟩ := peek_of_kinds kinds
  have key := blockSlot_node more rfl t.stop (fuel + 2)
  obtain ⟨n, read, place, more'⟩ := node_scalar more true fuel
  have colon := blockValue_value more' begins (fuel + 1)
  refine ⟨n, ⟨_, place⟩, ?_⟩
  rw [blockEntries, next]
  simp only [same]
  rw [key, read]
  simp only [Reading.withValue, Reading.andThen, colon, value]

/-- Fields are read up to the end of their block. -/
theorem blockEntries_fields (start : Mark) (fs : List Field) {fuel : Nat}
    (kinds : r.tokens.map Token.kind = fs.flatMap Field.kinds ++ .blockEnd :: rest)
    (enough : fs.length + 4 ≤ fuel) :
    ∃ entries r', blockEntries start fuel r = (entries, .ok r') ∧
      List.Forall₂ Field.At fs entries ∧ r'.tokens.map Token.kind = rest := by
  induction fs generalizing fuel r with
  | nil =>
    obtain ⟨fuel, rfl⟩ := Nat.exists_eq_add_of_le' (Nat.le_of_add_left_le enough)
    obtain ⟨t, next, same, more⟩ := peek_of_kinds kinds
    refine ⟨[], r.skip, ?_, .nil, more⟩
    rw [blockEntries, next]
    simp only [same]
  | cons f fs ih =>
    obtain ⟨fuel, rfl⟩ := Nat.exists_eq_add_of_le' (Nat.le_trans (by simp) enough : 5 ≤ fuel)
    simp only [List.flatMap_cons, Field.kinds, List.cons_append, List.nil_append] at kinds
    have enough' : fs.length + 4 ≤ fuel + 4 := by
      rw [List.length_cons] at enough
      omega
    obtain ⟨v, value, place, more⟩ :=
      node_leaf (skip_kinds (skip_kinds (skip_kinds kinds))) true fuel
    obtain ⟨n, key, read⟩ := blockEntries_key start kinds (begins_leaf _) value
    obtain ⟨entries, r', others, shown, stop⟩ := ih more enough'
    refine ⟨(n, v) :: entries, r', ?_, .cons ⟨key, place⟩ shown, stop⟩
    rw [read, others]

theorem kinds_entry (e : Entry) :
    e.kinds = .key :: .scalar .plain e.key :: .value :: e.valueKinds := by
  cases e <;> rfl

theorem length_flatMap_kinds (fs : List Field) :
    (fs.flatMap Field.kinds).length = 4 * fs.length := by
  induction fs with
  | nil => rfl
  | cons f fs ih =>
    rw [List.flatMap_cons, List.length_append, ih, List.length_cons, Field.kinds]
    simp only [List.length_cons, List.length_nil]
    omega

theorem begins_entry (e : Entry) :
    ∃ kind ks, e.valueKinds = kind :: ks ∧ slotEnds.contains kind = false := by
  cases e with
  | field f => exact ⟨_, [], rfl, begins_leaf _⟩
  | group k fs => exact ⟨_, _, rfl, rfl⟩

theorem node_entry {e : Entry} {fuel : Nat} (kinds : r.tokens.map Token.kind = e.valueKinds ++ rest)
    (enough : e.valueKinds.length + 4 ≤ fuel) :
    ∃ n r', node true true fuel r = (n, .ok r') ∧ e.ValueAt n ∧
      r'.tokens.map Token.kind = rest := by
  obtain ⟨fuel, rfl⟩ := Nat.exists_eq_add_of_le' (Nat.le_trans (by simp) enough : 2 ≤ fuel)
  cases e with
  | field f =>
    obtain ⟨n, read, place, more⟩ := node_leaf kinds true fuel
    exact ⟨n, _, read, .field place, more⟩
  | group k fs =>
    simp only [Entry.valueKinds, List.cons_append, List.append_assoc, List.nil_append] at kinds
    rw [Entry.valueKinds, List.length_cons, List.length_append, length_flatMap_kinds,
      List.length_singleton] at enough
    have enough' : fs.length + 4 ≤ fuel := by omega
    obtain ⟨start, read⟩ := node_mapping kinds true fuel
    obtain ⟨entries, r', inner, shown, more⟩ :=
      blockEntries_fields start fs (skip_kinds kinds) enough'
    rw [inner] at read
    exact ⟨_, r', read, .group shown, more⟩

theorem blockEntries_entries (start : Mark) {es : List Entry} {fuel : Nat}
    (kinds : r.tokens.map Token.kind = es.flatMap Entry.kinds ++ .blockEnd :: rest)
    (enough : (es.flatMap Entry.kinds).length + 4 ≤ fuel) :
    ∃ entries r', blockEntries start fuel r = (entries, .ok r') ∧
      List.Forall₂ Entry.At es entries ∧ r'.tokens.map Token.kind = rest := by
  induction es generalizing fuel r with
  | nil =>
    obtain ⟨entries, r', read, shown, stop⟩ := blockEntries_fields start [] kinds enough
    cases shown
    exact ⟨[], r', read, .nil, stop⟩
  | cons e es ih =>
    rw [List.flatMap_cons, List.append_assoc, kinds_entry] at kinds
    rw [List.flatMap_cons, List.length_append, kinds_entry] at enough
    obtain ⟨fuel, rfl⟩ := Nat.exists_eq_add_of_le' (Nat.le_trans (by simp) enough : 4 ≤ fuel)
    simp only [List.length_cons] at enough
    have enoughHere : e.valueKinds.length + 4 ≤ fuel + 1 := by omega
    have enoughBelow : (es.flatMap Entry.kinds).length + 4 ≤ fuel + 3 := by omega
    obtain ⟨v, r₁, value, place, more⟩ :=
      node_entry (skip_kinds (skip_kinds (skip_kinds kinds))) enoughHere
    obtain ⟨kind, ks, same, begins⟩ := begins_entry e
    rw [same] at kinds
    obtain ⟨n, key, read⟩ := blockEntries_key start kinds begins value
    obtain ⟨entries, r', others, shown, stop⟩ := ih more enoughBelow
    refine ⟨(n, v) :: entries, r', ?_, .cons ⟨key, place⟩ shown, stop⟩
    rw [read, others]

theorem rootNode_entries {es : List Entry}
    (kinds : r.tokens.map Token.kind =
      .blockMappingStart :: (es.flatMap Entry.kinds ++ .blockEnd :: rest)) :
    ∃ m entries r', r.rootNode = (.mapping ⟨m, none⟩ entries, .ok r') ∧
      List.Forall₂ Entry.At es entries ∧ r'.tokens.map Token.kind = rest := by
  have size := congrArg List.length kinds
  rw [List.length_map, List.length_cons, List.length_append] at size
  have enough : (es.flatMap Entry.kinds).length + 4 ≤ 8 * r.tokens.length + 6 := by omega
  obtain ⟨start, read⟩ := node_mapping kinds false (8 * r.tokens.length + 6)
  obtain ⟨entries, r', inner, shown, more⟩ := blockEntries_entries start (skip_kinds kinds) enough
  rw [inner] at read
  exact ⟨start, entries, r', read, shown, more⟩

end Reader

namespace Document

variable {r : Reader}

theorem ofRoot_last {n : Node} (kinds : r.tokens.map Token.kind = [.streamEnd]) :
    ofRoot (n, .ok r) = ⟨some n, none, false⟩ := by
  obtain ⟨t, next, -, -⟩ := Reader.peek_of_kinds kinds
  obtain ⟨u, tokens, kind⟩ := List.map_eq_singleton_iff.mp kinds
  have last : hasMore r = false := by
    rw [hasMore, tokens]
    simp [kind]
  rw [ofRoot, next, last]

/-- A document that begins with a block mapping has no head of its own. -/
theorem ofTokens_mapping {ts : List Token} {kinds : List TokenKind}
    (begins : ts.map Token.kind = .blockMappingStart :: kinds) :
    ofTokens ⟨ts, none⟩ =
      ofRoot (Reader.rootNode ⟨ts, TokenStream.after ⟨ts, none⟩, Reader.usualHandles, []⟩) := by
  obtain ⟨t, next, kind, -⟩ := Reader.peek_of_kinds
    (r := ⟨ts, TokenStream.after ⟨ts, none⟩, Reader.usualHandles, []⟩) begins
  have bare : Reader.beginsDocument t = false := by
    simp [Reader.beginsDocument, Reader.isDirective, kind]
  rw [ofTokens]
  simp only [next, kind, bare]
  simp

/-- Where only a scalar is settled, it is the root, and what is wrong comes after it. -/
theorem ofTokens_scalar {t : Token} {f : Fault} {text : String}
    (begins : t.kind = .scalar .plain text) :
    ∃ n, ofTokens ⟨[t], some f⟩ = ⟨some n, some f, false⟩ ∧
      (⟨.plain, none, text⟩ : Scalar).At n := by
  have kinds : [t].map Token.kind = [.scalar .plain text] := by rw [List.map_singleton, begins]
  obtain ⟨n, read, place, -⟩ := Reader.node_scalar
    (r := ⟨[t], .error f, Reader.usualHandles, []⟩) kinds false 14
  have bare : Reader.beginsDocument t = false := by
    simp [Reader.beginsDocument, Reader.isDirective, begins]
  have root : Reader.rootNode ⟨[t], .error f, Reader.usualHandles, []⟩ =
      (n, .ok ⟨[], .error f, Reader.usualHandles, []⟩) := read
  have content : t.kind ≠ .streamEnd := by
    rw [begins]
    exact nofun
  refine ⟨n, ?_, place⟩
  rw [ofTokens]
  simp only [Reader.peek, bare, content, TokenStream.after, Bool.false_eq_true, if_false, root]
  rfl

end Document

theorem PageText.lists {es : List Entry} {text : String} (page : PageText es text.toList) :
    (Document.ofText text).Lists es := by
  obtain ⟨ts, tokens, kinds⟩ := page.tokens
  obtain ⟨m, entries, r', read, shown, last⟩ := Reader.rootNode_entries
    (r := ⟨ts, TokenStream.after ⟨ts, none⟩, Reader.usualHandles, []⟩) kinds
  refine ⟨⟨m, none⟩, entries, ?_, shown⟩
  rw [Document.ofText, tokens, Document.ofTokens_mapping kinds, read, Document.ofRoot_last last]

end Phrasebook.Yaml
