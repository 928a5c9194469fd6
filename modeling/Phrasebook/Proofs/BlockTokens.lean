import Mathlib.Data.List.TakeWhile
import Phrasebook.Proofs.LineScalars

/-!
The tokens of a block mapping. Two steps read a key with its colon and begin and end blocks by its
column, one step reads a value, and the tokens of a whole text are those of its entries in the order
in which they stand.
-/

namespace Phrasebook.Yaml

/-! ### The tokens of what is written -/

def Leaf.kind : Leaf → TokenKind
  | text s => .scalar .doubleQuoted s
  | truth t => .scalar .plain t.word

def Field.kinds (f : Field) : List TokenKind :=
  [.key, .scalar .plain f.key, .value, f.value.kind]

def Entry.kinds : Entry → List TokenKind
  | field f => f.kinds
  | group k fs =>
    [.key, .scalar .plain k, .value, .blockMappingStart] ++ (fs.flatMap Field.kinds ++ [.blockEnd])

namespace Lexer

variable {s s₁ s₂ : Lexer}

/-! ### Runs -/

/-- Some steps lead from one state to another, each of them past a character. -/
def Reaches (s s' : Lexer) : Prop :=
  ∃ n, n + s'.cursor.rest.length ≤ s.cursor.rest.length ∧
    ∀ fuel, TokenStream.run (fuel + n) s = TokenStream.run fuel s'

theorem Reaches.trans (first : s.Reaches s₁) (second : s₁.Reaches s₂) : s.Reaches s₂ := by
  obtain ⟨n₁, long₁, same₁⟩ := first
  obtain ⟨n₂, long₂, same₂⟩ := second
  refine ⟨n₂ + n₁, by omega, fun fuel => ?_⟩
  rw [← Nat.add_assoc, same₁, same₂]

theorem Reaches.of_step (going : s.isDone = false) (next : s.step = .ok s₁)
    (shorter : s₁.cursor.rest.length < s.cursor.rest.length) : s.Reaches s₁ := by
  refine ⟨1, by omega, fun fuel => ?_⟩
  rw [TokenStream.run, going, next]
  rfl

/-- No place of a key is open, and these blocks are; the tokens so far are of these kinds, the
latest first. -/
structure Free (s : Lexer) (indents : List Nat) (kinds : List TokenKind) : Prop where
  noKey : s.key? = none
  outside : s.outerKeys = []
  indents : s.indents = indents
  kinds : s.tokens.map Token.kind = kinds

theorem Free.isDone {indents : List Nat} {kinds : List TokenKind} (free : s.Free indents kinds)
    (going : kinds.head? ≠ some .streamEnd) : s.isDone = false := by
  rw [← free.kinds] at going
  unfold Lexer.isDone
  cases tokens : s.tokens with
  | nil => rfl
  | cons t ts =>
    rw [tokens] at going
    simpa using going

theorem dropOverdue_of_inTime (outside : s.outerKeys = [])
    (inTime : ∀ k ∈ s.key?, k.isOver s.cursor.mark = false) : s.dropOverdue = .ok s := by
  obtain ⟨cursor, tokens, indents, keyAllowed, key?, outerKeys⟩ := s
  obtain rfl : outerKeys = [] := outside
  cases key? with
  | none => rfl
  | some k =>
    have here : k.isOver cursor.mark = false := inTime k rfl
    simp [dropOverdue, here]

/-- One step, where it is known what is passed over before its token. -/
theorem step_eq {allowed : Bool} {c : Cursor} (outside : s.outerKeys = [])
    (next : passed s.keyAllowed s.cursor = (allowed, c))
    (inTime : ∀ k ∈ s.key?, k.isOver c.mark = false) :
    s.step =
      (match c.rest with
        | [] => ({ s with cursor := c, keyAllowed := allowed }.closeBlocks c.mark.column).atEnd
        | ch :: r =>
          ({ s with cursor := c, keyAllowed := allowed }.closeBlocks c.mark.column).tokenAt ch r)
        >>= dropOverdue := by
  have inBlock : s.inFlow = false := by rw [inFlow, outside]; rfl
  have current : ({ s with cursor := c, keyAllowed := allowed } : Lexer).dropOverdue =
      .ok { s with cursor := c, keyAllowed := allowed } := dropOverdue_of_inTime outside inTime
  rw [step, inBlock]
  rw [passed] at next
  rw [next]
  simp only [current]
  cases c.rest <;> rfl

/-! ### Blocks by their columns -/

/-- How a key at a column finds the open blocks: deeper ones end before it, and it begins a block
unless one of its column is open. The tokens for that come latest first. -/
inductive Turn (column : Nat) : List Nat → List TokenKind → List Nat → Prop where
  | same {kept : List Nat} : Turn column (column :: kept) [] (column :: kept)
  | opens {kept : List Nat} (deeper : ∀ i ∈ kept.head?, i < column) :
      Turn column kept [.blockMappingStart] (column :: kept)
  | closes {i : Nat} {indents is : List Nat} {ks : List TokenKind} (shallower : column < i)
      (turn : Turn column indents ks is) : Turn column (i :: indents) (ks ++ [.blockEnd]) is

theorem Turn.split {column : Nat} {indents is : List Nat} {ks : List TokenKind}
    (turn : Turn column indents ks is) :
    ∃ deeper kept, indents = deeper ++ kept ∧ (∀ i ∈ deeper, column < i) ∧
      (∀ i ∈ kept.head?, i ≤ column) ∧
      ((kept.head? = some column ∧ is = kept ∧ ks = List.replicate deeper.length .blockEnd) ∨
        ((∀ i ∈ kept.head?, i < column) ∧ is = column :: kept ∧
          ks = .blockMappingStart :: List.replicate deeper.length .blockEnd)) := by
  induction turn with
  | @same kept =>
    refine ⟨[], column :: kept, rfl, fun _ member => (List.not_mem_nil member).elim, ?_,
      .inl ⟨rfl, rfl, rfl⟩⟩
    rintro i ⟨⟩
    exact Nat.le_refl _
  | @opens kept deeper =>
    exact ⟨[], kept, rfl, fun _ member => (List.not_mem_nil member).elim,
      fun i head => Nat.le_of_lt (deeper i head), .inr ⟨deeper, rfl, rfl⟩⟩
  | @closes i indents is ks shallower _ ih =>
    obtain ⟨deeper, kept, rfl, inside, within, cases⟩ := ih
    refine ⟨i :: deeper, kept, rfl, List.forall_mem_cons.mpr ⟨shallower, inside⟩, within, ?_⟩
    rcases cases with ⟨head, rfl, rfl⟩ | ⟨outside, rfl, rfl⟩
    · exact .inl ⟨head, rfl, List.replicate_succ'.symm⟩
    · refine .inr ⟨outside, rfl, ?_⟩
      rw [List.cons_append, List.length_cons, List.replicate_succ']

theorem closeBlocks_append (column : Int) {deeper kept : List Nat} (outside : s.outerKeys = [])
    (blocks : s.indents = deeper ++ kept) (inside : ∀ i ∈ deeper, column < (i : Int))
    (within : ∀ i ∈ kept.head?, (i : Int) ≤ column) :
    s.closeBlocks column =
      { s with
        tokens := List.replicate deeper.length ⟨.blockEnd, s.cursor.mark, s.cursor.mark⟩ ++ s.tokens
        indents := kept } := by
  have ended : s.indents.takeWhile (fun i => decide (column < Int.ofNat i)) = deeper := by
    rw [blocks, List.takeWhile_append_of_pos (p := fun i => decide (column < Int.ofNat i))
      fun i member => decide_eq_true (inside i member)]
    cases kept with
    | nil => exact List.append_nil deeper
    | cons i kept =>
      have here : (i : Int) ≤ column := within i rfl
      simp [here]
  have inBlock : s.inFlow = false := by rw [inFlow, outside]; rfl
  rw [closeBlocks, inBlock]
  simp only [Bool.false_eq_true, if_false, ended, List.map_const']
  rw [blocks, List.drop_left]

theorem closeBlocks_of_le {column : Int} (outside : s.outerKeys = [])
    (within : ∀ i ∈ s.indents.head?, (i : Int) ≤ column) : s.closeBlocks column = s :=
  closeBlocks_append column outside (List.nil_append _).symm
    (fun _ member => (List.not_mem_nil member).elim) within

/-- One step, where its token stands at hand and no block ends before it. -/
theorem step_here {c : Char} {r : List Char} (outside : s.outerKeys = [])
    (rest : s.cursor.rest = c :: r) (solid : IsSolid (c :: r))
    (inTime : ∀ k ∈ s.key?, k.isOver s.cursor.mark = false)
    (within : ∀ i ∈ s.indents.head?, i ≤ s.cursor.mark.column) :
    s.step = s.tokenAt c r >>= dropOverdue := by
  have next : passed s.keyAllowed s.cursor = (s.keyAllowed, s.cursor) := by
    have same : passed s.keyAllowed ⟨c :: r, s.cursor.mark⟩ = _ := passed_solid solid
    rwa [← rest] at same
  have step := step_eq outside next inTime
  rw [show ({ s with cursor := s.cursor, keyAllowed := s.keyAllowed } : Lexer) = s from rfl,
    closeBlocks_of_le outside fun i head => Int.ofNat_le.mpr (within i head)] at step
  simpa only [rest] using step

/-! ### A key -/

theorem isIndicator_name {c : Char} (named : isNameChar c = true) : isIndicator c = false := by
  have none : ['-', '?', ':', ',', '[', ']', '{', '\x7d', '#', '&', '*', '!', '|', '>', '\'', '"',
      '%', '@', '\x60'].any isNameChar = false := by
    decide +kernel
  rw [isIndicator, Bool.eq_false_iff, ne_eq, List.contains_iff_mem]
  exact fun member => List.any_eq_false.mp none c member named

/-- A letter begins a plain scalar. -/
theorem tokenAt_name {c : Char} {r : List Char} (named : isNameChar c = true)
    (outside : s.outerKeys = []) (rest : s.cursor.rest = c :: r) : s.tokenAt c r = s.atPlain := by
  have other {d : Char} (h : isNameChar d = false) : c ≠ d := ne_of_isNameChar named h
  have inBlock : s.inFlow = false := by rw [inFlow, outside]; rfl
  have noDocument : s.cursor.atDocumentMark = false := by
    have noMark := atDocumentMark_name (y := r) named s.cursor.mark
    rwa [← rest] at noMark
  have begins : beginsPlain false (c :: r) = true := by
    rw [beginsPlain, isBlankOrEnd_name named, isIndicator_name named]
    rfl
  have apart : c ≠ '%' ∧ c ≠ '[' ∧ c ≠ '{' ∧ c ≠ ']' ∧ c ≠ '\x7d' ∧ c ≠ ',' ∧ c ≠ '-' ∧ c ≠ '?' ∧
      c ≠ ':' ∧ c ≠ '*' ∧ c ≠ '&' ∧ c ≠ '!' ∧ c ≠ '|' ∧ c ≠ '>' ∧ c ≠ '\'' ∧ c ≠ '"' := by
    refine ⟨?_, ?_, ?_, ?_, ?_, ?_, ?_, ?_, ?_, ?_, ?_, ?_, ?_, ?_, ?_, ?_⟩ <;>
      exact other (by decide +kernel)
  rw [tokenAt, inBlock, noDocument, begins]
  simp [apart]

theorem insert_append (front before : List Token) (tokens : s.tokens = front ++ before)
    (t : Token) :
    s.insert before.length t = { s with tokens := front ++ t :: before } := by
  have later : (front ++ before).length - before.length = front.length := by
    rw [List.length_append, Nat.add_sub_cancel]
  simp only [insert, tokens, later, List.take_left, List.drop_left]

/-- A key is read where one may begin, and its place is kept. -/
theorem atPlain_key {k : String} {w r : List Char} {m : Mark} (noKey : s.key? = none)
    (outside : s.outerKeys = []) (allowed : s.keyAllowed = true)
    (rest : s.cursor = ⟨w ++ ':' :: r, m⟩) (key : KeyText k w) (apart : isBlankOrEnd r = true) :
    s.atPlain = .ok { s with
      tokens := ⟨.scalar .plain k, m, m.right k.toList.length⟩ :: s.tokens
      cursor := ⟨':' :: r, m.right w.length⟩
      keyAllowed := false
      key? := some ⟨s.tokens.length, m, s.indent == m.column⟩ } := by
  obtain ⟨cursor, tokens, indents, keyAllowed, key?, outerKeys⟩ := s
  obtain rfl : outerKeys = [] := outside
  obtain rfl : key? = none := noKey
  obtain rfl : keyAllowed = true := allowed
  obtain rfl : cursor = _ := rest
  have word := plain_key key apart ((indents.head?.map Int.ofNat).getD (-1)) m
  change (plain false ((indents.head?.map Int.ofNat).getD (-1)) ⟨w ++ ':' :: r, m⟩ >>= _) = _
  rw [word]
  rfl

/-- The colon makes a key of the scalar before it, in the block of its column. -/
theorem atValue_key {m : Mark} {required : Bool} {t : Token} {before : List Token}
    (outside : s.outerKeys = []) (key : s.key? = some ⟨before.length, m, required⟩)
    (tokens : s.tokens = t :: before) :
    ∃ tokens', s.atValue = .ok { s with
        tokens := tokens'
        cursor := s.cursor.advance 1
        indents := if (m.column : Int) ≤ s.indent then s.indents else m.column :: s.indents
        keyAllowed := false
        key? := none } ∧
      tokens'.map Token.kind = .value :: t.kind :: .key ::
        ((if (m.column : Int) ≤ s.indent then [] else [.blockMappingStart]) ++
          before.map Token.kind) := by
  have inBlock : s.inFlow = false := by rw [inFlow, outside]; rfl
  have marked := insert_append [t] before tokens ⟨.key, m, m⟩
  rw [atValue, key]
  simp only [marked, openBlock]
  have sameIndent (ts : List Token) : ({ s with tokens := ts } : Lexer).indent = s.indent := rfl
  have sameFlow (ts : List Token) : ({ s with tokens := ts } : Lexer).inFlow = false := inBlock
  by_cases within : (m.column : Int) ≤ s.indent
  · refine ⟨⟨.value, s.cursor.mark, (s.cursor.advance 1).mark⟩ :: t :: ⟨.key, m, m⟩ :: before,
      ?_, ?_⟩
    · simp only [sameIndent, within, decide_true, Bool.or_true, if_true]
      rfl
    · simp only [within, if_true, List.map_cons, List.nil_append]
  · have opened := insert_append (s := { s with tokens := [t] ++ ⟨.key, m, m⟩ :: before })
      [t, ⟨.key, m, m⟩] before rfl ⟨.blockMappingStart, m, m⟩
    refine ⟨⟨.value, s.cursor.mark, (s.cursor.advance 1).mark⟩ :: t :: ⟨.key, m, m⟩ ::
      ⟨.blockMappingStart, m, m⟩ :: before, ?_, ?_⟩
    · simp only [sameIndent, sameFlow, within, decide_false, Bool.or_false, Bool.false_eq_true,
        if_false, opened]
      rfl
    · simp only [within, if_false, List.map_cons, List.cons_append, List.nil_append]

theorem isSolid_colon (r : List Char) : IsSolid (':' :: r) :=
  ⟨by rintro c ⟨⟩; exact ⟨rfl, rfl, nofun, nofun⟩⟩

theorem tokenAt_colon {r : List Char} (rest : s.cursor.rest = ':' :: r)
    (apart : isBlankOrEnd r = true) : s.tokenAt ':' r = s.atValue := by
  have noDocument : s.cursor.atDocumentMark = false := by
    simp [Cursor.atDocumentMark, rest]
  rw [tokenAt, noDocument, apart]
  simp

variable {indents is : List Nat} {kinds ks : List TokenKind} {k : String} {w r : List Char}
  {m : Mark}

/-- A key has been read up to its colon. -/
structure Named (s : Lexer) (indents : List Nat) (kinds : List TokenKind) (k : String)
    (w r : List Char) (m : Mark) (t : Token) (before : List Token) : Prop where
  key : ∃ required, s.key? = some ⟨before.length, m, required⟩
  outside : s.outerKeys = []
  indents : s.indents = indents
  tokens : s.tokens = t :: before
  kind : t.kind = .scalar .plain k
  kinds : before.map Token.kind = kinds
  cursor : s.cursor = ⟨':' :: r, m.right w.length⟩

theorem isOver_right (number : Nat) (required : Bool) (n : Nat) :
    (⟨number, m, required⟩ : KeyStart).isOver (m.right n) = decide (keyLengthLimit < n) := by
  simp [KeyStart.isOver, Mark.right]

theorem isOver_short {n : Nat} (short : n ≤ keyLengthLimit) (number : Nat) (required : Bool) :
    (⟨number, m, required⟩ : KeyStart).isOver (m.right n) = false := by
  rw [isOver_right]
  exact decide_eq_false (Nat.not_lt.mpr short)

/-- Where a token begins the deeper blocks have ended. -/
theorem Free.closeBlocks (free : s.Free indents kinds) {deeper kept : List Nat}
    (blocks : indents = deeper ++ kept) {column : Nat} (inside : ∀ i ∈ deeper, column < i)
    (within : ∀ i ∈ kept.head?, i ≤ column) (c : Cursor) (allowed : Bool) :
    ∃ t, ({ s with cursor := c, keyAllowed := allowed } : Lexer).closeBlocks column = t ∧
      t.Free kept (List.replicate deeper.length .blockEnd ++ kinds) ∧ t.cursor = c ∧
      t.keyAllowed = allowed := by
  have closed := closeBlocks_append (s := { s with cursor := c, keyAllowed := allowed }) column
    free.outside (free.indents.trans blocks)
    (fun i member => Int.ofNat_lt.mpr (inside i member))
    (fun i head => Int.ofNat_le.mpr (within i head))
  refine ⟨_, closed, ⟨free.noKey, free.outside, rfl, ?_⟩, rfl, rfl⟩
  rw [List.map_append, List.map_replicate, free.kinds]

/-- A token is read behind what is passed over, once the deeper blocks have ended. -/
theorem Free.reaches (free : s.Free indents kinds) (going : kinds.head? ≠ some .streamEnd)
    {allowed : Bool} {c : Cursor} (next : passed s.keyAllowed s.cursor = (allowed, c))
    {deeper kept : List Nat} (blocks : indents = deeper ++ kept)
    (inside : ∀ i ∈ deeper, c.mark.column < i) (within : ∀ i ∈ kept.head?, i ≤ c.mark.column)
    {ch : Char} {y : List Char} (rest : c.rest = ch :: y) :
    ∃ t : Lexer, t.Free kept (List.replicate deeper.length .blockEnd ++ kinds) ∧ t.cursor = c ∧
      t.keyAllowed = allowed ∧ ∀ s' : Lexer, t.tokenAt ch y = .ok s' → s'.outerKeys = [] →
        (∀ k ∈ s'.key?, k.isOver s'.cursor.mark = false) →
        s'.cursor.rest.length < c.rest.length → s.Reaches s' := by
  obtain ⟨t, closed, free', cursor, keyAllowed⟩ :=
    free.closeBlocks blocks inside within c allowed
  refine ⟨t, free', cursor, keyAllowed, fun s' token outside inTime shorter => ?_⟩
  have step := step_eq free.outside next (by rw [free.noKey]; nofun)
  rw [closed] at step
  simp only [rest] at step
  rw [token] at step
  have passedLength := rest_length_skipBetween_le (s.cursor.rest.length + 1) s.keyAllowed s.cursor
  rw [passed] at next
  rw [next] at passedLength
  exact .of_step (free.isDone going) (step.trans (dropOverdue_of_inTime outside inTime))
    (Nat.lt_of_lt_of_le shorter passedLength)

theorem reaches_name (free : s.Free indents kinds) (going : kinds.head? ≠ some .streamEnd)
    (next : passed s.keyAllowed s.cursor = (true, ⟨w ++ ':' :: r, m⟩)) (key : KeyText k w)
    (short : w.length ≤ keyLengthLimit) (apart : isBlankOrEnd r = true)
    {deeper kept : List Nat} (blocks : indents = deeper ++ kept)
    (inside : ∀ i ∈ deeper, m.column < i) (within : ∀ i ∈ kept.head?, i ≤ m.column) :
    ∃ s' t before, s.Reaches s' ∧
      s'.Named kept (List.replicate deeper.length .blockEnd ++ kinds) k w r m t before := by
  obtain ⟨c, v, rfl, first⟩ := key.exists_cons
  obtain ⟨t, free', cursor, allowed, reaches⟩ := free.reaches going next blocks inside within rfl
  have word := atPlain_key free'.noKey free'.outside allowed cursor key apart
  have token := tokenAt_name first free'.outside (by rw [cursor]; rfl)
  refine ⟨_, _, _, reaches _ (token.trans word) free'.outside ?_ ?_,
    ⟨_, rfl⟩, free'.outside, free'.indents, rfl, rfl, free'.kinds, rfl⟩
  · rintro _ ⟨⟩
    exact isOver_short short _ _
  · simp only [List.cons_append, List.length_cons, List.length_append]
    omega

/-- A colon after a key ends the search for it and begins a block where the key stands deeper than
the blocks around it. -/
theorem Named.reaches {kept : List Nat} {t : Token} {before : List Token}
    (named : s.Named kept kinds k w r m t before) (short : w.length ≤ keyLengthLimit)
    (apart : isBlankOrEnd r = true) (within : ∀ i ∈ kept.head?, i ≤ m.column) :
    ∃ s' : Lexer, s.Reaches s' ∧ s'.Free
      (if kept.head? = some m.column then kept else m.column :: kept)
      (.value :: .scalar .plain k :: .key ::
        ((if kept.head? = some m.column then [] else [.blockMappingStart]) ++ kinds)) ∧
      s'.keyAllowed = false ∧ s'.cursor.rest = r ∧ m.column < s'.cursor.mark.column := by
  obtain ⟨required, place⟩ := named.key
  have column : s.cursor.mark.column = m.column + w.length := by rw [named.cursor]; rfl
  have within' : ∀ i ∈ s.indents.head?, i ≤ s.cursor.mark.column := by
    intro i head
    have shallow := within i (named.indents ▸ head)
    omega
  have inTime : ∀ k ∈ s.key?, k.isOver s.cursor.mark = false := by
    rw [place, named.cursor]
    rintro _ ⟨⟩
    exact isOver_short short _ _
  -- The blocks that are left are no deeper than the key, so one within its reach has its column.
  have deeper : (m.column : Int) ≤ s.indent ↔ kept.head? = some m.column := by
    rw [indent, named.indents]
    cases blocks : kept.head? with
    | none =>
      simp only [Option.map_none, Option.getD_none, reduceCtorEq, iff_false]
      omega
    | some i =>
      have shallow := within i blocks
      simp only [Option.map_some, Option.getD_some, Option.some.injEq, Int.ofNat_eq_natCast]
      omega
  obtain ⟨tokens', value, kinds'⟩ := atValue_key named.outside place named.tokens
  simp only [deeper, named.indents, named.kinds, named.kind] at value kinds'
  have rest : s.cursor.rest = ':' :: r := by rw [named.cursor]
  have step := step_here named.outside rest (isSolid_colon r) inTime within'
  rw [tokenAt_colon rest apart, value] at step
  have going : s.isDone = false := by
    rw [isDone, named.tokens]
    simp [named.kind]
  have past : s.cursor.advance 1 = ⟨r, (m.right w.length).right 1⟩ := by
    rw [named.cursor]
    rfl
  refine ⟨_, .of_step going (step.trans (dropOverdue_of_inTime named.outside nofun)) ?_,
    ⟨rfl, named.outside, rfl, kinds'⟩, rfl, ?_, ?_⟩
  · simp only [past, rest, List.length_cons]
    omega
  · simp only [past]
  · simp only [past, Mark.right]
    omega

/-- A key with its colon is two steps. -/
theorem reaches_key (free : s.Free indents kinds) (going : kinds.head? ≠ some .streamEnd)
    (next : passed s.keyAllowed s.cursor = (true, ⟨w ++ ':' :: r, m⟩)) (key : KeyText k w)
    (short : w.length ≤ keyLengthLimit) (apart : isBlankOrEnd r = true)
    (turn : Turn m.column indents ks is) :
    ∃ s' : Lexer, s.Reaches s' ∧
      s'.Free is (.value :: .scalar .plain k :: .key :: (ks ++ kinds)) ∧ s'.keyAllowed = false ∧
      s'.cursor.rest = r ∧ m.column < s'.cursor.mark.column := by
  obtain ⟨deeper, kept, blocks, inside, within, found⟩ := turn.split
  obtain ⟨s₁, t, before, first, named⟩ :=
    reaches_name free going next key short apart blocks inside within
  obtain ⟨s₂, second, free₂, fresh, rest, right⟩ := named.reaches short apart within
  refine ⟨s₂, first.trans second, ?_, fresh, rest, right⟩
  rcases found with ⟨head, rfl, rfl⟩ | ⟨outside, rfl, rfl⟩
  · simpa only [head, if_true, List.nil_append] using free₂
  · have other : kept.head? ≠ some m.column := fun head => Nat.lt_irrefl _ (outside _ head)
    simpa only [other, if_false, List.cons_append, List.nil_append] using free₂

/-! ### A key that is too long -/

/-- The place of a key is given up when no colon comes in time. -/
theorem step_overlong (key : KeyText k w) (long : keyLengthLimit < w.length)
    (apart : isBlankOrEnd r = true) :
    ∃ t : Token, t.kind = .scalar .plain k ∧
      (Lexer.ofText (w ++ ':' :: r)).step =
        .ok ⟨⟨':' :: r, (⟨0, 0, 0⟩ : Mark).right w.length⟩, [t], [], false, none, []⟩ := by
  obtain ⟨c, v, rfl, first⟩ := key.exists_cons
  have step : (Lexer.ofText (c :: v ++ ':' :: r)).step = _ :=
    step_here rfl rfl (key.isSolid _) nofun nofun
  rw [tokenAt_name first rfl rfl, atPlain_key rfl rfl rfl rfl key apart] at step
  have late : (⟨0, ⟨0, 0, 0⟩, false⟩ : KeyStart).isOver
      ((⟨0, 0, 0⟩ : Mark).right (c :: v).length) = true := by
    rw [isOver_right]
    exact decide_eq_true long
  refine ⟨⟨.scalar .plain k, ⟨0, 0, 0⟩, (⟨0, 0, 0⟩ : Mark).right k.toList.length⟩, rfl,
    step.trans ?_⟩
  simpa [bind, Except.bind, dropOverdue, Lexer.ofText, Cursor.ofText, indent] using late

/-- A colon with no key before it on its line is not read. -/
theorem step_bareColon (outside : s.outerKeys = []) (noKey : s.key? = none)
    (fresh : s.keyAllowed = false) (rest : s.cursor.rest = ':' :: r) (apart : isBlankOrEnd r = true)
    (within : ∀ i ∈ s.indents.head?, i ≤ s.cursor.mark.column) : ∃ f, s.step = .error f := by
  have inBlock : s.inFlow = false := by rw [inFlow, outside]; rfl
  rw [step_here outside rest (isSolid_colon r) (by rw [noKey]; nofun) within,
    tokenAt_colon rest apart, atValue, noKey]
  simp only [inBlock, fresh]
  exact ⟨_, rfl⟩

/-! ### A value -/

theorem tokenAt_quote {y : List Char} (rest : s.cursor.rest = '"' :: y) :
    s.tokenAt '"' y = s.atQuoted false := by
  have noDocument : s.cursor.atDocumentMark = false := by
    simp [Cursor.atDocumentMark, rest]
  rw [tokenAt, noDocument]
  simp

theorem atQuoted_text {text y : List Char} (fresh : s.keyAllowed = false)
    (cursor : s.cursor = ⟨'"' :: (text ++ '"' :: y), m⟩)
    (fits : ∀ c ∈ text, isQuotable c = true) :
    s.atQuoted false = .ok { s with
      tokens :=
        ⟨.scalar .doubleQuoted (String.ofList text), m, m.right (text.length + 2)⟩ :: s.tokens
      cursor := ⟨y, m.right (text.length + 2)⟩
      keyAllowed := false } := by
  obtain ⟨_, tokens, indents, keyAllowed, key?, outerKeys⟩ := s
  obtain rfl : keyAllowed = false := fresh
  obtain rfl := cursor
  change (quoted false ⟨'"' :: (text ++ '"' :: y), m⟩ >>= _) = _
  rw [quoted_append fits y m]
  rfl

theorem atPlain_word {y : List Char} {column : Nat} (outside : s.outerKeys = [])
    (fresh : s.keyAllowed = false) (cursor : s.cursor = ⟨w ++ y, m⟩)
    (named : ∀ c ∈ w, isNameChar c = true) (nonempty : w ≠ [])
    (blocks : s.indents = column :: is) (lines : Lines (column + 1) y) :
    ∃ stop broken c, s.atPlain = .ok { s with
        tokens := ⟨.scalar .plain (String.ofList w), m, stop⟩ :: s.tokens
        cursor := c
        keyAllowed := broken } ∧
      passed broken c = passed false ⟨y, m.right w.length⟩ ∧ c.rest.length ≤ y.length := by
  obtain ⟨stop, broken, c, read, passes, shorter⟩ := plain_lines named nonempty lines m
  refine ⟨stop, broken, c, ?_, passes, shorter⟩
  obtain ⟨_, tokens, indents, keyAllowed, key?, outerKeys⟩ := s
  obtain rfl : keyAllowed = false := fresh
  obtain rfl := cursor
  obtain rfl := blocks
  obtain rfl : outerKeys = [] := outside
  change (plain false (column : Int) ⟨w ++ y, m⟩ >>= _) = _
  rw [read]
  rfl

/-- A value is one step, and what comes after it is passed over as it stands. -/
theorem reaches_leaf {l : Leaf} {ws : List Char} {column : Nat}
    (free : s.Free (column :: is) kinds) (going : kinds.head? ≠ some .streamEnd)
    (fresh : s.keyAllowed = false) (rest : s.cursor.rest = ws ++ (w ++ r))
    (blank : ∀ c ∈ ws, isSpaceOrTab c = true) (leaf : LeafText l w)
    (right : column < s.cursor.mark.column) (sequel : Sequel column r) :
    ∃ s' m', s.Reaches s' ∧ s'.Free (column :: is) (l.kind :: kinds) ∧
      passed s'.keyAllowed s'.cursor = passed false ⟨r, m'⟩ := by
  have next : passed s.keyAllowed s.cursor =
      (false, ⟨w ++ r, s.cursor.mark.right ws.length⟩) := by
    obtain ⟨cursor, _, _, keyAllowed, _, _⟩ := s
    obtain ⟨_, m⟩ := cursor
    obtain rfl : keyAllowed = false := fresh
    obtain rfl := rest
    rw [passed_blanks (isBlankFor_false blank) leaf.isSolid.noMark, passed_solid leaf.isSolid]
  have within : ∀ i ∈ (column :: is).head?, i ≤ (s.cursor.mark.right ws.length).column := by
    rintro i ⟨⟩
    simp only [Mark.right]
    omega
  have noneDeeper : ∀ i ∈ ([] : List Nat), (s.cursor.mark.right ws.length).column < i :=
    fun _ member => (List.not_mem_nil member).elim
  cases leaf with
  | @text text fits =>
    have here : '"' :: (text.toList ++ ['"']) ++ r = '"' :: (text.toList ++ '"' :: r) := by simp
    rw [here] at next
    obtain ⟨t, free', cursor, keyAllowed, reaches⟩ :=
      free.reaches going next (List.nil_append _).symm noneDeeper within rfl
    have read := (tokenAt_quote (by rw [cursor])).trans (atQuoted_text keyAllowed cursor fits)
    refine ⟨_, _, reaches _ read free'.outside ?_ ?_,
      ⟨free'.noKey, free'.outside, free'.indents, ?_⟩, rfl⟩
    · rw [free'.noKey]
      rintro _ ⟨⟩
    · simp
      omega
    · rw [List.map_cons, free'.kinds, String.ofList_toList]
      rfl
  | truth truth =>
    -- A plain word is tried further than it goes, so the place behind it is known only by what is
    -- passed over from there.
    obtain ⟨c, v, letters⟩ := List.exists_cons_of_ne_nil truth.isName.nonempty
    have first : isNameChar c = true := truth.isName.named c (letters ▸ List.mem_cons_self)
    have here : truth.word.toList ++ r = c :: (v ++ r) := by rw [letters, List.cons_append]
    obtain ⟨t, free', cursor, keyAllowed, reaches⟩ :=
      free.reaches going next (List.nil_append _).symm noneDeeper within here
    obtain ⟨stop, broken, c', read, passes, shorter⟩ := atPlain_word free'.outside keyAllowed
      cursor truth.isName.named truth.isName.nonempty free'.indents sequel.lines
    have token :=
      (tokenAt_name (r := v ++ r) first free'.outside (by rw [cursor, ← here])).trans read
    refine ⟨_, _, reaches _ token free'.outside ?_ ?_,
      ⟨free'.noKey, free'.outside, free'.indents, ?_⟩, passes⟩
    · rw [free'.noKey]
      rintro _ ⟨⟩
    · simp only [here, List.length_cons, List.length_append]
      omega
    · rw [List.map_cons, free'.kinds, String.ofList_toList]
      rfl

/-! ### Fields and groups -/

variable {column : Nat} {x t u v : List Char}

/-- The next token is at the beginning of `x`, at that column, where a key may stand. -/
def Before (s : Lexer) (column : Nat) (x : List Char) : Prop :=
  ∃ m : Mark, m.column = column ∧ passed s.keyAllowed s.cursor = (true, ⟨x, m⟩)

/-- What is passed over next is what is passed over at the beginning of `r`. -/
def Behind (s : Lexer) (r : List Char) : Prop :=
  ∃ m : Mark, passed s.keyAllowed s.cursor = passed false ⟨r, m⟩

theorem Behind.onward (behind : s.Behind v) (onward : Onward column u v) (solid : IsSolid u) :
    s.Before column u := by
  obtain ⟨m, same⟩ := behind
  obtain ⟨m', place, next⟩ := passed_onward_solid (m := m) onward solid
  exact ⟨m', place, same.trans next⟩

theorem Behind.of_fresh (fresh : s.keyAllowed = false) (rest : s.cursor.rest = r) : s.Behind r :=
  ⟨s.cursor.mark, by rw [fresh, ← rest]⟩

theorem reaches_field {f : Field} (free : s.Free indents kinds)
    (going : kinds.head? ≠ some .streamEnd) (before : s.Before column (t ++ r))
    (field : FieldText f t) (turn : Turn column indents ks (column :: is))
    (sequel : Sequel column r) :
    ∃ s' : Lexer, s.Reaches s' ∧ s'.Free (column :: is) (f.kinds.reverse ++ (ks ++ kinds)) ∧
      s'.Behind r := by
  obtain ⟨m, rfl, next⟩ := before
  obtain @⟨k, l, t, ws, w, key, short, blank, apart, value⟩ := field
  have blankNext : isBlankOrEnd (ws ++ (w ++ r)) = true := by
    obtain ⟨c, ws, rfl⟩ := List.exists_cons_of_ne_nil apart
    rw [List.cons_append, isBlankOrEnd, blank c List.mem_cons_self, Bool.true_or]
  simp only [List.append_assoc, List.cons_append] at next
  obtain ⟨s₁, first, free₁, fresh, rest, right⟩ :=
    reaches_key free going next key short blankNext turn
  obtain ⟨s₂, m', second, free₂, passes⟩ :=
    reaches_leaf free₁ (by simp) fresh rest blank value right sequel
  exact ⟨s₂, first.trans second, free₂, m', passes⟩

theorem going_field (f : Field) : (f.kinds.reverse ++ kinds).head? ≠ some .streamEnd := by
  obtain ⟨k, l⟩ := f
  cases l <;> simp [Field.kinds, Leaf.kind]

theorem going_fields (fs : List Field) (going : kinds.head? ≠ some .streamEnd) :
    ((fs.flatMap Field.kinds).reverse ++ kinds).head? ≠ some .streamEnd := by
  induction fs generalizing kinds with
  | nil => exact going
  | cons f fs ih => simpa using ih (going_field f)

theorem reaches_fields {fs : List Field} (fields : FieldsText column r fs u)
    (free : s.Free indents kinds) (going : kinds.head? ≠ some .streamEnd)
    (before : s.Before column u) (turn : Turn column indents ks (column :: is))
    (sequel : Sequel column r) :
    ∃ s' : Lexer, s.Reaches s' ∧
      s'.Free (column :: is) ((fs.flatMap Field.kinds).reverse ++ (ks ++ kinds)) ∧ s'.Behind r := by
  induction fields generalizing s indents ks kinds with
  | last field =>
    simpa using reaches_field free going before field turn sequel
  | more field onward fields ih =>
    obtain ⟨s₁, first, free₁, behind⟩ := reaches_field free going before field turn
      (.onward (Nat.le_refl _) fields.isSolid onward)
    obtain ⟨s₂, second, free₂, behind₂⟩ := ih free₁ (going_field _)
      (behind.onward onward fields.isSolid) .same
    refine ⟨s₂, first.trans second, ?_, behind₂⟩
    simpa using free₂

theorem Turn.closesAll {deeper : List Nat} (inside : ∀ i ∈ deeper, column < i) :
    Turn column (deeper ++ [column]) (List.replicate deeper.length .blockEnd) [column] := by
  induction deeper with
  | nil => exact .same
  | cons i deeper ih =>
    rw [List.length_cons, List.replicate_succ']
    exact .closes (inside i List.mem_cons_self) (ih fun j member => inside j (.tail _ member))

/-- The fields and groups so far make these tokens once the deeper blocks have ended. -/
def Owing (s : Lexer) (column : Nat) (kinds : List TokenKind) : Prop :=
  ∃ deeper kinds', s.Free (deeper ++ [column]) kinds' ∧ (∀ i ∈ deeper, column < i) ∧
    kinds'.head? ≠ some .streamEnd ∧ List.replicate deeper.length .blockEnd ++ kinds' = kinds

theorem reaches_entry {e : Entry} (entry : EntryText column r e t) (free : s.Free indents kinds)
    (going : kinds.head? ≠ some .streamEnd) (before : s.Before column t)
    (turn : Turn column indents ks [column]) (sequel : Sequel column r) :
    ∃ s' : Lexer, s.Reaches s' ∧ s'.Owing column (e.kinds.reverse ++ (ks ++ kinds)) ∧
      s'.Behind r := by
  cases entry with
  | @field f t field =>
    obtain ⟨s', run, free', behind⟩ := reaches_field free going before field turn sequel
    exact ⟨s', run, ⟨[], _, free', fun _ member => (List.not_mem_nil member).elim,
      going_field f, rfl⟩, behind⟩
  | @group k fs n t u v key short deeper onward fields =>
    obtain ⟨m, rfl, next⟩ := before
    obtain ⟨s₁, first, free₁, fresh, rest, right⟩ :=
      reaches_key free going next key short onward.isBlankOrEnd turn
    obtain ⟨s₂, second, free₂, behind⟩ := reaches_fields fields free₁ (by simp)
      ((Behind.of_fresh fresh rest).onward onward fields.isSolid)
      (.opens (by rintro i ⟨⟩; exact deeper)) (sequel.deeper (Nat.le_of_lt deeper))
    refine ⟨s₂, first.trans second, ⟨[n], _, free₂, ?_, ?_, ?_⟩, behind⟩
    · rintro i member
      rwa [List.mem_singleton.mp member]
    · exact going_fields fs (by simp)
    · simp [Entry.kinds]

theorem reaches_entries {es : List Entry} (entries : EntriesText column r es t)
    (free : s.Free indents kinds) (going : kinds.head? ≠ some .streamEnd)
    (before : s.Before column t) (turn : Turn column indents ks [column])
    (sequel : Sequel column r) :
    ∃ s' : Lexer, s.Reaches s' ∧
      s'.Owing column ((es.flatMap Entry.kinds).reverse ++ (ks ++ kinds)) ∧ s'.Behind r := by
  -- The block of a group is still open where its entry ends; the next key of the mapping closes it,
  -- so its end is owed until then.
  induction entries generalizing s indents ks kinds with
  | last entry => simpa using reaches_entry entry free going before turn sequel
  | more entry onward entries ih =>
    obtain ⟨s₁, first, ⟨deeper, kinds', free₁, inside, going₁, same⟩, behind⟩ :=
      reaches_entry entry free going before turn
        (.onward (Nat.le_refl _) entries.isSolid onward)
    obtain ⟨s₂, second, owing, behind₂⟩ := ih free₁ going₁
      (behind.onward onward entries.isSolid) (.closesAll inside)
    refine ⟨s₂, first.trans second, ?_, behind₂⟩
    rw [same] at owing
    simpa using owing

/-! ### The end -/

theorem reset_free (noKey : s.key? = none) (outside : s.outerKeys = []) :
    s.reset = .ok { s with
      tokens :=
        List.replicate s.indents.length ⟨.blockEnd, s.cursor.mark, s.cursor.mark⟩ ++ s.tokens
      indents := []
      keyAllowed := false } := by
  have closed :=
    closeBlocks_append (-1) outside (List.append_nil _).symm (fun i _ => by omega) nofun
  rw [reset, closed, dropKey]
  simp only [noKey]
  rfl

theorem atEnd_free (free : s.Free indents kinds) :
    ∃ s' : Lexer, s.atEnd = .ok s' ∧ s'.key? = none ∧ s'.outerKeys = [] ∧
      s'.tokens.map Token.kind =
        .streamEnd :: (List.replicate indents.length .blockEnd ++ kinds) := by
  have atLineStart (m : Mark) :=
    reset_free (s := { s with cursor := ⟨[], m⟩ }) free.noKey free.outside
  rw [atEnd]
  simp only [atLineStart]
  refine ⟨_, rfl, free.noKey, free.outside, ?_⟩
  simp only [Lexer.take, List.map_cons, List.map_append, List.map_replicate, free.kinds,
    free.indents]

/-- At the end all blocks end. -/
theorem Owing.finish (owing : s.Owing column kinds) (behind : s.Behind r) (closing : Closing r) :
    ∃ ts, (∀ fuel, TokenStream.run (fuel + 1) s = ⟨ts, none⟩) ∧
      ts.map Token.kind = kinds.reverse ++ [.blockEnd, .streamEnd] := by
  obtain ⟨deeper, kinds', free, inside, going, same⟩ := owing
  obtain ⟨m, passes⟩ := behind
  obtain ⟨allowed, m', ends⟩ := passed_closing (m := m) closing
  have next := passes.trans ends
  have split := List.takeWhile_append_dropWhile (p := fun i => decide (m'.column < i))
    (l := deeper ++ [column])
  have within : ∀ i ∈ ((deeper ++ [column]).dropWhile fun i => decide (m'.column < i)).head?,
      i ≤ m'.column := by
    intro i head
    have stop := List.head?_dropWhile_not (fun i => decide (m'.column < i)) (deeper ++ [column])
    rw [Option.mem_def.mp head] at stop
    simpa using stop
  obtain ⟨t, closed, free', -, -⟩ := free.closeBlocks split.symm
    (fun i member => by simpa using List.mem_takeWhile_imp member) within ⟨[], m'⟩ allowed
  obtain ⟨s', last, noKey, outside, ended⟩ := atEnd_free free'
  have step := step_eq free.outside next (by rw [free.noKey]; nofun)
  rw [closed] at step
  simp only at step
  rw [last] at step
  have step' := step.trans (dropOverdue_of_inTime outside (by rw [noKey]; nofun))
  have done : s'.isDone = true := by
    cases tokens : s'.tokens with
    | nil => simp [tokens] at ended
    | cons t ts =>
      rw [tokens, List.map_cons] at ended
      rw [isDone, tokens]
      simp [(List.cons.inj ended).1]
  have blocks := congrArg List.length split
  rw [List.length_append, List.length_append, List.length_singleton] at blocks
  refine ⟨s'.tokens.reverse, fun fuel => ?_, ?_⟩
  · rw [TokenStream.run, free.isDone going, step']
    cases fuel with
    | zero => rfl
    | succ fuel => simp [TokenStream.run, done]
  · rw [List.map_reverse, ended, ← List.append_assoc, List.replicate_append_replicate,
      Nat.add_comm, blocks, List.replicate_succ, List.cons_append, same]
    simp

end Lexer

/-- Before a key that is too long nothing is settled but a scalar. -/
theorem KeyText.tokens_overlong {k : String} {w r : List Char} (key : KeyText k w)
    (long : keyLengthLimit < w.length) (apart : isBlankOrEnd r = true) (clean : Clean r) :
    ∃ t f, TokenStream.ofText (w ++ ':' :: r) = ⟨[t], some f⟩ ∧ t.kind = .scalar .plain k := by
  have clean' : Clean (w ++ ':' :: r) :=
    clean_append.mpr ⟨key.clean, clean_cons.mpr ⟨rfl, clean⟩⟩
  have allowed := forbidden?_eq_none clean'
  obtain ⟨t, kind, first⟩ := Lexer.step_overlong key long apart
  obtain ⟨f, second⟩ := Lexer.step_bareColon
    (s := ⟨⟨':' :: r, (⟨0, 0, 0⟩ : Mark).right w.length⟩, [t], [], false, none, []⟩) rfl rfl rfl rfl
    apart nofun
  have start : (Lexer.ofText (w ++ ':' :: r)).isDone = false := rfl
  have going : Lexer.isDone
      ⟨⟨':' :: r, (⟨0, 0, 0⟩ : Mark).right w.length⟩, [t], [], false, none, []⟩ = false := by
    simp [Lexer.isDone, kind]
  have fuel : (w ++ ':' :: r).length + 1 = w.length + r.length + 1 + 1 := by simp; omega
  refine ⟨t, f, ?_, kind⟩
  rw [TokenStream.ofText, allowed]
  simp only
  rw [fuel, TokenStream.run, start, first]
  simp only [Bool.false_eq_true, if_false]
  rw [TokenStream.run, going, second]
  rfl

/-- The tokens of a text are those of its entries in one block. -/
theorem PageText.tokens {es : List Entry} {cs : List Char} (page : PageText es cs) :
    ∃ ts, TokenStream.ofText cs = ⟨ts, none⟩ ∧
      ts.map Token.kind =
        .blockMappingStart :: (es.flatMap Entry.kinds ++ [.blockEnd, .streamEnd]) := by
  have clean := forbidden?_eq_none page.clean
  obtain ⟨below, entries, closing⟩ := page
  obtain ⟨m, column, next⟩ := passed_below_solid (m := ⟨0, 0, 0⟩) below entries.isSolid rfl
  have free : (Lexer.ofText cs).Free [] [] := ⟨rfl, rfl, rfl, rfl⟩
  obtain ⟨s, ⟨n, long, same⟩, owing, behind⟩ := Lexer.reaches_entries entries free nofun
    ⟨m, column, next⟩ (.opens nofun) (.closing closing)
  obtain ⟨ts, ends, kinds⟩ := owing.finish behind closing
  have length : n ≤ cs.length := Nat.le_of_add_right_le long
  refine ⟨ts, ?_, by simpa using kinds⟩
  have fuel : cs.length + 1 = cs.length - n + 1 + n := by omega
  rw [TokenStream.ofText, clean]
  simp only
  rw [fuel, same, ends]

end Phrasebook.Yaml
