import Phrasebook.Proofs.Layout

/-!
What stands between the tokens of a block mapping is passed over, and the gap after a plain word is
read as far as the word might go on: what is left leads to the same next token as the gap itself.
-/

namespace Phrasebook.Yaml

/-! ### Moving on -/

/-- A place further right on the line. -/
def Mark.right (m : Mark) (n : Nat) : Mark :=
  { m with index := m.index + n, column := m.column + n }

@[simp] theorem Mark.right_zero (m : Mark) : m.right 0 = m := rfl

theorem Mark.right_right (m : Mark) (n k : Nat) : (m.right n).right k = m.right (n + k) := by
  simp only [right, Nat.add_assoc]

theorem Mark.right_succ (m : Mark) (n : Nat) : (m.right 1).right n = m.right (n + 1) := by
  rw [right_right, Nat.add_comm]

/-- The start of the next line, after a break of so many characters. -/
def Mark.nextLine (m : Mark) (n : Nat) : Mark := ⟨m.index + n, m.line + 1, 0⟩

theorem Cursor.lineBreak_append {b : List Char} (ends : LineEnd b) (r : List Char) (m : Mark) :
    (⟨b ++ r, m⟩ : Cursor).lineBreak = (['\n'], ⟨r, m.nextLine b.length⟩) := by
  cases ends with
  | lf => rfl
  | crlf => rfl

theorem LineEnd.isBreak_head {b : List Char} (ends : LineEnd b) (r : List Char) :
    ∀ c ∈ (b ++ r).head?, isBreak c = true := by
  cases ends <;> rintro c ⟨⟩ <;> rfl

theorem Cursor.advance_append (ws x : List Char) (m : Mark) :
    (⟨ws ++ x, m⟩ : Cursor).advance ws.length = ⟨x, m.right ws.length⟩ := by
  simp only [advance, List.drop_left, Mark.right]

theorem Cursor.skipWhile_append {p : Char → Bool} {ws x : List Char} (m : Mark)
    (inside : ∀ c ∈ ws, p c = true) (boundary : ∀ c ∈ x.head?, p c = false) :
    (⟨ws ++ x, m⟩ : Cursor).skipWhile p = ⟨x, m.right ws.length⟩ := by
  rw [skipWhile, List.takeWhile_append_of_pos inside]
  have stop : x.takeWhile p = [] := by
    cases x with
    | nil => rfl
    | cons c x => simp [boundary c rfl]
  rw [stop, List.append_nil]
  exact advance_append ws x m

theorem Cursor.rest_length_skipWhile_le (c : Cursor) (p : Char → Bool) :
    (c.skipWhile p).rest.length ≤ c.rest.length := by
  simp only [skipWhile, advance, List.length_drop]
  omega

theorem Cursor.rest_length_skipLineBreak_lt {c : Cursor} {ch : Char} {r : List Char}
    (rest : c.rest = ch :: r) (isBreak : isBreak ch = true) :
    c.skipLineBreak.rest.length < c.rest.length := by
  rw [skipLineBreak, lineBreak, rest]
  split
  · next same =>
    rw [same, List.length_cons, List.length_cons]
    exact Nat.lt_succ_of_lt (Nat.lt_succ_self _)
  · next same =>
    obtain ⟨rfl, rfl⟩ := List.cons.inj same
    rw [isBreak, if_pos rfl, List.length_cons]
    split <;> exact Nat.lt_succ_self _
  · next same => cases same

open Lexer

/-! ### Between tokens -/

/-- Past blanks and a comment. -/
def pastBlanks (allowed : Bool) (c : Cursor) : Cursor :=
  let c := if c.mark.index = 0 && c.rest.head? == some byteOrderMark then c.advance 1 else c
  let c := c.skipWhile fun ch => ch == ' ' || (ch == '\t' && (false || !allowed))
  match c.rest with
  | '#' :: _ => c.skipWhile (!isBreak ·)
  | _ => c

theorem rest_length_pastBlanks_le (allowed : Bool) (c : Cursor) :
    (pastBlanks allowed c).rest.length ≤ c.rest.length := by
  have first (d : Cursor) : (if d.mark.index = 0 && d.rest.head? == some byteOrderMark
      then d.advance 1 else d).rest.length ≤ d.rest.length := by
    split
    · simp [Cursor.advance]
    · exact Nat.le_refl _
  simp only [pastBlanks]
  split
  · exact Nat.le_trans (Cursor.rest_length_skipWhile_le _ _)
      (Nat.le_trans (Cursor.rest_length_skipWhile_le _ _) (first c))
  · exact Nat.le_trans (Cursor.rest_length_skipWhile_le _ _) (first c)

theorem skipBetween_succ (fuel : Nat) (allowed : Bool) (c : Cursor) :
    skipBetween false (fuel + 1) allowed c =
      match (pastBlanks allowed c).rest with
      | ch :: _ =>
        if isBreak ch then skipBetween false fuel true (pastBlanks allowed c).skipLineBreak
        else (allowed, pastBlanks allowed c)
      | [] => (allowed, pastBlanks allowed c) := by
  rw [skipBetween, Bool.not_false, Bool.or_true]
  rfl

theorem skipBetween_fuel {c : Cursor} {f g : Nat} (allowed : Bool) (enough : c.rest.length < f)
    (enough' : c.rest.length < g) :
    skipBetween false f allowed c = skipBetween false g allowed c := by
  induction f generalizing g allowed c with
  | zero => omega
  | succ f ih =>
    obtain ⟨g, rfl⟩ := Nat.exists_eq_add_of_lt (Nat.zero_lt_of_lt enough')
    rw [Nat.zero_add, skipBetween_succ, skipBetween_succ]
    have shorter := rest_length_pastBlanks_le allowed c
    split
    · next ch r rest =>
      split
      · next isBreak =>
        have less := Cursor.rest_length_skipLineBreak_lt rest isBreak
        exact ih true (by omega) (by omega)
      · rfl
    · rfl

/-- Past everything between two tokens of a block. -/
def passed (allowed : Bool) (c : Cursor) : Bool × Cursor :=
  skipBetween false (c.rest.length + 1) allowed c

theorem passed_eq (allowed : Bool) (c : Cursor) :
    passed allowed c =
      match (pastBlanks allowed c).rest with
      | ch :: _ =>
        if isBreak ch then passed true (pastBlanks allowed c).skipLineBreak
        else (allowed, pastBlanks allowed c)
      | [] => (allowed, pastBlanks allowed c) := by
  rw [passed, skipBetween_succ]
  have shorter := rest_length_pastBlanks_le allowed c
  split
  · next ch r rest =>
    split
    · next isBreak =>
      have less := Cursor.rest_length_skipLineBreak_lt rest isBreak
      exact skipBetween_fuel true (by omega) (Nat.lt_succ_self _)
    · rfl
  · rfl

theorem rest_length_skipBetween_le (fuel : Nat) (allowed : Bool) (c : Cursor) :
    (skipBetween false fuel allowed c).2.rest.length ≤ c.rest.length := by
  induction fuel generalizing allowed c with
  | zero => exact Nat.le_refl _
  | succ fuel ih =>
    have shorter := rest_length_pastBlanks_le allowed c
    rw [skipBetween_succ]
    split
    · next ch r rest =>
      split
      · next isBreak =>
        have less := Cursor.rest_length_skipLineBreak_lt rest isBreak
        exact Nat.le_trans (ih _ _) (by omega)
      · exact shorter
    · exact shorter

/-- Blanks for the place: where a key may begin, tabs are none. -/
def IsBlankFor (allowed : Bool) (ws : List Char) : Prop :=
  ∀ c ∈ ws, c = ' ' ∨ (allowed = false ∧ c = '\t')

theorem isBlankFor_spaces (allowed : Bool) (n : Nat) :
    IsBlankFor allowed (List.replicate n ' ') :=
  fun _ member => .inl (List.eq_of_mem_replicate member)

theorem isBlankFor_false {ws : List Char} (blank : ∀ c ∈ ws, isSpaceOrTab c = true) :
    IsBlankFor false ws :=
  fun c member => (isSpaceOrTab_iff.mp (blank c member)).imp_right fun tab => ⟨rfl, tab⟩

/-- Does not begin with a blank, a break or a comment. -/
structure IsSolid (x : List Char) : Prop where
  head : ∀ c ∈ x.head?, isSpaceOrTab c = false ∧ isBreak c = false ∧ c ≠ '#' ∧ c ≠ byteOrderMark

variable {allowed : Bool} {column : Nat} {ws x k b r : List Char} {m : Mark}

/-- Blanks may be passed over apart from what comes after them. -/
theorem pastBlanks_blanks (blank : IsBlankFor allowed ws) (noMark : x.head? ≠ some byteOrderMark) :
    pastBlanks allowed ⟨ws ++ x, m⟩ = pastBlanks allowed ⟨x, m.right ws.length⟩ := by
  -- A byte order mark counts only as the very first character, which blanks before it would hide.
  have noMark' : (ws ++ x).head? ≠ some byteOrderMark := by
    cases ws with
    | nil => exact noMark
    | cons c ws =>
      rintro mark
      obtain rfl : c = byteOrderMark := Option.some.inj mark
      rcases blank _ List.mem_cons_self with space | ⟨-, tab⟩
      · exact absurd space (by decide)
      · exact absurd tab (by decide)
  have skips : ∀ c ∈ ws, (c == ' ' || (c == '\t' && (false || !allowed))) = true := by
    intro c member
    rcases blank c member with rfl | ⟨rfl, rfl⟩ <;> rfl
  have same : (⟨ws ++ x, m⟩ : Cursor).skipWhile
        (fun ch => ch == ' ' || (ch == '\t' && (false || !allowed))) =
      (⟨x, m.right ws.length⟩ : Cursor).skipWhile
        (fun ch => ch == ' ' || (ch == '\t' && (false || !allowed))) := by
    simp only [Cursor.skipWhile, List.takeWhile_append_of_pos skips, Cursor.advance,
      List.length_append, List.drop_append, List.drop_eq_nil_of_le (Nat.le_add_right _ _),
      Nat.add_sub_cancel_left, List.nil_append, Mark.right, Nat.add_assoc]
  simp only [pastBlanks, beq_eq_false_iff_ne.mpr noMark, beq_eq_false_iff_ne.mpr noMark',
    Bool.and_false, Bool.false_eq_true, if_false, same]

/-- Nothing is passed over before anything that is no blank, comment or byte order mark. -/
theorem pastBlanks_self
    (stop : ∀ c ∈ x.head?, isSpaceOrTab c = false ∧ c ≠ '#' ∧ c ≠ byteOrderMark) :
    pastBlanks allowed ⟨x, m⟩ = ⟨x, m⟩ := by
  cases x with
  | nil => simp [pastBlanks, Cursor.skipWhile, Cursor.advance]
  | cons c x =>
    obtain ⟨noBlank, noComment, noMark⟩ := stop c rfl
    have noBlank' : c ≠ ' ' ∧ c ≠ '\t' := by
      simpa [isSpaceOrTab] using noBlank
    simp [pastBlanks, Cursor.skipWhile, Cursor.advance, noMark, noComment, noBlank']

theorem pastBlanks_remark (remark : Remark k) (stop : ∀ c ∈ x.head?, isBreak c = true) :
    pastBlanks allowed ⟨k ++ x, m⟩ = ⟨x, m.right k.length⟩ := by
  cases remark with
  | none =>
    refine pastBlanks_self fun c head => ?_
    have breaks := stop c head
    refine ⟨?_, ?_, ?_⟩
    · rw [Bool.eq_false_iff, ne_eq, isSpaceOrTab_iff]
      rintro (rfl | rfl) <;> exact absurd breaks (by decide)
    · rintro rfl
      exact absurd breaks (by decide)
    · rintro rfl
      exact absurd breaks (by decide)
  | @comment cs fits =>
    have inside : ∀ c ∈ '#' :: cs, (!isBreak c) = true := by
      intro c member
      rcases List.mem_cons.mp member with rfl | member
      · rfl
      · rw [(fits c member).2]
        rfl
    have past := Cursor.skipWhile_append m inside
      (fun c head => by rw [stop c head]; rfl : ∀ c ∈ x.head?, (!isBreak c) = false)
    have start : (⟨'#' :: cs ++ x, m⟩ : Cursor).skipWhile
        (fun ch => ch == ' ' || (ch == '\t' && (false || !allowed))) = ⟨'#' :: cs ++ x, m⟩ := by
      simp [Cursor.skipWhile, Cursor.advance]
    have noMark : (('#' : Char) == byteOrderMark) = false := rfl
    simp only [pastBlanks, List.cons_append, List.head?_cons, Option.some_beq_some, noMark,
      Bool.and_false, Bool.false_eq_true, if_false]
    rw [← List.cons_append, start]
    exact past

/-! ### Over whole lines -/

theorem passed_blanks (blank : IsBlankFor allowed ws) (noMark : x.head? ≠ some byteOrderMark) :
    passed allowed ⟨ws ++ x, m⟩ = passed allowed ⟨x, m.right ws.length⟩ := by
  rw [passed_eq, pastBlanks_blanks blank noMark, ← passed_eq]

theorem passed_solid (solid : IsSolid x) : passed allowed ⟨x, m⟩ = (allowed, ⟨x, m⟩) := by
  have same : pastBlanks allowed ⟨x, m⟩ = ⟨x, m⟩ :=
    pastBlanks_self fun c head =>
      ⟨(solid.head c head).1, (solid.head c head).2.2.1, (solid.head c head).2.2.2⟩
  rw [passed_eq, same]
  cases x with
  | nil => rfl
  | cons c x => simp only [(solid.head c rfl).2.1, Bool.false_eq_true, if_false]

theorem passed_remark (remark : Remark k) :
    passed allowed ⟨k, m⟩ = (allowed, ⟨[], m.right k.length⟩) := by
  have past : pastBlanks allowed ⟨k ++ [], m⟩ = ⟨[], m.right k.length⟩ :=
    pastBlanks_remark remark fun c head => by cases head
  rw [List.append_nil] at past
  rw [passed_eq, past]

theorem passed_lineEnd (remark : Remark k) (ends : LineEnd b) :
    passed allowed ⟨k ++ (b ++ r), m⟩ =
      passed true ⟨r, (m.right k.length).nextLine b.length⟩ := by
  rw [passed_eq, pastBlanks_remark remark (ends.isBreak_head r)]
  have next := Cursor.lineBreak_append ends r (m.right k.length)
  have breaks := ends.isBreak_head r
  cases rest : b ++ r with
  | nil => cases ends <;> cases rest
  | cons c z =>
    rw [rest] at breaks next
    simp only [breaks c rfl, if_true, Cursor.skipLineBreak, next]

theorem Remark.noMark (remark : Remark k) : k.head? ≠ some byteOrderMark := by
  cases remark with
  | none => decide
  | comment =>
    rintro mark
    exact absurd (Option.some.inj mark) (by decide)

theorem LineEnd.noMark_append (remark : Remark k) (ends : LineEnd b) :
    (k ++ (b ++ r)).head? ≠ some byteOrderMark := by
  cases remark with
  | none =>
    intro mark
    exact absurd (ends.isBreak_head r _ mark) (by decide)
  | comment =>
    rintro mark
    exact absurd (Option.some.inj mark) (by decide)

theorem IsSolid.noMark (solid : IsSolid x) : x.head? ≠ some byteOrderMark :=
  fun mark => (solid.head _ mark).2.2.2 rfl

theorem passed_line (blank : IsBlankFor allowed ws) (remark : Remark k) (ends : LineEnd b)
    (r : List Char) :
    ∃ m' : Mark, m'.column = 0 ∧
      passed allowed ⟨ws ++ (k ++ (b ++ r)), m⟩ = passed true ⟨r, m'⟩ := by
  refine ⟨((m.right ws.length).right k.length).nextLine b.length, rfl, ?_⟩
  rw [passed_blanks blank (LineEnd.noMark_append remark ends), passed_lineEnd remark ends]

/-- Lines without content lead to the line below them. -/
theorem passed_below (below : Below column x r) (start : m.column = 0) :
    ∃ m' : Mark, m'.column = 0 ∧
      passed true ⟨r, m⟩ = passed true ⟨List.replicate column ' ' ++ x, m'⟩ := by
  induction below generalizing m with
  | here => exact ⟨m, start, rfl⟩
  | idle n remark ends below ih =>
    obtain ⟨m₁, start₁, next⟩ := passed_line (m := m) (isBlankFor_spaces true n) remark ends _
    obtain ⟨m₂, start₂, same⟩ := ih start₁
    exact ⟨m₂, start₂, next.trans same⟩

theorem passed_below_solid (below : Below column x r) (solid : IsSolid x) (start : m.column = 0) :
    ∃ m' : Mark, m'.column = column ∧ passed true ⟨r, m⟩ = (true, ⟨x, m'⟩) := by
  obtain ⟨m', start', same⟩ := passed_below below start
  refine ⟨m'.right column, by rw [Mark.right, start', Nat.zero_add], ?_⟩
  rw [same, passed_blanks (isBlankFor_spaces true column) solid.noMark, List.length_replicate,
    passed_solid solid]

theorem passed_below_remark (below : Below column k r) (remark : Remark k) (start : m.column = 0) :
    ∃ m' : Mark, passed true ⟨r, m⟩ = (true, ⟨[], m'⟩) := by
  obtain ⟨m', -, same⟩ := passed_below below start
  refine ⟨(m'.right column).right k.length, ?_⟩
  rw [same, passed_blanks (isBlankFor_spaces true column) remark.noMark, List.length_replicate,
    passed_remark remark]

theorem Trailing.split {t : List Char} (trailing : Trailing t) :
    ∃ ws k, t = ws ++ k ∧ (∀ c ∈ ws, isSpaceOrTab c = true) ∧ Remark k ∧ (k = [] ∨ ws ≠ []) := by
  cases trailing with
  | blanks blank => exact ⟨_, [], (List.append_nil _).symm, blank, .none, .inl rfl⟩
  | comment blank apart remark => exact ⟨_, _, rfl, blank, remark, .inr apart⟩

theorem passed_onward (onward : Onward column x r) :
    ∃ z, ∃ m' : Mark, Below column x z ∧ m'.column = 0 ∧
      passed false ⟨r, m⟩ = passed true ⟨z, m'⟩ := by
  obtain ⟨trailing, ends, below⟩ := onward
  obtain ⟨ws, k, rfl, blank, remark, -⟩ := trailing.split
  obtain ⟨m', start, next⟩ := passed_line (m := m) (isBlankFor_false blank) remark ends _
  exact ⟨_, m', below, start, (List.append_assoc ws k _).symm ▸ next⟩

theorem passed_onward_solid (onward : Onward column x r) (solid : IsSolid x) :
    ∃ m' : Mark, m'.column = column ∧ passed false ⟨r, m⟩ = (true, ⟨x, m'⟩) := by
  obtain ⟨z, m', below, start, same⟩ := passed_onward (m := m) onward
  rw [same]
  exact passed_below_solid below solid start

theorem passed_closing (closing : Closing r) :
    ∃ allowed' m', passed false ⟨r, m⟩ = (allowed', ⟨[], m'⟩) := by
  cases closing with
  | here trailing =>
    obtain ⟨ws, k, rfl, blank, remark, -⟩ := trailing.split
    exact ⟨false, _, by rw [passed_blanks (isBlankFor_false blank) remark.noMark,
      passed_remark remark]⟩
  | onward remark onward =>
    obtain ⟨z, m', below, start, same⟩ := passed_onward (m := m) onward
    obtain ⟨m'', last⟩ := passed_below_remark below remark start
    exact ⟨true, m'', same.trans last⟩

/-! ### Gaps after a plain word -/

/-- A plain scalar does not go on here. -/
structure StopsPlain (indent : Int) (c : Cursor) : Prop where
  stop : ∀ ch ∈ c.rest.head?, isSpaceOrTab ch = false ∧ isBreak ch = false
  outside : c.rest = [] ∨ c.rest.head? = some '#' ∨ (c.mark.column : Int) < indent

theorem Remark.stopsPlain (remark : Remark k) (indent : Int) (x : List Char) (m : Mark)
    (last : k = [] → x = []) : StopsPlain indent ⟨k ++ x, m⟩ := by
  cases remark with
  | none => exact ⟨by rw [last rfl]; rintro c ⟨⟩, .inl (last rfl)⟩
  | comment => exact ⟨by rintro c ⟨⟩; exact ⟨rfl, rfl⟩, .inr (.inl rfl)⟩

/-- Reading the gap after a word comes from one place to another, and what is passed over from there
on is what is passed over from the start. -/
structure GapLeads (indent : Int) (start : Mark) (g : Gap) (c : Cursor) (g' : Gap) (c' : Cursor) :
    Prop where
  reads : ∀ fuel, c.rest.length ≤ fuel → ∃ fuel', c'.rest.length ≤ fuel' ∧
    plainGap indent start fuel g c = plainGap indent start fuel' g' c'
  passes : passed g'.first?.isSome c' = passed g.first?.isSome c
  shorter : c'.rest.length ≤ c.rest.length

section

variable {indent : Int} {start : Mark} {g g₁ g₂ : Gap} {c c₁ c₂ : Cursor}

theorem GapLeads.trans (first : GapLeads indent start g c g₁ c₁)
    (second : GapLeads indent start g₁ c₁ g₂ c₂) : GapLeads indent start g c g₂ c₂ := by
  refine ⟨fun fuel enough => ?_, second.passes.trans first.passes,
    Nat.le_trans second.shorter first.shorter⟩
  obtain ⟨fuel₁, enough₁, same₁⟩ := first.reads fuel enough
  obtain ⟨fuel₂, enough₂, same₂⟩ := second.reads fuel₁ enough₁
  exact ⟨fuel₂, enough₂, same₁.trans same₂⟩

theorem GapLeads.result (leads : GapLeads indent start g c g₁ c₁)
    (stop : ∀ ch ∈ c₁.rest.head?, isSpaceOrTab ch = false ∧ isBreak ch = false) {fuel : Nat}
    (enough : c.rest.length ≤ fuel) : plainGap indent start fuel g c = .ok (g₁, c₁) := by
  obtain ⟨fuel', -, same⟩ := leads.reads fuel enough
  rw [same]
  cases fuel' with
  | zero => rfl
  | succ fuel' =>
    rw [plainGap]
    split
    · rfl
    · next ch r rest =>
      obtain ⟨noBlank, noBreak⟩ := stop ch (by rw [rest]; rfl)
      simp only [noBlank, noBreak, Bool.false_eq_true, if_false]

theorem Gap.isSome_addBlank (g : Gap) (ch : Char) :
    (g.addBlank ch).first?.isSome = g.first?.isSome := by
  simp only [Gap.addBlank]
  split
  · rfl
  · simp_all

theorem Gap.isSome_addBreak (g : Gap) (b : List Char) : (g.addBreak b).first?.isSome = true := by
  simp only [Gap.addBreak]
  split
  · rfl
  · simp_all

theorem plainGap_blanks (indent : Int) (start : Mark) (g : Gap)
    (blank : IsBlankFor g.first?.isSome ws) (x : List Char) (m : Mark) :
    ∃ g', g'.first?.isSome = g.first?.isSome ∧ ∀ fuel,
      plainGap indent start (fuel + ws.length) g ⟨ws ++ x, m⟩ =
        plainGap indent start fuel g' ⟨x, m.right ws.length⟩ := by
  induction ws generalizing g m with
  | nil => exact ⟨g, rfl, fun _ => rfl⟩
  | cons c ws ih =>
    obtain ⟨g', same, reads⟩ := ih (g.addBlank c)
      (fun d member => g.isSome_addBlank c ▸ blank d (.tail _ member)) (m.right 1)
    refine ⟨g', same.trans (g.isSome_addBlank c), fun fuel => ?_⟩
    have isBlank : isSpaceOrTab c = true :=
      isSpaceOrTab_iff.mpr ((blank c List.mem_cons_self).imp_right And.right)
    have noTab : (g.first?.isSome && decide ((m.column : Int) < indent) && c == '\t') = false := by
      rcases blank c List.mem_cons_self with rfl | ⟨noBreak, -⟩
      · simp
      · rw [noBreak, Bool.false_and, Bool.false_and]
    rw [List.length_cons, ← Nat.add_assoc, plainGap, List.cons_append, ← m.right_succ, ← reads fuel]
    simp only [isBlank, if_true, noTab, Bool.false_eq_true, if_false]
    rfl

theorem GapLeads.blanks (indent : Int) (start : Mark) (g : Gap)
    (blank : IsBlankFor g.first?.isSome ws) (noMark : x.head? ≠ some byteOrderMark) (m : Mark) :
    ∃ g', g'.first?.isSome = g.first?.isSome ∧
      GapLeads indent start g ⟨ws ++ x, m⟩ g' ⟨x, m.right ws.length⟩ := by
  obtain ⟨g', same, reads⟩ := plainGap_blanks indent start g blank x m
  refine ⟨g', same, fun fuel enough => ?_, ?_, by simp⟩
  · have enough' : ws.length + x.length ≤ fuel := by simpa using enough
    refine ⟨fuel - ws.length, Nat.le_sub_of_add_le' enough', ?_⟩
    rw [← reads, Nat.sub_add_cancel (Nat.le_of_add_right_le enough')]
  · rw [same, passed_blanks blank noMark]

theorem GapLeads.lineEnd (indent : Int) (start : Mark) (g : Gap) (ends : LineEnd b) (r : List Char)
    (m : Mark) :
    GapLeads indent start g ⟨b ++ r, m⟩ (g.addBreak ['\n']) ⟨r, m.nextLine b.length⟩ := by
  have next : passed g.first?.isSome ⟨[] ++ (b ++ r), m⟩ = _ := passed_lineEnd .none ends
  rw [List.nil_append, List.length_nil, Mark.right_zero] at next
  refine ⟨fun fuel enough => ?_, ?_, by simp⟩
  · cases ends with
    | lf =>
      obtain ⟨fuel, rfl⟩ := Nat.exists_eq_succ_of_ne_zero (Nat.ne_zero_of_lt enough)
      exact ⟨fuel, Nat.le_of_succ_le_succ enough, rfl⟩
    | crlf =>
      obtain ⟨fuel, rfl⟩ := Nat.exists_eq_succ_of_ne_zero (Nat.ne_zero_of_lt enough)
      exact ⟨fuel, Nat.le_of_succ_le (Nat.le_of_succ_le_succ enough), rfl⟩
  · rw [g.isSome_addBreak]
    exact next.symm

/-- The rest of a line is read to its comment, or to the start of the next line. -/
theorem GapLeads.line (indent : Int) (start : Mark) (g : Gap)
    (blank : IsBlankFor g.first?.isSome ws) (remark : Remark k) (ends : LineEnd b) (r : List Char)
    (m : Mark) :
    (∃ g' c, GapLeads indent start g ⟨ws ++ (k ++ (b ++ r)), m⟩ g' c ∧ StopsPlain indent c) ∨
      ∃ (g' : Gap) (m' : Mark), g'.first?.isSome = true ∧ m'.column = 0 ∧
        GapLeads indent start g ⟨ws ++ (k ++ (b ++ r)), m⟩ g' ⟨r, m'⟩ := by
  obtain ⟨g₁, -, leads⟩ :=
    GapLeads.blanks indent start g blank (LineEnd.noMark_append (r := r) remark ends) m
  by_cases noComment : k = []
  · subst noComment
    exact .inr ⟨_, (m.right ws.length).nextLine b.length, g₁.isSome_addBreak _, rfl,
      leads.trans (.lineEnd indent start g₁ ends r _)⟩
  · exact .inl ⟨g₁, _, leads, remark.stopsPlain indent _ _ fun none => absurd none noComment⟩

/-- A gap is read to a comment, to the end, or to what stands below. -/
theorem GapLeads.below (start : Mark) (below : Below column x r)
    (noMark : x.head? ≠ some byteOrderMark)
    (stops : ∀ m : Mark, m.column = column → StopsPlain indent ⟨x, m⟩) (g : Gap) (m : Mark)
    (broken : g.first?.isSome = true) (begins : m.column = 0) :
    ∃ g' c, GapLeads indent start g ⟨r, m⟩ g' c ∧ StopsPlain indent c := by
  induction below generalizing g m with
  | here =>
    obtain ⟨g', -, leads⟩ := GapLeads.blanks indent start g
      (broken ▸ isBlankFor_spaces true column) noMark m
    refine ⟨g', _, leads, stops _ ?_⟩
    simp only [Mark.right, begins, List.length_replicate, Nat.zero_add]
  | idle n remark ends below ih =>
    rcases GapLeads.line indent start g (broken ▸ isBlankFor_spaces true n) remark ends _ m with
      halted | ⟨g₁, m₁, broken₁, begins₁, leads⟩
    · exact halted
    · obtain ⟨g₂, c, further, stop⟩ := ih g₁ m₁ broken₁ begins₁
      exact ⟨g₂, c, leads.trans further, stop⟩

/-! ### After a value -/

/-- What comes after a value of a mapping at that column: more of the mapping or of one around it,
or the end. -/
inductive Sequel (column : Nat) : List Char → Prop where
  | onward {n : Nat} {x r : List Char} (shallow : n ≤ column) (solid : IsSolid x)
      (onward : Onward n x r) : Sequel column r
  | closing {r : List Char} (closing : Closing r) : Sequel column r

theorem IsSolid.stopsPlain (solid : IsSolid x) {m : Mark} (outside : (m.column : Int) < indent) :
    StopsPlain indent ⟨x, m⟩ :=
  ⟨fun c head => ⟨(solid.head c head).1, (solid.head c head).2.1⟩, .inr (.inr outside)⟩

/-- The rest of the line, and the lines below it if there are any. -/
inductive Lines (indent : Int) : List Char → Prop where
  | last {t : List Char} (trailing : Trailing t) : Lines indent t
  | onward {n : Nat} {x r : List Char} (onward : Onward n x r)
      (noMark : x.head? ≠ some byteOrderMark)
      (stops : ∀ m : Mark, m.column = n → StopsPlain indent ⟨x, m⟩) : Lines indent r

theorem Sequel.deeper {n : Nat} (sequel : Sequel column r) (deeper : column ≤ n) : Sequel n r := by
  cases sequel with
  | onward shallow solid onward => exact .onward (Nat.le_trans shallow deeper) solid onward
  | closing closing => exact .closing closing

theorem Sequel.lines (sequel : Sequel column r) : Lines (column + 1) r := by
  cases sequel with
  | onward shallow solid onward =>
    exact .onward onward solid.noMark fun m same => solid.stopsPlain (by omega)
  | closing closing =>
    cases closing with
    | here trailing => exact .last trailing
    | @onward n k _ remark onward =>
      refine .onward onward remark.noMark fun m _ => ?_
      have stops := remark.stopsPlain (column + 1 : Int) [] m fun _ => rfl
      rwa [List.append_nil] at stops

theorem Trailing.head (trailing : Trailing r) : ∀ c ∈ r.head?, isSpaceOrTab c = true := by
  intro c head
  obtain ⟨ws, k, rfl, blank, remark, apart⟩ := trailing.split
  cases ws with
  | nil =>
    obtain rfl : k = [] := apart.resolve_right fun nonempty => nonempty rfl
    cases head
  | cons d ws =>
    obtain rfl : d = c := Option.some.inj head
    exact blank _ List.mem_cons_self

theorem Trailing.isBlankOrEnd_append {t y : List Char} (trailing : Trailing t)
    (ends : isBlankOrEnd y = true) : isBlankOrEnd (t ++ y) = true := by
  cases t with
  | nil => exact ends
  | cons c t => rw [List.cons_append, isBlankOrEnd, trailing.head c rfl, Bool.true_or]

theorem Onward.isBlankOrEnd (onward : Onward column x r) : isBlankOrEnd r = true := by
  obtain ⟨trailing, ends, below⟩ := onward
  refine trailing.isBlankOrEnd_append ?_
  cases ends <;> rfl

/-- A word ends where its line or the text does. -/
theorem Lines.isBlankOrEnd (lines : Lines indent r) : isBlankOrEnd r = true := by
  cases lines with
  | last trailing => exact List.append_nil r ▸ trailing.isBlankOrEnd_append rfl
  | onward onward => exact onward.isBlankOrEnd

/-- The gap after a word is read to a comment, to the end, or to what stands below. -/
theorem GapLeads.lines (start : Mark) (lines : Lines indent r) (m : Mark) :
    ∃ g c, GapLeads indent start .empty ⟨r, m⟩ g c ∧ StopsPlain indent c := by
  cases lines with
  | last trailing =>
    obtain ⟨ws, k, rfl, blank, remark, -⟩ := trailing.split
    obtain ⟨g, -, leads⟩ :=
      GapLeads.blanks indent start .empty (isBlankFor_false blank) remark.noMark m
    have stops := remark.stopsPlain indent [] (m.right ws.length) fun _ => rfl
    rw [List.append_nil] at stops
    exact ⟨g, _, leads, stops⟩
  | onward onward noMark stops =>
    obtain ⟨trailing, ends, below⟩ := onward
    obtain ⟨ws, k, rfl, blank, remark, -⟩ := trailing.split
    rw [List.append_assoc]
    rcases GapLeads.line indent start .empty (isBlankFor_false blank) remark ends _ m with
      halted | ⟨g₁, m₁, broken, begins, leads⟩
    · exact halted
    · obtain ⟨g₂, c, further, stop⟩ := GapLeads.below start below noMark stops g₁ m₁ broken begins
      exact ⟨g₂, c, leads.trans further, stop⟩

end

end Phrasebook.Yaml
