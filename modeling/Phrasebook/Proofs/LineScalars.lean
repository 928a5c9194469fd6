import Phrasebook.Proofs.Gaps

/-!
The scalars of a block mapping: a key is read up to its colon, a truth value up to what comes after
it, and a quoted text is what stands between its marks.
-/

namespace Phrasebook.Yaml

open Lexer

variable {indent : Int} {start m : Mark} {w y r : List Char} {fuel : Nat}

theorem length_lt_append (w y : List Char) : w.length < (w ++ y).length + 1 := by
  rw [List.length_append]
  exact Nat.lt_succ_of_le (Nat.le_add_right _ _)

/-! ### Plain words -/

theorem isBlankOrEnd_name {c : Char} (named : isNameChar c = true) :
    isBlankOrEnd (c :: y) = false := by
  rw [isBlankOrEnd, isSpaceOrTab_of_isNameChar named, isBreak_of_isNameChar named, Bool.or_false]

theorem endsPlain_name {c : Char} (named : isNameChar c = true) :
    endsPlain false (c :: y) = false := by
  have noColon : c ≠ ':' := ne_of_isNameChar named (by decide +kernel)
  unfold endsPlain
  split
  · next head => exact absurd (List.cons.inj head).1 noColon
  · rfl
  · next none => cases none

theorem plainWord_name (start m : Mark) (named : ∀ c ∈ w, isNameChar c = true)
    (ends : isBlankOrEnd y = true ∨ endsPlain false y = true) (enough : w.length < fuel) :
    plainWord false start fuel ⟨w ++ y, m⟩ = .ok (w, ⟨y, m.right w.length⟩) := by
  induction w generalizing fuel m with
  | nil =>
    obtain ⟨fuel, rfl⟩ := Nat.exists_eq_succ_of_ne_zero (Nat.ne_zero_of_lt enough)
    rw [plainWord]
    rcases ends with blank | stop
    · simp [blank]
    · simp [stop]
  | cons c w ih =>
    obtain ⟨fuel, rfl⟩ := Nat.exists_eq_succ_of_ne_zero (Nat.ne_zero_of_lt enough)
    have first := named c List.mem_cons_self
    have rest := ih (m.right 1) (fun d member => named d (.tail _ member))
      (Nat.lt_of_succ_lt_succ enough)
    rw [plainWord, List.cons_append]
    simp only [isBlankOrEnd_name first, endsPlain_name first, Bool.false_and, Bool.false_eq_true,
      if_false]
    change (plainWord false start fuel ⟨w ++ y, m.right 1⟩ >>= _) = _
    rw [rest, m.right_succ]
    rfl

theorem atDocumentMark_name {c : Char} (named : isNameChar c = true) (m : Mark) :
    (⟨c :: y, m⟩ : Cursor).atDocumentMark = false := by
  have noDash : c ≠ '-' := ne_of_isNameChar named (by decide +kernel)
  have noDot : c ≠ '.' := ne_of_isNameChar named (by decide +kernel)
  simp [Cursor.atDocumentMark, noDash, noDot]

/-- Where a plain scalar does not go on, it gains no more words. -/
theorem plainBody_stop {c : Cursor} (stops : StopsPlain indent c) (inside : indent ≤ c.mark.column)
    (start stop : Mark) (fuel : Nat) (g : Gap) :
    ∃ stop', plainBody false indent start (fuel + 1) g stop c =
      .ok ⟨[], stop', g.first?.isSome, c⟩ := by
  rw [plainBody]
  split
  · exact ⟨_, rfl⟩
  · split
    · exact ⟨_, rfl⟩
    · next noComment =>
      have ended : c.rest = [] := by
        rcases stops.outside with ended | comment | outside
        · exact ended
        · obtain ⟨z, rest⟩ := List.head?_eq_some_iff.mp comment
          exact absurd rest (noComment z)
        · omega
      obtain ⟨rest, mark⟩ := c
      subst ended
      exact ⟨_, rfl⟩

/-- A word is read, and then what comes after it unless the scalar ends there. -/
theorem plainBody_word (named : ∀ c ∈ w, isNameChar c = true) (nonempty : w ≠ [])
    (ends : isBlankOrEnd y = true ∨ endsPlain false y = true) (start stop m : Mark) (fuel : Nat) :
    plainBody false indent start (fuel + 1) .empty stop ⟨w ++ y, m⟩ =
      if y.head?.any fun c => isSpaceOrTab c || isBreak c then do
        let (g, c) ← plainGap indent start (y.length + 1) .empty ⟨y, m.right w.length⟩
        if (c.mark.column : Int) < indent then .ok ⟨w, m.right w.length, g.first?.isSome, c⟩
        else (plainBody false indent start fuel g (m.right w.length) c).map fun more =>
          { more with text := w ++ more.text }
      else .ok ⟨w, m.right w.length, false, ⟨y, m.right w.length⟩⟩ := by
  obtain ⟨c, w, rfl⟩ := List.exists_cons_of_ne_nil nonempty
  have first := named c List.mem_cons_self
  have noComment : c ≠ '#' := ne_of_isNameChar first (by decide +kernel)
  have word := plainWord_name start m named ends (length_lt_append (c :: w) y)
  rw [plainBody, List.cons_append, atDocumentMark_name first]
  rw [List.cons_append] at word
  simp only [Bool.false_eq_true, if_false]
  split
  · next head => exact absurd (List.cons.inj head).1 noComment
  · rw [word]
    cases y with
    | nil => rfl
    | cons ch z =>
      simp only [bind, Except.bind, List.head?_cons, Option.any_some, List.isEmpty_cons,
        Bool.not_false, Bool.true_and, decide_eq_true_eq, Bool.false_eq_true, if_false]
      by_cases blank : (isSpaceOrTab ch || isBreak ch) = true
      · simp only [blank, if_true, Bool.not_true, Bool.false_eq_true, if_false]
        congr
      · simp only [blank, if_true, Bool.not_false, Bool.false_eq_true, if_false]
        rfl

/-- At a colon a plain scalar gains nothing more. -/
theorem plainBody_colon (apart : isBlankOrEnd r = true) (start stop m : Mark) (fuel : Nat)
    (g : Gap) :
    plainBody false indent start (fuel + 1) g stop ⟨':' :: r, m⟩ =
      .ok ⟨[], stop, g.first?.isSome, ⟨':' :: r, m⟩⟩ := by
  have word := plainWord_name (y := ':' :: r) start m (List.forall_mem_nil _) (.inr apart)
    (Nat.succ_pos (':' :: r).length)
  have noDocument : (⟨':' :: r, m⟩ : Cursor).atDocumentMark = false := by
    simp [Cursor.atDocumentMark]
  rw [List.nil_append] at word
  rw [plainBody, noDocument]
  simp only [Bool.false_eq_true, if_false, word]
  rfl

/-- A word before a colon is a plain scalar, without the blanks between them. -/
theorem plainBody_key (named : ∀ c ∈ w, isNameChar c = true) (nonempty : w ≠ []) {ws : List Char}
    (blank : ∀ c ∈ ws, isSpaceOrTab c = true) (apart : isBlankOrEnd r = true) (start stop m : Mark)
    (fuel : Nat) :
    plainBody false indent start (fuel + 2) .empty stop ⟨w ++ (ws ++ ':' :: r), m⟩ =
      .ok ⟨w, m.right w.length, false, ⟨':' :: r, (m.right w.length).right ws.length⟩⟩ := by
  cases ws with
  | nil =>
    have ends : endsPlain false (':' :: r) = true := apart
    rw [List.nil_append, plainBody_word named nonempty (.inr ends)]
    rfl
  | cons c ws =>
    have blankFirst := blank c List.mem_cons_self
    have ends : isBlankOrEnd (c :: ws ++ ':' :: r) = true := by
      rw [List.cons_append, isBlankOrEnd, blankFirst, Bool.true_or]
    have colon : (':' :: r).head? ≠ some byteOrderMark := by
      rintro ⟨⟩
    obtain ⟨g, unbroken, leads⟩ := GapLeads.blanks indent start .empty (isBlankFor_false blank)
      colon (m.right w.length)
    have gap := leads.result (by rintro ch ⟨⟩; exact ⟨rfl, rfl⟩)
      (Nat.le_succ (c :: ws ++ ':' :: r).length)
    have more : plainBody false indent start (fuel + 1) g _ _ = _ :=
      plainBody_colon apart start (m.right w.length) ((m.right w.length).right (c :: ws).length)
        fuel g
    rw [plainBody_word named nonempty (.inl ends), gap]
    simp only [List.cons_append, List.head?_cons, Option.any_some, blankFirst, Bool.true_or,
      if_true, bind, Except.bind, more, unbroken]
    split <;> simp [Except.map, Gap.empty]

/-- A word is a plain scalar where its line ends, with a comment or without. -/
theorem plainBody_lines (named : ∀ c ∈ w, isNameChar c = true) (nonempty : w ≠ [])
    (lines : Lines indent y) (start stop m : Mark) (fuel : Nat) :
    ∃ t, plainBody false indent start (fuel + 2) .empty stop ⟨w ++ y, m⟩ = .ok t ∧ t.text = w ∧
      passed t.brokenAfter t.cursor = passed false ⟨y, m.right w.length⟩ ∧
      t.cursor.rest.length ≤ y.length := by
  obtain ⟨g, c', leads, stops⟩ := GapLeads.lines start lines (m.right w.length)
  have gap := leads.result stops.stop (Nat.le_succ y.length)
  rw [plainBody_word named nonempty (.inl lines.isBlankOrEnd), gap]
  split
  · simp only [bind, Except.bind]
    by_cases outside : (c'.mark.column : Int) < indent
    · simp only [outside, if_true]
      exact ⟨_, rfl, rfl, leads.passes, leads.shorter⟩
    -- A comment or the end of the text at a deeper column: another turn finds no word there.
    · obtain ⟨stop', nothing⟩ :=
        plainBody_stop stops (by omega) start (m.right w.length) fuel g
      simp only [outside, if_false, nothing]
      exact ⟨_, rfl, List.append_nil _, leads.passes, leads.shorter⟩
  · exact ⟨_, rfl, rfl, rfl, Nat.le_refl _⟩

theorem plain_key {k : String} {t : List Char} (key : KeyText k t) (apart : isBlankOrEnd r = true)
    (indent : Int) (m : Mark) :
    plain false indent ⟨t ++ ':' :: r, m⟩ =
      .ok (⟨.scalar .plain k, m, m.right k.toList.length⟩, false,
        ⟨':' :: r, m.right t.length⟩) := by
  obtain @⟨ws, name, blank⟩ := key
  have fuel : (k.toList ++ (ws ++ ':' :: r)).length + 1 =
      k.toList.length + (ws.length + r.length) + 2 := by
    simp only [List.length_append, List.length_cons]
    omega
  have text : plainBody false (indent + 1) m _ .empty m _ = _ :=
    plainBody_key name.named name.nonempty blank apart m m m
      (k.toList.length + (ws.length + r.length))
  rw [← fuel, Mark.right_right, ← List.length_append] at text
  rw [List.append_assoc, plain]
  simp only [text, bind, Except.bind, String.ofList_toList]

theorem plain_lines (named : ∀ c ∈ w, isNameChar c = true) (nonempty : w ≠ []) {column : Int}
    (lines : Lines (column + 1) y) (m : Mark) :
    ∃ stop broken c, plain false column ⟨w ++ y, m⟩ =
        .ok (⟨.scalar .plain (String.ofList w), m, stop⟩, broken, c) ∧
      passed broken c = passed false ⟨y, m.right w.length⟩ ∧ c.rest.length ≤ y.length := by
  obtain ⟨d, v, rfl⟩ := List.exists_cons_of_ne_nil nonempty
  obtain ⟨t, read, text, passes, shorter⟩ :=
    plainBody_lines named nonempty lines m m m (v ++ y).length
  refine ⟨t.stop, t.brokenAfter, t.cursor, ?_, passes, shorter⟩
  rw [plain, List.cons_append, List.length_cons, ← List.cons_append, read, ← text]
  rfl

/-! ### Text between marks -/

theorem quotedWord_stop (stop : y.head? = some ' ' ∨ y.head? = some '"') :
    quotedWord false start (fuel + 1) ⟨y, m⟩ = .ok ([], false, ⟨y, m⟩) := by
  rcases stop with space | mark
  · obtain ⟨z, rfl⟩ := List.head?_eq_some_iff.mp space
    rfl
  · obtain ⟨z, rfl⟩ := List.head?_eq_some_iff.mp mark
    rfl

theorem quotedWord_cons {c : Char} (fits : isQuotable c = true) (solid : c ≠ ' ') :
    quotedWord false start (fuel + 1) ⟨c :: y, m⟩ =
      (quotedWord false start fuel ⟨y, m.right 1⟩).map fun (w, b, d) => (c :: w, b, d) := by
  obtain ⟨-, -, noMark, noEscape⟩ := isQuotable_iff.mp fits
  have noBlank := isSpaceOrTab_of_isQuotable fits solid
  have going : isBlankOrEnd (c :: y) = false := by
    rw [isBlankOrEnd, noBlank, isBreak_of_isQuotable fits, Bool.or_false]
  rw [quotedWord.eq_def]
  simp [going, noMark, noEscape]
  rfl

/-- Characters of a line are read up to a space or the closing mark. -/
theorem quotedWord_append (start m : Mark) (fits : ∀ c ∈ w, isQuotable c = true)
    (solid : ∀ c ∈ w, c ≠ ' ') (stop : y.head? = some ' ' ∨ y.head? = some '"')
    (enough : w.length < fuel) :
    quotedWord false start fuel ⟨w ++ y, m⟩ = .ok (w, false, ⟨y, m.right w.length⟩) := by
  induction w generalizing fuel m with
  | nil =>
    obtain ⟨fuel, rfl⟩ := Nat.exists_eq_succ_of_ne_zero (Nat.ne_zero_of_lt enough)
    exact quotedWord_stop stop
  | cons c w ih =>
    obtain ⟨fuel, rfl⟩ := Nat.exists_eq_succ_of_ne_zero (Nat.ne_zero_of_lt enough)
    have rest := ih (m.right 1) (fun d member => fits d (.tail _ member))
      (fun d member => solid d (.tail _ member)) (Nat.lt_of_succ_lt_succ enough)
    rw [List.cons_append, quotedWord_cons (fits c List.mem_cons_self) (solid c List.mem_cons_self),
      rest, m.right_succ]
    rfl

/-- Spaces between words are kept. -/
theorem quotedGap_spaces {n : Nat} (bs os : List Char) (m : Mark)
    (stop : ∀ c ∈ y.head?, isSpaceOrTab c = false ∧ isBreak c = false) (enough : n < fuel) :
    quotedGap fuel ⟨bs, none, os⟩ ⟨List.replicate n ' ' ++ y, m⟩ =
      (⟨bs ++ List.replicate n ' ', none, os⟩, ⟨y, m.right n⟩) := by
  induction n generalizing fuel bs m with
  | zero =>
    obtain ⟨fuel, rfl⟩ := Nat.exists_eq_succ_of_ne_zero (Nat.ne_zero_of_lt enough)
    cases y with
    | nil => simp [quotedGap]
    | cons c y =>
      obtain ⟨noBlank, noBreak⟩ := stop c rfl
      simp [quotedGap, noBlank, noBreak]
  | succ n ih =>
    obtain ⟨fuel, rfl⟩ := Nat.exists_eq_succ_of_ne_zero (Nat.ne_zero_of_lt enough)
    have rest := ih (bs ++ [' ']) (m.right 1) (Nat.lt_of_succ_lt_succ enough)
    rw [m.right_succ, List.append_assoc] at rest
    exact rest

/-- The first word of a line, the spaces after it, and the rest of the line. -/
theorem exists_firstWord (s : List Char) :
    ∃ w n u, s = w ++ (List.replicate n ' ' ++ u) ∧ (∀ c ∈ w, c ≠ ' ') ∧ u.head? ≠ some ' ' ∧
      (n = 0 → u = []) := by
  induction s with
  | nil =>
    exact ⟨[], 0, [], rfl, fun _ member => (List.not_mem_nil member).elim, nofun, fun _ => rfl⟩
  | cons c s ih =>
    obtain ⟨w, n, u, rfl, solid, next, last⟩ := ih
    by_cases space : c = ' '
    · subst space
      cases w with
      | nil => exact ⟨[], n + 1, u, rfl, solid, next, nofun⟩
      | cons d w =>
        exact ⟨[], 1, d :: w ++ (List.replicate n ' ' ++ u), rfl,
          fun _ member => (List.not_mem_nil member).elim,
          fun head => solid d List.mem_cons_self (Option.some.inj head), nofun⟩
    · exact ⟨c :: w, n, u, rfl, List.forall_mem_cons.mpr ⟨space, solid⟩, next, last⟩

/-- The text between the marks is read as it stands. -/
theorem quotedBody_append {s : List Char} (start : Mark) (fits : ∀ c ∈ s, isQuotable c = true)
    (inside : m.column ≠ 0) (enough : s.length < fuel) :
    quotedBody false start fuel ⟨s ++ '"' :: r, m⟩ = .ok (s, ⟨r, m.right (s.length + 1)⟩) := by
  -- Words and spaces take turns, so a step takes a word with its spaces and not one character.
  induction fuel generalizing s m with
  | zero => exact absurd enough (Nat.not_lt_zero _)
  | succ fuel ih =>
    obtain ⟨w, n, u, rfl, solid, next, last⟩ := exists_firstWord s
    have noDocument : (⟨w ++ (List.replicate n ' ' ++ u) ++ '"' :: r, m⟩ : Cursor).atDocumentMark =
        false := by
      simp [Cursor.atDocumentMark, inside]
    have more : (w ++ (List.replicate n ' ' ++ u) ++ '"' :: r).isEmpty = false := by simp
    have fitsWord : ∀ c ∈ w, isQuotable c = true :=
      fun c member => fits c (List.mem_append_left _ member)
    have fitsRest : ∀ c ∈ u, isQuotable c = true :=
      fun c member => fits c (List.mem_append_right _ (List.mem_append_right _ member))
    rw [quotedBody, noDocument, more]
    simp only [Bool.false_eq_true, if_false, List.append_assoc]
    cases n with
    | zero =>
      obtain rfl := last rfl
      have word := quotedWord_append (y := '"' :: r) start m fitsWord solid (.inr rfl)
        (length_lt_append w ('"' :: r))
      simp only [List.replicate_zero, List.nil_append, List.append_nil]
      rw [word]
      rfl
    | succ n =>
      have word := quotedWord_append (y := List.replicate (n + 1) ' ' ++ (u ++ '"' :: r)) start m
        fitsWord solid (.inl rfl)
        (length_lt_append w (List.replicate (n + 1) ' ' ++ (u ++ '"' :: r)))
      have stop : ∀ c ∈ (u ++ '"' :: r).head?, isSpaceOrTab c = false ∧ isBreak c = false := by
        cases u with
        | nil => rintro c ⟨⟩; exact ⟨rfl, rfl⟩
        | cons d u =>
          rintro c ⟨⟩
          have quotable := fitsRest d List.mem_cons_self
          exact ⟨isSpaceOrTab_of_isQuotable quotable fun space => next (space ▸ rfl),
            isBreak_of_isQuotable quotable⟩
      have enoughSpaces := length_lt_append (List.replicate (n + 1) ' ') (u ++ '"' :: r)
      rw [List.length_replicate] at enoughSpaces
      have gap := quotedGap_spaces [] [] (m.right w.length) stop enoughSpaces
      have enoughMore : u.length < fuel := by
        simp only [List.length_append, List.length_replicate] at enough
        omega
      have insideMore : ((m.right w.length).right (n + 1)).column ≠ 0 := by
        simp only [Mark.right]
        omega
      have body := ih fitsRest insideMore enoughMore
      have going :
          isClosingMark false (List.replicate (n + 1) ' ' ++ (u ++ '"' :: r)) = false := rfl
      rw [word]
      simp only [bind, Except.bind, going, Bool.false_eq_true, if_false, Gap.empty]
      rw [gap]
      simp only [body]
      simp only [Gap.text, List.nil_append, Mark.right_right, List.length_append,
        List.length_replicate, Nat.add_assoc]

theorem quoted_append {s : List Char} (fits : ∀ c ∈ s, isQuotable c = true) (r : List Char)
    (m : Mark) :
    quoted false ⟨'"' :: (s ++ '"' :: r), m⟩ =
      .ok (⟨.scalar .doubleQuoted (String.ofList s), m, m.right (s.length + 2)⟩,
        ⟨r, m.right (s.length + 2)⟩) := by
  have enough : s.length < ('"' :: (s ++ '"' :: r)).length + 1 :=
    Nat.lt_succ_of_lt (length_lt_append s ('"' :: r))
  have body := quotedBody_append (m := m.right 1) (r := r) m fits (Nat.succ_ne_zero _) enough
  rw [m.right_succ] at body
  rw [quoted]
  change (quotedBody false m _ ⟨s ++ '"' :: r, m.right 1⟩ >>= _) = _
  rw [body]
  rfl

/-! ### Where tokens begin -/

theorem isSolid_name {k y : List Char} (named : ∀ c ∈ k, isNameChar c = true) (nonempty : k ≠ []) :
    IsSolid (k ++ y) := by
  obtain ⟨c, k, rfl⟩ := List.exists_cons_of_ne_nil nonempty
  have first := named c List.mem_cons_self
  constructor
  rintro d ⟨⟩
  exact ⟨isSpaceOrTab_of_isNameChar first, isBreak_of_isNameChar first,
    ne_of_isNameChar first (by decide +kernel), ne_of_isNameChar first (by decide +kernel)⟩

theorem IsName.isSolid {k : String} (name : IsName k) (y : List Char) : IsSolid (k.toList ++ y) :=
  isSolid_name name.named name.nonempty

theorem KeyText.isSolid {k : String} {t : List Char} (key : KeyText k t) (y : List Char) :
    IsSolid (t ++ y) := by
  obtain ⟨name, -⟩ := key
  rw [List.append_assoc]
  exact name.isSolid _

theorem KeyText.exists_cons {k : String} {t : List Char} (key : KeyText k t) :
    ∃ c v, t = c :: v ∧ isNameChar c = true := by
  obtain ⟨name, -⟩ := key
  obtain ⟨c, v, letters⟩ := List.exists_cons_of_ne_nil name.nonempty
  exact ⟨c, v ++ _, by rw [letters, List.cons_append], name.named c (letters ▸ List.mem_cons_self)⟩

theorem LeafText.isSolid {l : Leaf} {w y : List Char} (leaf : LeafText l w) : IsSolid (w ++ y) := by
  cases leaf with
  | text => exact ⟨by rintro c ⟨⟩; exact ⟨rfl, rfl, nofun, nofun⟩⟩
  | truth t => exact t.isName.isSolid y

theorem FieldText.isSolid {f : Field} {t y : List Char} (field : FieldText f t) :
    IsSolid (t ++ y) := by
  obtain ⟨key, -, -, -, -⟩ := field
  rw [List.append_assoc]
  exact key.isSolid _

theorem FieldsText.isSolid {column : Nat} {fs : List Field} (fields : FieldsText column r fs y) :
    IsSolid y := by
  cases fields with
  | last field => exact field.isSolid
  | more field => exact field.isSolid

theorem EntryText.isSolid {column : Nat} {e : Entry} (entry : EntryText column r e y) :
    IsSolid y := by
  cases entry with
  | field field => exact field.isSolid
  | group key => exact key.isSolid _

theorem EntriesText.isSolid {column : Nat} {es : List Entry} (entries : EntriesText column r es y) :
    IsSolid y := by
  cases entries with
  | last entry => exact entry.isSolid
  | more entry => exact entry.isSolid

end Phrasebook.Yaml
