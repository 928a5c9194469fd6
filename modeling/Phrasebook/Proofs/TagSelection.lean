import Phrasebook.Proofs.PublicTokens

/-!
Comparing tags, and choosing those of users. Sides are the same if their keys are, and their values
as far as both sides speak of one; so a bare key takes all tags of that key. What is left after the
bare keys of the system were taken out are the tags of users, in whatever order this is done, and
they are those that any other test for such tags finds.
-/

namespace Phrasebook

namespace TagSide

theorem equals_symm (a b : TagSide) : a.equals b = b.equals a := by
  cases a <;> cases b <;> simp [equals, keyText, value??, Bool.beq_comm]

theorem equals_tags_iff (s t : Tag) : (tag s).equals (tag t) = true ↔ s = t := by
  obtain ⟨key, value?⟩ := s
  obtain ⟨key', value'?⟩ := t
  simp [equals, keyText, value??]

theorem equals_key (k : String) (a : TagSide) : (key k).equals a = (k == a.keyText) := by
  simp [equals, keyText, value??]

theorem equals_of_key (a : TagSide) (k : String) : a.equals (key k) = (a.keyText == k) := by
  rw [equals_symm, equals_key, Bool.beq_comm]

theorem key_differs_tag (k : String) (t : Tag) : (key k).differs (tag t) = (k != t.key) := by
  rw [differs, equals_key, keyText, bne]

theorem filter_equals_differs (a : TagSide) (bs : List TagSide) :
    (bs.filter a.equals ++ bs.filter a.differs).Perm bs :=
  List.filter_append_perm a.equals bs

end TagSide

namespace Tag

/-! ### The tags of users -/

/-- What is left once all tags of these keys are taken out, one key after another. -/
def without (ks : List String) (ts : List Tag) : List Tag :=
  ks.foldl (fun left k => left.filter fun t => (TagSide.key k).differs (.tag t)) ts

theorem without_eq_filter (ks : List String) (ts : List Tag) :
    without ks ts = ts.filter fun t => t.key ∉ ks := by
  induction ks generalizing ts with
  | nil => simp [without]
  | cons k ks ih =>
    have first : without (k :: ks) ts =
        without ks (ts.filter fun t => (TagSide.key k).differs (.tag t)) := rfl
    rw [first, ih, List.filter_filter]
    apply List.filter_congr
    intro t _
    rw [TagSide.key_differs_tag, Bool.and_comm, Bool.eq_iff_iff]
    simp [ne_comm (a := k)]

theorem without_systemKeys {ks : List String} (all : ks.Perm systemKeys) (ts : List Tag) :
    without ks ts = ts.filter isPublic := by
  rw [without_eq_filter]
  apply List.filter_congr
  intro t _
  simp [isPublic, isSystem, all.mem_iff]

theorem parsePublic_isOk_iff {e : String} {t : Tag} (parsed : (parse e).value = .ok t) :
    (∃ u, (parsePublic e).value = .ok u) ↔ t.isPublic = true := by
  rw [isPublic_iff]
  constructor
  · rintro ⟨u, accepted⟩
    obtain ⟨parsed', user⟩ := parsePublic_eq_ok_iff.mp accepted
    rw [parsed] at parsed'
    cases parsed'
    exact user
  · intro user
    exact ⟨t, parsePublic_eq_ok_iff.mpr ⟨parsed, user⟩⟩

/-- The tags of users can be found by the choice of sides, by the owner of their keys, and by taking
out the keys of the system one after another; the same are left in the same order, and in order they
are the tags that are shown. What can be read as a tag can be written by users if the tag is one of
theirs. A comparison leaves nothing out: each side is either the same or differs. It does not depend
on which side is compared with which, it tells tags apart exactly, and beside a bare key it asks for
the key alone. -/
theorem users_agree :
    (∀ (ts : List Tag) (ks : List String), ks.Perm systemKeys →
      ts.filter (fun t => (TagSide.tag t).isUserSide) = ts.filter isPublic ∧
      without ks ts = ts.filter isPublic ∧
      (ts.filter isPublic).mergeSort le = userTags ts) ∧
    (∀ e t, (parse e).value = .ok t →
      ((∃ u, (parsePublic e).value = .ok u) ↔ (TagSide.tag t).isUserSide = true)) ∧
    (∀ (a : TagSide) (bs : List TagSide),
      (bs.filter a.equals ++ bs.filter a.differs).Perm bs ∧
      ∀ b ∈ bs, b ∈ bs.filter a.equals ↔ b ∉ bs.filter a.differs) ∧
    (∀ a b : TagSide, a.equals b = b.equals a) ∧
    (∀ s t : Tag, (TagSide.tag s).equals (.tag t) = true ↔ s = t) ∧
    ∀ (k : String) (a : TagSide), ((TagSide.key k).equals a = true ↔ k = a.keyText) ∧
      (a.equals (.key k) = true ↔ a.keyText = k) := by
  refine ⟨?_, fun _ _ => parsePublic_isOk_iff, ?_, TagSide.equals_symm, TagSide.equals_tags_iff, ?_⟩
  · intro ts ks all
    exact ⟨rfl, without_systemKeys all ts, mergeSort_filter_isPublic ts⟩
  · intro a bs
    refine ⟨TagSide.filter_equals_differs a bs, ?_⟩
    intro b member
    simp [TagSide.differs, member]
  · intro k a
    rw [TagSide.equals_key, TagSide.equals_of_key, beq_iff_eq, beq_iff_eq]
    exact ⟨.rfl, .rfl⟩

theorem draft_left :
    ["ext", "size", "name", "content_type"].Perm systemKeys ∧
    without ["ext", "size", "name", "content_type"] [⟨"draft", none⟩, ⟨"size", some "10"⟩] =
      [⟨"draft", none⟩].filter isPublic ∧
    (parse "size:10").value = .ok ⟨"size", some "10"⟩ ∧
    ¬∃ u, (parsePublic "size:10").value = .ok u := by
  have all : ["ext", "size", "name", "content_type"].Perm systemKeys := by decide
  have parsed : (parse "size:10").value = .ok ⟨"size", some "10"⟩ := by decide
  have left := (users_agree.1 [⟨"draft", none⟩, ⟨"size", some "10"⟩] _ all).2.1
  refine ⟨all, left, parsed, ?_⟩
  rw [users_agree.2.1 "size:10" _ parsed]
  decide

end Tag
end Phrasebook
