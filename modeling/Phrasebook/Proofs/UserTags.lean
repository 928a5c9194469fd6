import Phrasebook.Command.Run
import Phrasebook.Proofs.Except
import Phrasebook.Proofs.Token

/-!
The tags of users, and what their tokens say. Tags are chosen by their keys, but what is printed are
tokens, and the key of a token ends at its first colon. The two agree on every tag that came as a
token; a record can have a key that goes on behind a colon, and its token is that of a system tag if
what stands before the colon is a key of the system.
-/

namespace Phrasebook

namespace Tag

/-! ### Which tags are chosen -/

theorem isPublic_iff (t : Tag) : t.isPublic = true ↔ t.key ∉ systemKeys := by
  simp [isPublic, isSystem]

theorem mem_userTags {t : Tag} {ts : List Tag} : t ∈ userTags ts ↔ t ∈ ts ∧ t.key ∉ systemKeys := by
  rw [userTags, List.mem_filter, List.mem_mergeSort]
  simp [TagSide.isUserSide, TagSide.keyText]

/-! ### What their tokens say -/

/-- A key of the system and more behind a colon. -/
def ExtendsSystemKey (key : String) : Prop := ∃ k ∈ systemKeys, ∃ rest, key = k ++ ":" ++ rest

theorem noColon_of_mem_systemKeys : ∀ k ∈ systemKeys, ':' ∉ k.toList := by decide

/-- The tokens of system tags are the keys of the system, alone or with more behind a colon. -/
theorem key_split_mem_systemKeys (token : String) :
    (split token).key ∈ systemKeys ↔ token ∈ systemKeys ∨ ExtendsSystemKey token := by
  constructor
  · intro system
    rcases token_cases token with noColon | ⟨key, value, noColon, rfl⟩
    · rw [split_of_noColon noColon] at system
      exact .inl system
    · rw [split_cut noColon] at system
      exact .inr ⟨key, system, value, rfl⟩
  · rintro (system | ⟨key, system, rest, rfl⟩)
    · rw [split_of_noColon (noColon_of_mem_systemKeys token system)]
      exact system
    · rw [split_cut (noColon_of_mem_systemKeys key system)]
      exact system

theorem noColon_of_not_extends {key : String} (noColon : ':' ∉ key.toList) :
    ¬ExtendsSystemKey key := by
  rintro ⟨k, -, rest, rfl⟩
  simp at noColon

theorem isPublic_split_concat {t : Tag} (user : t.key ∉ systemKeys) :
    (split t.concat).isPublic = true ↔ ¬ExtendsSystemKey t.key := by
  rw [isPublic_iff, key_split_concat, key_split_mem_systemKeys]
  simp [user]

/-- Only a record can have a key with a colon. -/
theorem record_of_extends {items : List TagItem} {t : Tag}
    (given : t ∈ items.map TagItem.tag) (extended : ExtendsSystemKey t.key) :
    TagItem.record t ∈ items := by
  obtain ⟨item, member, rfl⟩ := List.mem_map.mp given
  cases item with
  | token s => exact absurd extended (noColon_of_not_extends (noColon_key_split s))
  | record t => exact member

end Tag

/-! ### What is printed -/

namespace TagCommand

/-- A tag that was put in: the token itself, or the item that is read from a record. -/
def Given (s : String) (item : TagItem) : Prop := item = .token s ∨ TagItem.ofJsonText s = .ok item

theorem given_of_input {s : String} {t : Tag} (read : input s = .ok t) :
    ∃ item, Given s item ∧ item.tag = t := by
  unfold input at read
  split at read
  · cases parsed : TagItem.ofJsonText s with
    | error fault => simp [parsed] at read
    | ok item =>
      rw [parsed] at read
      exact ⟨item, .inr parsed, Except.ok.inj read⟩
  · exact ⟨.token s, .inl rfl, Except.ok.inj read⟩

theorem given_of_inputs {inputs : List String} {ts : List Tag}
    (read : List.Forall₂ (fun s t => input s = .ok t) inputs ts) :
    ∃ items, List.Forall₂ Given inputs items ∧ items.map TagItem.tag = ts := by
  induction read with
  | nil => exact ⟨[], .nil, rfl⟩
  | cons first _ ih =>
    obtain ⟨item, given, rfl⟩ := given_of_input first
    obtain ⟨items, allGiven, rfl⟩ := ih
    exact ⟨item :: items, .cons given allGiven, rfl⟩

theorem run_user_value (inputs : List String) :
    (run (.user inputs)).value = (inputs.mapM input).map userText := rfl

theorem run_user {inputs : List String} {output : String}
    (done : (run (.user inputs)).value = .ok output) :
    ∃ items, List.Forall₂ Given inputs items ∧
      output = "\n".intercalate ((Tag.userTags (items.map TagItem.tag)).map Tag.concat) := by
  rw [run_user_value, Except.map_eq_ok_iff] at done
  obtain ⟨ts, read, rfl⟩ := done
  obtain ⟨items, given, rfl⟩ := given_of_inputs ((Except.mapM_eq_ok_iff input).mp read)
  exact ⟨items, given, rfl⟩

end TagCommand

namespace Tag

/-- The token of a tag of users is read back as a tag of users, unless the tag was put in as a
record whose key is a key of the system and more behind a colon. The command prints these tokens and
no others. -/
theorem userTags_read_back :
    (∀ items : List TagItem, ∀ t ∈ userTags (items.map TagItem.tag),
      ((split t.concat).isPublic = true ↔
        ¬(.record t ∈ items ∧ ∃ k ∈ systemKeys, ∃ rest, t.key = k ++ ":" ++ rest))) ∧
    ∀ inputs output, (TagCommand.run (.user inputs)).value = .ok output →
      ∃ items, List.Forall₂ TagCommand.Given inputs items ∧
        output = "\n".intercalate ((userTags (items.map TagItem.tag)).map concat) := by
  refine ⟨?_, fun _ _ => TagCommand.run_user⟩
  intro items t chosen
  obtain ⟨given, user⟩ := mem_userTags.mp chosen
  rw [isPublic_split_concat user, not_iff_not]
  constructor
  · intro extended
    exact ⟨record_of_extends given extended, extended⟩
  · exact And.right

/-- A tag of the system, a tag of users, and a record that is read back as a tag of the system. -/
def mixedItems : List TagItem := [.token "size:10", .token "alpha:1", .record ⟨"name:report", none⟩]

theorem alpha_read_back :
    (⟨"alpha", some "1"⟩ ∈ userTags (mixedItems.map TagItem.tag) ∧
      (split "alpha:1").isPublic = true) ∧
    (TagCommand.run (.user ["size:10", "alpha:1"])).value = .ok "alpha:1" ∧
      ∃ items, List.Forall₂ TagCommand.Given ["size:10", "alpha:1"] items ∧
        "alpha:1" = "\n".intercalate ((userTags (items.map TagItem.tag)).map concat) := by
  have chosen : ⟨"alpha", some "1"⟩ ∈ userTags (mixedItems.map TagItem.tag) :=
    mem_userTags.mpr ⟨by decide, by decide⟩
  have plain : ¬∃ k ∈ systemKeys, ∃ rest, "alpha" = k ++ ":" ++ rest :=
    noColon_of_not_extends (by decide)
  have read : ["size:10", "alpha:1"].mapM TagCommand.input =
      .ok [⟨"size", some "10"⟩, ⟨"alpha", some "1"⟩] := rfl
  have chosenAlone : userTags [⟨"size", some "10"⟩, ⟨"alpha", some "1"⟩] =
      [⟨"alpha", some "1"⟩] :=
    List.perm_singleton.mp ((List.mergeSort_perm _ le).filter _)
  have done : (TagCommand.run (.user ["size:10", "alpha:1"])).value = .ok "alpha:1" := by
    have taken : (TagCommand.run (.user ["size:10", "alpha:1"])).value =
        (["size:10", "alpha:1"].mapM TagCommand.input).map TagCommand.userText := rfl
    rw [taken, read, Except.map, TagCommand.userText, chosenAlone]
    rfl
  exact ⟨⟨chosen, (userTags_read_back.1 mixedItems _ chosen).mpr fun both => plain both.2⟩, done,
    userTags_read_back.2 _ _ done⟩

/-- A tag of users whose token is that of a tag of the system. -/
theorem record_read_as_system :
    ¬∀ t ∈ userTags ([TagItem.record ⟨"name:report", none⟩].map TagItem.tag),
      (split t.concat).isPublic = true := by
  intro allPublic
  have chosen : ⟨"name:report", none⟩ ∈
      userTags ([TagItem.record ⟨"name:report", none⟩].map TagItem.tag) :=
    mem_userTags.mpr ⟨by decide, by decide⟩
  have ofSystem : (split (concat ⟨"name:report", none⟩)).isPublic = false := by decide
  exact absurd (allPublic _ chosen) (by rw [ofSystem]; decide)

end Tag
end Phrasebook
