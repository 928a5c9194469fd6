import Phrasebook.Proofs.Except
import Phrasebook.Proofs.JsonText
import Phrasebook.Proofs.UserTags

/-!
Tags as records. A list of tags, tokens and records in any mixture, is read back from its JSON text;
so what is printed for a token can be put in again for it, and stands for the same tag.
-/

namespace Phrasebook

open Json

/-! ### Tags in JSON -/

namespace TagItem

theorem ofJson?_toJson (i : TagItem) : ofJson? i.toJson = some i := by
  cases i with
  | token s => rfl
  | record t =>
    obtain ⟨key, value?⟩ := t
    cases value? <;> rfl

theorem plain_toJson (i : TagItem) : Plain 1 i.toJson := by
  cases i with
  | token s => exact .string s
  | record t =>
    apply Plain.object
    intro m member
    rcases List.mem_cons.mp member with rfl | rest
    · exact .string t.key
    · rw [List.mem_singleton.mp rest]
      cases t.value? with
      | none => exact .null
      | some v => exact .string v

theorem readValue_item (i : TagItem) {limit : Nat} (deep : 1 < limit) (r : List Char) :
    readValue (enough (itemText i.toJson ++ r)) limit (itemText i.toJson ++ r) =
      .ok (i.toJson, r) := by
  apply i.plain_toJson.readsBack deep
  simp only [enough, List.length_append]
  omega

theorem ofJsonText_text (i : TagItem) : ofJsonText i.toJson.text = .ok i := by
  apply readAll_of_read
  have read := i.readValue_item (by decide : 1 < depthLimit) []
  rw [List.append_nil] at read
  change readItem depthLimit (itemText i.toJson) = .ok (i, [])
  simp only [readItem, read, bind, Except.bind, ofJson?_toJson]

theorem readItems_listed (items : List TagItem) (isFirst : Bool) (r : List Char) {fuel : Nat}
    (enough : (listed isFirst (items.map fun i => itemText i.toJson)).length < fuel) :
    readItems fuel isFirst (listed isFirst (items.map fun i => itemText i.toJson) ++ ']' :: r) =
      .ok (items, ']' :: r) := by
  induction items generalizing isFirst fuel with
  | nil =>
    obtain ⟨fuel, rfl⟩ := Nat.exists_eq_succ_of_ne_zero (Nat.ne_zero_of_lt enough)
    rw [readItems, List.map_nil, nextItem_end]
    rfl
  | cons i items ih =>
    obtain ⟨fuel, rfl⟩ := Nat.exists_eq_succ_of_ne_zero (Nat.ne_zero_of_lt enough)
    have opens := i.plain_toJson.opens
    have given := opens.length_pos
    have lengths := length_listed_cons isFirst (itemText i.toJson)
      (items.map fun i => itemText i.toJson)
    rw [List.map_cons] at enough ⊢
    rw [readItems, nextItem_listed opens]
    simp only [bind, Except.bind, Except.mapError]
    rw [i.readValue_item (by decide : 1 < depthLimit - 1)]
    simp only [ofJson?_toJson]
    rw [ih false (by omega)]

theorem listOfJsonText_text (items : List TagItem) :
    listOfJsonText (Json.array (items.map toJson)).text = .ok items := by
  apply readAll_of_read
  have written : itemText (.array (items.map toJson)) =
      '[' :: (listed true (items.map fun i => itemText i.toJson) ++ [']']) := by
    rw [itemText_array, List.map_map]
    rfl
  change readList (itemText (.array (items.map toJson))) = .ok (items, [])
  have opened (r : List Char) :
      readList ('[' :: r) = Tag.close listEnd (readItems (r.length + 1) true r) := rfl
  rw [written, opened, readItems_listed items true [] (by rw [List.length_append]; omega)]
  rfl

end TagItem

/-! ### Tags put in -/

namespace TagCommand

/-- Behind white space, the text opens like a record. -/
def StartsRecord (s : String) : Prop := (s.toList.dropWhile Text.isBlank).head? = some '\x7b'

instance (s : String) : Decidable (StartsRecord s) := inferInstanceAs (Decidable (_ = _))

theorem input_of_record {s : String} (starts : StartsRecord s) :
    input s = ((TagItem.ofJsonText s).map TagItem.tag).mapError .badRecord := by
  obtain ⟨r, split⟩ := List.head?_eq_some_iff.mp starts
  simp only [input, split]
  cases TagItem.ofJsonText s <;> rfl

theorem input_of_token {s : String} (plain : ¬StartsRecord s) : input s = .ok (.split s) := by
  unfold input
  split
  · next split => exact absurd (by simp [StartsRecord, split]) plain
  · rfl

theorem run_user_of_inputs {inputs : List String} {ts : List Tag}
    (read : List.Forall₂ (fun s t => input s = .ok t) inputs ts) :
    (run (.user inputs)).value = .ok (userText ts) := by
  rw [run_user_value, (Except.mapM_eq_ok_iff input).mpr read]
  rfl

theorem run_user_of_tokens {tokens : List String} (plain : ∀ s ∈ tokens, ¬StartsRecord s) :
    (run (.user tokens)).value = .ok (userText (tokens.map Tag.split)) := by
  apply run_user_of_inputs
  rw [List.forall₂_map_right_iff, List.forall₂_same]
  exact fun s member => input_of_token (plain s member)

theorem startsRecord_splitText (t : Tag) : StartsRecord (splitText t) := by
  have written : (splitText t).toList = _ := itemText_object _
  rw [StartsRecord, written]
  rfl

/-- The record that is printed for a tag is read as this tag. -/
theorem input_splitText (t : Tag) : input (splitText t) = .ok t := by
  rw [input_of_record (startsRecord_splitText t)]
  have back : TagItem.ofJsonText (splitText t) = .ok (.record t) := TagItem.ofJsonText_text (.record t)
  rw [back]
  rfl

/-- Tags are read back from JSON as they were. Records that are printed for tokens can be put in for
the tokens, and so can the tokens themselves, as long as none opens like a record. -/
theorem user_of_printed :
    (∀ items : List TagItem,
      TagItem.listOfJsonText (Json.array (items.map TagItem.toJson)).text = .ok items) ∧
    ∀ tokens : List String,
      (∃ records, List.Forall₂ (fun s r => (run (.split s false)).value = .ok r) tokens records ∧
        (run (.user records)).value =
          .ok ("\n".intercalate ((Tag.userTags (tokens.map Tag.split)).map Tag.concat))) ∧
      ((∀ s ∈ tokens, ¬StartsRecord s) → (run (.user tokens)).value =
        .ok ("\n".intercalate ((Tag.userTags (tokens.map Tag.split)).map Tag.concat))) := by
  refine ⟨TagItem.listOfJsonText_text, ?_⟩
  intro tokens
  constructor
  · refine ⟨tokens.map fun s => splitText (.split s), ?_, ?_⟩
    · rw [List.forall₂_map_right_iff, List.forall₂_same]
      exact fun s _ => rfl
    · apply run_user_of_inputs
      rw [List.forall₂_map_left_iff, List.forall₂_map_right_iff, List.forall₂_same]
      exact fun s _ => input_splitText (.split s)
  · exact run_user_of_tokens

/-- Quotation marks and control characters in a token do no harm. -/
theorem quoted_put_in_again :
    (∀ s ∈ ["say:\"hi\"\t\\", "size:10"], ¬StartsRecord s) ∧
    (run (.user ["say:\"hi\"\t\\", "size:10"])).value = .ok "say:\"hi\"\t\\" ∧
    ∃ records, List.Forall₂ (fun s r => (run (.split s false)).value = .ok r)
        ["say:\"hi\"\t\\", "size:10"] records ∧
      (run (.user records)).value = .ok "say:\"hi\"\t\\" := by
  have plain : ∀ s ∈ ["say:\"hi\"\t\\", "size:10"], ¬StartsRecord s := by decide
  have chosen : Tag.userTags (["say:\"hi\"\t\\", "size:10"].map Tag.split) =
      [⟨"say", some "\"hi\"\t\\"⟩] :=
    List.perm_singleton.mp ((List.mergeSort_perm _ Tag.le).filter _)
  obtain ⟨⟨records, printed, again⟩, putIn⟩ := user_of_printed.2 ["say:\"hi\"\t\\", "size:10"]
  rw [chosen] at again putIn
  exact ⟨plain, putIn plain, records, printed, again⟩

end TagCommand
end Phrasebook
