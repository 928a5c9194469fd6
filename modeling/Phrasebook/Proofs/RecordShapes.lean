import Phrasebook.Proofs.RecordReading

/-!
Whole texts where a record is expected, or a tag in either shape. What is accepted as a record is
accepted in either shape, as the same record, if the text can be read as a value at all. If it
cannot, this is because of a limit of values that skipped members do not have.
-/

namespace Phrasebook

open Json

/-! ### Whole texts -/

namespace Json

variable {α β : Type} {reader : List Char → Read (Then α)} {text : String}

theorem readAll_of_error {s : Stop} (stops : reader text.toList = .error s) :
    readAll reader text = .error (s.fault text.toList) := by
  simp only [readAll, stops]
  rfl

theorem readAll_of_ok {q : Then α} (read : reader text.toList = .ok q) :
    readAll reader text = ((atEnd q.2).map fun _ => q.1).mapError (Stop.fault text.toList) := by
  simp only [readAll, read]
  change (atEnd q.2 >>= fun _ => pure q.1).mapError _ = _
  cases atEnd q.2 <;> rfl

theorem readAll_toOption (reader : List Char → Read (Then α)) (text : String) :
    (readAll reader text).toOption =
      (reader text.toList).toOption.bind fun q => (atEnd q.2).toOption.map fun _ => q.1 := by
  cases read : reader text.toList with
  | error s =>
    rw [readAll_of_error read]
    rfl
  | ok q =>
    rw [readAll_of_ok read]
    change _ = (atEnd q.2).toOption.map fun _ => q.1
    cases atEnd q.2 <;> rfl

theorem Stop.cause_fault (s : Stop) (source : List Char) : (s.fault source).cause = s.cause := by
  cases s <;> rfl

theorem atEnd_cases (r : List Char) :
    atEnd r = .ok () ∨ ∃ s, atEnd r = .error s ∧ s.cause.isLimit = false := by
  unfold atEnd
  cases skipBlanks r with
  | nil => exact .inl rfl
  | cons c r' => exact .inr ⟨_, rfl, rfl⟩

/-- A limit is met inside of a value, not behind it. -/
theorem stop_of_limit {fault : Fault} (failed : readAll reader text = .error fault)
    (limit : fault.cause.isLimit = true) :
    ∃ s, reader text.toList = .error s ∧ s.fault text.toList = fault := by
  cases read : reader text.toList with
  | error s =>
    rw [readAll_of_error read] at failed
    exact ⟨s, rfl, Except.error.inj failed⟩
  | ok q =>
    rw [readAll_of_ok read] at failed
    rcases atEnd_cases q.2 with ends | ⟨s, trailing, within⟩
    · rw [ends] at failed
      cases failed
    · rw [trailing] at failed
      obtain rfl : s.fault text.toList = fault := Except.error.inj failed
      rw [Stop.cause_fault, within] at limit
      cases limit

/-! ### A reader that follows another -/

variable {reader' : List Char → Read (Then β)} {h : α → Option β}

/-- What is made of what comes next is made of the whole. -/
theorem readAll_made (same : (reader' text.toList).toOption =
      (reader text.toList).toOption.bind fun q => (h q.1).map fun b => (b, q.2)) :
    (readAll reader' text).toOption = (readAll reader text).toOption.bind h := by
  rw [readAll_toOption, readAll_toOption, same]
  cases reader text.toList with
  | error s => rfl
  | ok q =>
    change ((h q.1).map _).bind _ = ((atEnd q.2).toOption.map fun _ => q.1).bind h
    cases made : h q.1 <;> cases ends : (atEnd q.2).toOption <;> simp [made, ends]

theorem readAll_of_follows {a : α} (read : readAll reader text = .ok a)
    (follows : Follows h (reader' text.toList).toOption (reader text.toList)) :
    (readAll reader' text).toOption = h a := by
  have whole := readAll_toOption reader text
  rw [read] at whole
  cases given : reader text.toList with
  | error s =>
    rw [given] at whole
    cases whole
  | ok q =>
    rw [given] at whole follows
    have same : (reader' text.toList).toOption = (h q.1).map fun b => (b, q.2) := follows
    obtain ⟨⟨⟩, ends, rfl⟩ := Option.map_eq_some_iff.mp whole.symm
    rw [readAll_toOption, same]
    cases h q.1 with
    | none => rfl
    | some b => simp only [Option.map_some, Option.bind_some, ends]

theorem isLimit_of_follows {b : β} {fault : Fault} (read : readAll reader' text = .ok b)
    (failed : readAll reader text = .error fault)
    (follows : Follows h (reader' text.toList).toOption (reader text.toList)) :
    fault.cause.isLimit = true := by
  have whole := readAll_toOption reader' text
  rw [read] at whole
  obtain ⟨q', given', ends⟩ := Option.bind_eq_some_iff.mp whole.symm
  cases given : reader text.toList with
  | error s =>
    rw [given, given'] at follows
    rw [readAll_of_error given] at failed
    obtain rfl : s.fault text.toList = fault := Except.error.inj failed
    rw [Stop.cause_fault]
    exact follows.resolve_left nofun
  | ok q =>
    rw [given, given'] at follows
    obtain ⟨b', -, rfl⟩ := Option.map_eq_some_iff.mp (Eq.symm follows)
    rw [readAll_of_ok given] at failed
    obtain ⟨⟨⟩, ends, -⟩ := Option.map_eq_some_iff.mp ends
    rw [Except.toOption_eq_some_iff.mp ends] at failed
    cases failed

end Json

/-! ### Records, and tags in either shape -/

variable {text : String}

namespace Tag

theorem readRecord_follows_read (text : String) :
    Follows ofJson? (readRecord text.toList).toOption
      (readValue (enough text.toList) depthLimit text.toList) :=
  readRecord_follows (by decide) (Nat.le_refl _)

theorem ofJsonText_of_read {j : Json} (read : Json.read text = .ok j) :
    (ofJsonText text).toOption = ofJson? j :=
  readAll_of_follows read (readRecord_follows_read text)

theorem isLimit_of_ofJsonText {t : Tag} {fault : Fault} (given : ofJsonText text = .ok t)
    (failed : Json.read text = .error fault) : fault.cause.isLimit = true :=
  isLimit_of_follows given failed (readRecord_follows_read text)

theorem string?_eq_some_iff {j : Json} {s : String} : string? j = some s ↔ j = .string s := by
  cases j <;> simp [string?]

/-- A whole text is read as a string if it is one. -/
theorem readText_eq_ok_iff {s : String} :
    readAll readText text = .ok s ↔ Json.read text = .ok (.string s) := by
  have made : (readAll readText text).toOption = (Json.read text).toOption.bind string? :=
    readAll_made (readText_toOption (2 * text.toList.length + 3) depthLimit text.toList)
  simp only [← Except.toOption_eq_some_iff, made, Option.bind_eq_some_iff, string?_eq_some_iff,
    exists_eq_right]

end Tag

namespace TagItem

theorem readItem_toOption (depth : Nat) (cs : List Char) :
    (readItem depth cs).toOption = (readValue (enough cs) depth cs).toOption.bind fun q =>
      (ofJson? q.1).map fun i => (i, q.2) := by
  rw [readItem, Except.toOption_bind]
  congr 1
  funext q
  obtain ⟨j, r⟩ := q
  cases made : ofJson? j <;> simp [made, Except.toOption]

theorem ofJsonText_eq_ok_iff {i : TagItem} :
    ofJsonText text = .ok i ↔ ∃ j, Json.read text = .ok j ∧ ofJson? j = some i := by
  have made : (ofJsonText text).toOption = (Json.read text).toOption.bind ofJson? :=
    readAll_made (readItem_toOption depthLimit text.toList)
  simp only [← Except.toOption_eq_some_iff, made, Option.bind_eq_some_iff]

theorem ofJsonText_of_limit {fault : Fault} (failed : Json.read text = .error fault)
    (limit : fault.cause.isLimit = true) : ofJsonText text = .error fault := by
  obtain ⟨s, stops, rfl⟩ := stop_of_limit failed limit
  apply readAll_of_error
  rw [readItem, stops]
  rfl

theorem ofJson?_eq_token_iff {j : Json} {s : String} :
    ofJson? j = some (.token s) ↔ j = .string s := by
  cases j <;> simp [ofJson?]

theorem ofJson?_eq_record_iff {j : Json} {t : Tag} :
    ofJson? j = some (.record t) ↔ Tag.ofJson? j = some t := by
  have other : (Tag.ofJson? j).map TagItem.record = some (.record t) ↔ Tag.ofJson? j = some t := by
    cases Tag.ofJson? j <;> simp
  cases j with
  | string s => exact ⟨nofun, nofun⟩
  | _ => exact other

theorem ofJsonText_eq_record_iff {t : Tag} :
    ofJsonText text = .ok (.record t) ↔
      Tag.ofJsonText text = .ok t ∧ ∃ j, Json.read text = .ok j := by
  simp only [ofJsonText_eq_ok_iff, ofJson?_eq_record_iff]
  constructor
  · rintro ⟨j, read, holds⟩
    have same := Tag.ofJsonText_of_read read
    exact ⟨Except.toOption_eq_some_iff.mp (same.trans holds), j, read⟩
  · rintro ⟨given, j, read⟩
    have same := Tag.ofJsonText_of_read read
    exact ⟨j, read, same.symm.trans (Except.toOption_eq_some_iff.mpr given)⟩

theorem ofJsonText_eq_token_iff {s : String} :
    ofJsonText text = .ok (.token s) ↔ readAll Tag.readText text = .ok s := by
  simp only [ofJsonText_eq_ok_iff, ofJson?_eq_token_iff, exists_eq_right, Tag.readText_eq_ok_iff]

/-- One text, read as a record or as a tag in either shape. It is read as the same record, if it can
be read as a value at all. If it cannot, but is read as a record, it goes beyond a limit of values,
and this is what is said of it. It is read as a token if it is a string, and then it is not read as
a record. -/
theorem shapes_agree (text : String) :
    (∀ t, ofJsonText text = .ok (.record t) ↔
      Tag.ofJsonText text = .ok t ∧ ∃ j, Json.read text = .ok j) ∧
    (∀ t fault, Tag.ofJsonText text = .ok t → Json.read text = .error fault →
      fault.cause.isLimit = true ∧ ofJsonText text = .error fault) ∧
    ∀ s, (ofJsonText text = .ok (.token s) ↔ readAll Tag.readText text = .ok s) ∧
      (readAll Tag.readText text = .ok s → ∀ t, Tag.ofJsonText text ≠ .ok t) := by
  refine ⟨fun t => ofJsonText_eq_record_iff, ?_, fun s => ⟨ofJsonText_eq_token_iff, ?_⟩⟩
  · intro t fault given failed
    have limit := Tag.isLimit_of_ofJsonText given failed
    exact ⟨limit, ofJsonText_of_limit failed limit⟩
  · intro given
    have none : (Tag.ofJsonText text).toOption = none :=
      Tag.ofJsonText_of_read (Tag.readText_eq_ok_iff.mp given)
    exact Except.toOption_eq_none_iff.mp none

/-- A record with a member that records do not have, which stands first and holds objects. -/
def noted : String := " \x7b\"note\":[\x7b\"key\":1\x7d],\"value\":null,\"key\":\"a\"\x7d"

/-- Such a member that holds half a pair of surrogates. -/
def halfPair : String := "\x7b\"key\":\"a\",\"note\":\"\\ud800\"\x7d"

def smile : String := "\"\\ud83d\\ude00\""

theorem halfPair_record : Tag.ofJsonText halfPair = .ok ⟨"a", none⟩ :=
  Except.toOption_eq_some_iff.mp (by decide +kernel)

theorem halfPair_unread : ∃ fault, Json.read halfPair = .error fault := by
  have unread : (Json.read halfPair).toOption.isSome = false := by decide +kernel
  cases read : Json.read halfPair with
  | ok j =>
    rw [read] at unread
    cases unread
  | error fault => exact ⟨fault, rfl⟩

theorem noted_in_either_shape :
    (Tag.ofJsonText noted = .ok ⟨"a", none⟩ ∧ (∃ j, Json.read noted = .ok j) ∧
      ofJsonText noted = .ok (.record ⟨"a", none⟩)) ∧
    (∃ fault, Json.read halfPair = .error fault ∧ fault.cause.isLimit = true ∧
      ofJsonText halfPair = .error fault) ∧
    readAll Tag.readText smile = .ok "😀" ∧ ofJsonText smile = .ok (.token "😀") ∧
      Tag.ofJsonText smile ≠ .ok ⟨"😀", none⟩ := by
  have record : Tag.ofJsonText noted = .ok ⟨"a", none⟩ :=
    Except.toOption_eq_some_iff.mp (by decide +kernel)
  have read : ∃ j, Json.read noted = .ok j := by
    have read : (Json.read noted).toOption.isSome = true := by decide +kernel
    obtain ⟨j, given⟩ := Option.isSome_iff_exists.mp read
    exact ⟨j, Except.toOption_eq_some_iff.mp given⟩
  have string : readAll Tag.readText smile = .ok "😀" :=
    Except.toOption_eq_some_iff.mp (by decide +kernel)
  obtain ⟨fault, failed⟩ := halfPair_unread
  obtain ⟨limit, same⟩ := (shapes_agree halfPair).2.1 _ fault halfPair_record failed
  obtain ⟨token, notRecord⟩ := (shapes_agree smile).2.2 "😀"
  exact ⟨⟨record, read, ((shapes_agree noted).1 _).mpr ⟨record, read⟩⟩,
    ⟨fault, failed, limit, same⟩, string, token.mpr string, notRecord string _⟩

/-- What is skipped need not be a value: this record is accepted, but not where a token may stand in
its place. -/
theorem halfPair_in_one_shape :
    Tag.ofJsonText halfPair = .ok ⟨"a", none⟩ ∧
      ofJsonText halfPair ≠ .ok (.record ⟨"a", none⟩) := by
  refine ⟨halfPair_record, ?_⟩
  intro given
  obtain ⟨fault, failed⟩ := halfPair_unread
  obtain ⟨j, read, -⟩ := ofJsonText_eq_ok_iff.mp given
  rw [failed] at read
  cases read

end TagItem
end Phrasebook
