import Mathlib.Data.String.Basic
import Phrasebook.Locale.Basic
import Phrasebook.Proofs.Cut
import Phrasebook.Proofs.Trim

/-!
Headers that list locales. A header is read as a list of names if and only if it writes that list:
its entries hold the names in their order, with blanks around them and weights behind them, and the
entries between these hold none. So a list is read back however it is written, and headers that are
joined list what they list alone.
-/

namespace Phrasebook

theorem splitAt_eq_splitOnP (isSeparator : Char → Bool) (cs : List Char) :
    splitAt isSeparator cs = cs.splitOnP isSeparator := by
  induction cs with
  | nil => rfl
  | cons c r ih =>
    rw [splitAt, ih, List.splitOnP_cons_eq_if_modifyHead]
    cases pieces : r.splitOnP isSeparator with
    | nil => exact absurd pieces (List.splitOnP_ne_nil isSeparator r)
    | cons piece pieces => rfl

theorem splitAt_plain (isSeparator : Char → Bool) (cs : List Char) :
    ∀ piece ∈ splitAt isSeparator cs, ∀ c ∈ piece, isSeparator c = false := by
  induction cs with
  | nil => simp [splitAt]
  | cons c r ih =>
    rw [splitAt]
    cases pieces : splitAt isSeparator r with
    | nil =>
      rw [splitAt_eq_splitOnP] at pieces
      exact absurd pieces (List.splitOnP_ne_nil isSeparator r)
    | cons piece pieces' =>
      rw [pieces] at ih
      obtain ⟨first, others⟩ := List.forall_mem_cons.mp ih
      by_cases separates : isSeparator c = true
      · simpa [separates] using ⟨first, others⟩
      · simpa [separates] using ⟨first, others⟩

namespace LanguageHeader

/-- A name that a header can list. -/
structure Listable (name : String) : Prop where
  notEmpty : name ≠ ""
  noSign : ∀ c ∈ name.toList, c ≠ ',' ∧ c ≠ ';'
  trimmed : Text.IsTrimmed name.toList

instance (name : String) : Decidable (Listable name) :=
  decidable_of_iff (name ≠ "" ∧ name.toList.all (fun c => c != ',' && c != ';') = true ∧
      Text.IsTrimmed name.toList) <| by
    constructor
    · rintro ⟨notEmpty, noSign, trimmed⟩
      exact ⟨notEmpty, by simpa [List.all_eq_true] using noSign, trimmed⟩
    · rintro ⟨notEmpty, noSign, trimmed⟩
      exact ⟨notEmpty, by simpa [List.all_eq_true] using noSign, trimmed⟩

/-- An entry with this name, or with none if the name is empty: there may be blanks around the name,
and behind a semicolon anything but a comma. -/
def Entry (name entry : String) : Prop :=
  ∃ before after weight : List Char, (∀ c ∈ before, Text.isBlank c = true) ∧
    (∀ c ∈ after, Text.isBlank c = true) ∧
    (weight = [] ∨ ∃ w, weight = ';' :: w ∧ ',' ∉ w) ∧
    entry.toList = before ++ name.toList ++ after ++ weight

/-- Entries that hold these names in this order, with others among them that hold none. -/
inductive Entries : List String → List String → Prop
  | nil : Entries [] []
  | name {name entry : String} {names entries : List String} (listable : Listable name)
      (holds : Entry name entry) (rest : Entries names entries) :
      Entries (name :: names) (entry :: entries)
  | blank {entry : String} {names entries : List String} (holds : Entry "" entry)
      (rest : Entries names entries) : Entries names (entry :: entries)

/-! ### One entry -/

theorem plain_of_named {name : String} (named : Listable name ∨ name = "") :
    Text.IsTrimmed name.toList ∧ ∀ c ∈ name.toList, c ≠ ',' ∧ c ≠ ';' := by
  rcases named with listable | rfl
  · exact ⟨listable.trimmed, listable.noSign⟩
  · exact ⟨⟨by simp, by simp⟩, by simp⟩

theorem ne_of_isBlank {c d : Char} (blank : Text.isBlank c = true)
    (visible : Text.isBlank d = false) : c ≠ d := by
  rintro rfl
  rw [visible] at blank
  cases blank

theorem Entry.noComma {name entry : String} (named : Listable name ∨ name = "")
    (holds : Entry name entry) : ',' ∉ entry.toList := by
  obtain ⟨before, after, weight, blankBefore, blankAfter, weighed, spelled⟩ := holds
  have comma : Text.isBlank ',' = false := by decide
  have noWeight : ',' ∉ weight := by
    rcases weighed with rfl | ⟨w, rfl, noComma⟩
    · simp
    · simpa using noComma
  have noSign := (plain_of_named named).2
  rw [spelled]
  simp only [List.mem_append, not_or]
  exact ⟨⟨⟨fun member => ne_of_isBlank (blankBefore _ member) comma rfl,
    fun member => (noSign _ member).1 rfl⟩,
    fun member => ne_of_isBlank (blankAfter _ member) comma rfl⟩, noWeight⟩

theorem headerEntry_of_entry {name entry : String} (named : Listable name ∨ name = "")
    (holds : Entry name entry) : headerEntry entry.toList = name := by
  obtain ⟨before, after, weight, blankBefore, blankAfter, weighed, spelled⟩ := holds
  have semicolon : Text.isBlank ';' = false := by decide
  obtain ⟨trimmed, noSign⟩ := plain_of_named named
  have plain : ∀ c ∈ before ++ name.toList ++ after, (c != ';') = true := by
    intro c member
    rw [bne_iff_ne]
    simp only [List.mem_append] at member
    rcases member with (member | member) | member
    · exact ne_of_isBlank (blankBefore c member) semicolon
    · exact (noSign c member).2
    · exact ne_of_isBlank (blankAfter c member) semicolon
  have front : entry.toList.takeWhile (· != ';') = before ++ name.toList ++ after := by
    rw [spelled]
    rcases weighed with rfl | ⟨w, rfl, -⟩
    · rw [List.append_nil]
      exact List.takeWhile_eq_self_iff.mpr plain
    · exact Text.takeWhile_cut plain (Text.bne_self ';') w
  rw [headerEntry, front, Text.trim_padded blankBefore blankAfter trimmed, String.ofList_toList]

theorem entry_headerEntry {piece : List Char} (noComma : ',' ∉ piece) :
    Entry (headerEntry piece) (String.ofList piece) := by
  obtain ⟨before, after, blankBefore, blankAfter, padded⟩ :=
    Text.exists_padded (piece.takeWhile (· != ';'))
  refine ⟨before, after, piece.dropWhile (· != ';'), blankBefore, blankAfter, ?_, ?_⟩
  · cases behind : piece.dropWhile (· != ';') with
    | nil => exact .inl rfl
    | cons c w =>
      have semicolon : c = ';' := by
        have stops := List.head?_dropWhile_not (· != ';') piece
        rw [behind] at stops
        simpa using stops
      have inside : c :: w <:+ piece := behind ▸ List.dropWhile_suffix _
      refine .inr ⟨w, by rw [semicolon], ?_⟩
      exact fun member => noComma (inside.subset (List.mem_cons_of_mem c member))
  · rw [headerEntry, String.toList_ofList, String.toList_ofList, ← padded,
      List.takeWhile_append_dropWhile]

theorem listable_headerEntry {piece : List Char} (noComma : ',' ∉ piece)
    (notEmpty : headerEntry piece ≠ "") : Listable (headerEntry piece) := by
  refine ⟨notEmpty, ?_, ?_⟩
  · intro c member
    obtain ⟨before, after, -, -, padded⟩ := Text.exists_padded (piece.takeWhile (· != ';'))
    have inside : c ∈ piece.takeWhile (· != ';') := by
      rw [padded]
      rw [headerEntry, String.toList_ofList] at member
      simp [member]
    refine ⟨?_, by simpa using List.mem_takeWhile_imp inside⟩
    rintro rfl
    exact noComma ((List.takeWhile_prefix _).subset inside)
  · rw [headerEntry, String.toList_ofList]
    exact Text.isTrimmed_trim _

/-! ### Whole headers -/

theorem languageHeader_append (h h' : String) :
    languageHeader (h ++ "," ++ h') = languageHeader h ++ languageHeader h' := by
  have spelled : (h ++ "," ++ h').toList = h.toList ++ ',' :: h'.toList := by simp
  rw [languageHeader, spelled, splitAt_eq_splitOnP, List.splitOnP_append_cons _ _ (by simp),
    List.map_append, List.filter_append, ← splitAt_eq_splitOnP, ← splitAt_eq_splitOnP]
  rfl

theorem languageHeader_single {entry : String} (noComma : ',' ∉ entry.toList) :
    languageHeader entry = [headerEntry entry.toList].filter (!·.isEmpty) := by
  have whole : ∀ c ∈ entry.toList, (c == ',') = false := by
    intro c member
    rw [beq_eq_false_iff_ne]
    rintro rfl
    exact noComma member
  rw [languageHeader, splitAt_eq_splitOnP, List.splitOnP_eq_singleton whole]
  rfl

theorem languageHeader_cons {entry : String} (noComma : ',' ∉ entry.toList)
    (entries : List String) : languageHeader (",".intercalate (entry :: entries)) =
      [headerEntry entry.toList].filter (!·.isEmpty) ++
        languageHeader (",".intercalate entries) := by
  by_cases more : entries = []
  · have nothing : languageHeader (",".intercalate []) = [] := by decide +kernel
    rw [more, nothing, List.append_nil, String.intercalate_singleton, languageHeader_single noComma]
  · rw [String.intercalate_cons_of_ne_nil more, languageHeader_append,
      languageHeader_single noComma]

theorem languageHeader_of_entries {names entries : List String} (written : Entries names entries) :
    languageHeader (",".intercalate entries) = names := by
  induction written with
  | nil => decide +kernel
  | name listable holds _ ih =>
    rw [languageHeader_cons (holds.noComma (.inl listable)),
      headerEntry_of_entry (.inl listable) holds, ih]
    simp [listable.notEmpty]
  | blank holds _ ih =>
    rw [languageHeader_cons (holds.noComma (.inr rfl)), headerEntry_of_entry (.inr rfl) holds, ih]
    rfl

theorem entries_of_pieces (pieces : List (List Char)) (plain : ∀ piece ∈ pieces, ',' ∉ piece) :
    Entries ((pieces.map headerEntry).filter (!·.isEmpty)) (pieces.map String.ofList) := by
  induction pieces with
  | nil => exact .nil
  | cons piece pieces ih =>
    obtain ⟨noComma, others⟩ := List.forall_mem_cons.mp plain
    rw [List.map_cons, List.map_cons]
    by_cases empty : headerEntry piece = ""
    · rw [List.filter_cons_of_neg (by simp [empty])]
      exact .blank (empty ▸ entry_headerEntry noComma) (ih others)
    · rw [List.filter_cons_of_pos (by simp [empty])]
      exact .name (listable_headerEntry noComma empty) (entry_headerEntry noComma) (ih others)

/-- Every header writes the list that it is read as. -/
theorem exists_entries (h : String) :
    ∃ entries, Entries (languageHeader h) entries ∧ h = ",".intercalate entries := by
  refine ⟨(splitAt (· == ',') h.toList).map String.ofList, ?_, ?_⟩
  · apply entries_of_pieces
    intro piece member comma
    have plain := splitAt_plain (· == ',') h.toList piece member ',' comma
    simp at plain
  · apply String.toList_inj.mp
    rw [String.toList_intercalate, List.map_map, splitAt_eq_splitOnP, ← List.splitOn_eq_splitOnP]
    simp [Function.comp_def, List.intercalate_splitOn]

theorem Entries.listable {names entries : List String} (written : Entries names entries) :
    ∀ name ∈ names, Listable name := by
  induction written with
  | nil => simp
  | name listable _ _ ih => exact List.forall_mem_cons.mpr ⟨listable, ih⟩
  | blank _ _ ih => exact ih

theorem entries_self {names : List String} (listable : ∀ name ∈ names, Listable name) :
    Entries names names := by
  induction names with
  | nil => exact .nil
  | cons name names ih =>
    obtain ⟨first, others⟩ := List.forall_mem_cons.mp listable
    exact .name first ⟨[], [], [], by simp, by simp, .inl rfl, by simp⟩ (ih others)

/-- A header is read as the list that it writes, so a list is read back from every header that
writes it, the plainest of which joins its names by commas; and every header writes a list. Headers
that are joined are read one after the other. -/
theorem read_iff_written :
    (∀ names entries, Entries names entries → languageHeader (",".intercalate entries) = names) ∧
    (∀ h names, languageHeader h = names ↔
      ∃ entries, Entries names entries ∧ h = ",".intercalate entries) ∧
    (∀ h, (∀ name ∈ languageHeader h, Listable name) ∧
      languageHeader (",".intercalate (languageHeader h)) = languageHeader h) ∧
    ∀ h h', languageHeader (h ++ "," ++ h') = languageHeader h ++ languageHeader h' := by
  refine ⟨fun _ _ => languageHeader_of_entries, ?_, ?_, languageHeader_append⟩
  · intro h names
    constructor
    · rintro rfl
      exact exists_entries h
    · rintro ⟨entries, written, rfl⟩
      exact languageHeader_of_entries written
  · intro h
    obtain ⟨entries, written, -⟩ := exists_entries h
    exact ⟨written.listable, languageHeader_of_entries (entries_self written.listable)⟩

/-- Blanks, weights and empty entries around two names, one of them twice. -/
theorem weighted_read :
    Entries ["fr-CH", "fr", "fr"] [" fr-CH ", "", ";q=0.9", "fr;q=0.9", "\tfr"] ∧
    languageHeader " fr-CH ,,;q=0.9,fr;q=0.9,\tfr" = ["fr-CH", "fr", "fr"] := by
  have swiss : Listable "fr-CH" := by decide +kernel
  have french : Listable "fr" := by decide +kernel
  have nothing : ∀ c ∈ ([] : List Char), Text.isBlank c = true := by simp
  have space : ∀ c ∈ [' '], Text.isBlank c = true := List.forall_mem_singleton.mpr (by decide)
  have tab : ∀ c ∈ ['\t'], Text.isBlank c = true := List.forall_mem_singleton.mpr (by decide)
  have noComma : ',' ∉ ['q', '=', '0', '.', '9'] := by decide
  have written : Entries ["fr-CH", "fr", "fr"] [" fr-CH ", "", ";q=0.9", "fr;q=0.9", "\tfr"] := by
    apply Entries.name swiss ⟨_, _, [], space, space, .inl rfl, by decide +kernel⟩
    apply Entries.blank ⟨_, _, [], nothing, nothing, .inl rfl, by decide +kernel⟩
    apply Entries.blank ⟨_, _, _, nothing, nothing, .inr ⟨_, rfl, noComma⟩, by decide +kernel⟩
    apply Entries.name french
      ⟨_, _, _, nothing, nothing, .inr ⟨_, rfl, noComma⟩, by decide +kernel⟩
    exact .name french ⟨_, _, [], tab, nothing, .inl rfl, by decide +kernel⟩ .nil
  exact ⟨written, read_iff_written.1 _ _ written⟩

end LanguageHeader
end Phrasebook
