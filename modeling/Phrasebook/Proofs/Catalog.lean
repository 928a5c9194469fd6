import Mathlib.Order.Basic
import Mathlib.Data.String.Basic
import Phrasebook.Catalog

/-!
A catalog is a grouping. Its shelves stand in the strict order of their locales and none is empty;
every push keeps this, and then the shelf of a locale holds the documents pushed for it, in the
order of the pushes, whatever was pushed for other locales in between.
-/

namespace Phrasebook

theorem Locale.eq_of_name {a b : Locale} (same : a.name = b.name) : a = b := by
  cases a
  cases b
  exact congrArg Locale.mk same

namespace Catalog

/-! ### One push -/

/-- What every push keeps. -/
structure WellFormed (c : Catalog) : Prop where
  ordered : c.shelves.Pairwise fun a b => a.locale.name < b.locale.name
  filled : ∀ s ∈ c.shelves, s.documents ≠ []

theorem wellFormed_empty : empty.WellFormed := ⟨.nil, by simp [empty]⟩

theorem mem_insert {locale : Locale} {d : Document} {shelves : List Shelf} {s : Shelf}
    (member : s ∈ insert locale d shelves) :
    (s.locale = locale ∨ s ∈ shelves) ∧
      (s.documents ≠ [] ∨ s ∈ shelves) := by
  induction shelves with
  | nil =>
    have same : s = ⟨locale, [d]⟩ := by simpa [insert] using member
    simp [same]
  | cons t ts ih =>
    unfold insert at member
    split at member
    · rcases List.mem_cons.mp member with same | old
      · simp [same]
      · simp [old]
    · split at member
      · next equal =>
        rcases List.mem_cons.mp member with same | old
        · simp [same, equal]
        · simp [old]
      · rcases List.mem_cons.mp member with same | later
        · simp [same]
        · obtain ⟨place, full⟩ := ih later
          exact ⟨place.imp_right (List.mem_cons_of_mem t), full.imp_right (List.mem_cons_of_mem t)⟩

theorem insert_ordered {locale : Locale} {d : Document} {shelves : List Shelf}
    (ordered : shelves.Pairwise fun a b => a.locale.name < b.locale.name) :
    (insert locale d shelves).Pairwise fun a b => a.locale.name < b.locale.name := by
  induction shelves with
  | nil => simp [insert]
  | cons s ss ih =>
    obtain ⟨first, rest⟩ := List.pairwise_cons.mp ordered
    unfold insert
    split
    · next before =>
      refine List.pairwise_cons.mpr ⟨?_, ordered⟩
      intro t member
      rcases List.mem_cons.mp member with rfl | later
      · exact before
      · exact lt_trans before (first t later)
    · next notBefore =>
      split
      · exact List.pairwise_cons.mpr ⟨first, rest⟩
      · next other =>
        refine List.pairwise_cons.mpr ⟨?_, ih rest⟩
        intro t member
        rcases (mem_insert member).1 with same | old
        · have different : s.locale.name ≠ locale.name := by
            intro equal
            exact other (Locale.eq_of_name equal.symm)
          rw [same]
          exact lt_of_le_of_ne (not_lt.mp notBefore) different
        · exact first t old

theorem WellFormed.push {c : Catalog} (wf : c.WellFormed) (locale : Locale) (d : Document) :
    (c.push locale d).WellFormed where
  ordered := insert_ordered wf.ordered
  filled s member := (mem_insert member).2.elim id (wf.filled s)

/-- The documents of a locale, none if it has no shelf. -/
def documentsOf (c : Catalog) (name : String) : List Document := (c.get? name).getD []

theorem find?_insert {locale : Locale} {d : Document} {shelves : List Shelf} (name : String)
    (ordered : shelves.Pairwise fun a b => a.locale.name < b.locale.name) :
    ((insert locale d shelves).find? (·.locale.name == name)).map (·.documents) =
      if locale.name = name then
        some (((shelves.find? (·.locale.name == name)).map (·.documents)).getD [] ++ [d])
      else (shelves.find? (·.locale.name == name)).map (·.documents) := by
  induction shelves with
  | nil => by_cases same : locale.name = name <;> simp [insert, same]
  | cons s ss ih =>
    obtain ⟨first, rest⟩ := List.pairwise_cons.mp ordered
    unfold insert
    split
    · next before =>
      by_cases same : locale.name = name
      · have absent : (s :: ss).find? (·.locale.name == name) = none := by
          rw [List.find?_eq_none]
          intro t member
          have above : name < t.locale.name := by
            rcases List.mem_cons.mp member with rfl | later
            · exact same ▸ before
            · exact lt_trans (same ▸ before) (first t later)
          simpa using above.ne'
        simp [same, absent]
      · simp [same]
    · split
      · next equal =>
        subst equal
        by_cases same : s.locale.name = name <;> simp [same]
      · next other =>
        by_cases here : s.locale.name = name
        · have different : locale.name ≠ name := by
            intro equal
            exact other (Locale.eq_of_name (equal.trans here.symm))
          simp [here, different]
        · simpa [here] using ih rest

theorem get?_push {c : Catalog} (wf : c.WellFormed) (locale : Locale) (d : Document)
    (name : String) :
    (c.push locale d).get? name =
      if locale.name = name then some (c.documentsOf name ++ [d]) else c.get? name :=
  find?_insert name wf.ordered

theorem documentCount_push (c : Catalog) (locale : Locale) (d : Document) :
    (c.push locale d).documentCount = c.documentCount + 1 := by
  obtain ⟨shelves⟩ := c
  simp only [push, documentCount]
  induction shelves with
  | nil => simp [insert]
  | cons s ss ih =>
    unfold insert
    split
    · simp
    · split
      · simp
        omega
      · simp [ih]
        omega

/-! ### All pushes -/

/-- The documents pushed for a locale. -/
def pushedFor (ps : List (Locale × Document)) (name : String) : List Document :=
  (ps.filter fun p => p.1.name == name).map (·.2)

/-- Documents as `get?` gives them: none rather than an empty list. -/
def shelved : List Document → Option (List Document)
  | [] => none
  | ds => some ds

theorem isSome_shelved (ds : List Document) : (shelved ds).isSome = !ds.isEmpty := by
  cases ds <;> rfl

theorem getD_shelved (ds : List Document) : (shelved ds).getD [] = ds := by
  cases ds <;> rfl

theorem WellFormed.get?_eq_shelved {c : Catalog} (wf : c.WellFormed) (name : String) :
    c.get? name = shelved (c.documentsOf name) := by
  unfold documentsOf get?
  cases found : c.shelves.find? (·.locale.name == name) with
  | none => rfl
  | some s =>
    have full := wf.filled s (List.mem_of_find?_eq_some found)
    cases documents : s.documents with
    | nil => exact absurd documents full
    | cons d ds => simp [documents, shelved]

theorem documentsOf_push {c : Catalog} (wf : c.WellFormed) (locale : Locale) (d : Document)
    (name : String) :
    (c.push locale d).documentsOf name = c.documentsOf name ++ pushedFor [(locale, d)] name := by
  rw [documentsOf, get?_push wf]
  by_cases same : locale.name = name
  · simp [same, pushedFor]
  · simp [same, pushedFor, documentsOf]

/-- Whatever was pushed before, further pushes keep the order and add to each shelf its own. -/
theorem foldl_push {c : Catalog} (wf : c.WellFormed) (ps : List (Locale × Document)) :
    (ps.foldl (fun c p => c.push p.1 p.2) c).WellFormed ∧
      (∀ name, (ps.foldl (fun c p => c.push p.1 p.2) c).documentsOf name =
        c.documentsOf name ++ pushedFor ps name) ∧
      (ps.foldl (fun c p => c.push p.1 p.2) c).documentCount = c.documentCount + ps.length := by
  induction ps generalizing c with
  | nil => simp [wf, pushedFor]
  | cons p ps ih =>
    obtain ⟨wellFormed, documents, count⟩ := ih (wf.push p.1 p.2)
    refine ⟨wellFormed, ?_, ?_⟩
    · intro name
      rw [List.foldl_cons, documents, documentsOf_push wf, List.append_assoc]
      simp only [pushedFor, ← List.map_append, ← List.filter_append, List.singleton_append]
    · rw [List.foldl_cons, count, documentCount_push, List.length_cons]
      omega

theorem wellFormed_ofList (ps : List (Locale × Document)) : (ofList ps).WellFormed :=
  (foldl_push wellFormed_empty ps).1

theorem get?_ofList (ps : List (Locale × Document)) (name : String) :
    (ofList ps).get? name = shelved (pushedFor ps name) := by
  rw [(wellFormed_ofList ps).get?_eq_shelved]
  congr 1
  exact (foldl_push wellFormed_empty ps).2.1 name

theorem documentCount_ofList (ps : List (Locale × Document)) :
    (ofList ps).documentCount = ps.length := by
  have count := (foldl_push wellFormed_empty ps).2.2
  have none : empty.documentCount = 0 := rfl
  rw [none, Nat.zero_add] at count
  exact count

/-- A locale that is present has a document. -/
theorem WellFormed.get?_of_mem_locales {c : Catalog} (wf : c.WellFormed) {l : Locale}
    (present : l ∈ c.locales) : ∃ d ds, c.get? l.name = some (d :: ds) := by
  obtain ⟨s, member, rfl⟩ := List.mem_map.mp present
  have found : (c.shelves.find? (·.locale.name == s.locale.name)).isSome = true := by
    rw [List.find?_isSome]
    exact ⟨s, member, by simp⟩
  obtain ⟨t, first⟩ := Option.isSome_iff_exists.mp found
  have full := wf.filled t (List.mem_of_find?_eq_some first)
  cases documents : t.documents with
  | nil => exact absurd documents full
  | cons d ds => exact ⟨d, ds, by simp [get?, first, documents]⟩

theorem supports_eq_get?_isSome (c : Catalog) (name : String) :
    c.supports name = (c.get? name).isSome := by
  rw [get?, Option.isSome_map, Bool.eq_iff_iff, List.find?_isSome]
  simp [supports]

theorem get?_of_supports {c : Catalog} {name : String} (present : c.supports name = true) :
    c.get? name = some (c.documentsOf name) := by
  rw [supports_eq_get?_isSome] at present
  obtain ⟨documents, found⟩ := Option.isSome_iff_exists.mp present
  rw [documentsOf, found]
  rfl

end Catalog
end Phrasebook
