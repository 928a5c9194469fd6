import Mathlib.Data.List.Lex
import Mathlib.Data.String.Basic
import Phrasebook.Path

/-!
Paths that are built by joining names. Joining a name adds one component, however the path before it
is spelled, so a path joined with several names is known by those names: its part below the first
path, its order among its siblings and its extension can be read off them.
-/

namespace Phrasebook
namespace Path

/-! ### Segments -/

theorem segments_ne_nil (cs : List Char) : segments cs ≠ [] := by
  unfold segments
  split
  · simp
  · simp
  · split <;> simp

theorem segments_slash (cs : List Char) : segments ('/' :: cs) = [] :: segments cs := by
  simp [segments]

theorem segments_cons {c : Char} (other : c ≠ '/') {cs s : List Char} {ss : List (List Char)}
    (split : segments cs = s :: ss) : segments (c :: cs) = (c :: s) :: ss := by
  rw [segments]
  · rw [split]
  · exact other

theorem segments_append_slash (front back : List Char) :
    segments (front ++ '/' :: back) = segments front ++ segments back := by
  induction front with
  | nil => simp [segments]
  | cons c cs ih =>
    rw [List.cons_append]
    by_cases slash : c = '/'
    · subst slash
      rw [segments_slash, segments_slash, ih, List.cons_append]
    · obtain ⟨s, ss, split⟩ := List.exists_cons_of_ne_nil (segments_ne_nil cs)
      have longer : segments (cs ++ '/' :: back) = s :: (ss ++ segments back) := by
        rw [ih, split, List.cons_append]
      rw [segments_cons slash split, segments_cons slash longer, List.cons_append]

theorem segments_of_noSlash {cs : List Char} (noSlash : '/' ∉ cs) : segments cs = [cs] := by
  induction cs with
  | nil => rfl
  | cons c cs ih =>
    rw [List.mem_cons, not_or] at noSlash
    exact segments_cons (Ne.symm noSlash.1) (ih noSlash.2)

theorem noSlash_of_mem_segments {cs s : List Char} (member : s ∈ segments cs) : '/' ∉ s := by
  induction cs generalizing s with
  | nil =>
    obtain rfl := List.mem_singleton.mp member
    exact List.not_mem_nil
  | cons c cs ih =>
    by_cases slash : c = '/'
    · subst slash
      rw [segments_slash] at member
      rcases List.mem_cons.mp member with rfl | later
      · exact List.not_mem_nil
      · exact ih later
    · obtain ⟨first, ss, split⟩ := List.exists_cons_of_ne_nil (segments_ne_nil cs)
      rw [segments_cons slash split] at member
      rw [split] at ih
      rcases List.mem_cons.mp member with rfl | later
      · exact List.not_mem_cons_of_ne_of_not_mem (Ne.symm slash) (ih List.mem_cons_self)
      · exact ih (List.mem_cons_of_mem first later)

theorem eq_nil_of_segments {cs : List Char} (single : segments cs = [[]]) : cs = [] := by
  cases cs with
  | nil => rfl
  | cons c cs =>
    by_cases slash : c = '/'
    · subst slash
      rw [segments_slash] at single
      exact absurd (List.cons.inj single).2 (segments_ne_nil cs)
    · obtain ⟨s, ss, split⟩ := List.exists_cons_of_ne_nil (segments_ne_nil cs)
      rw [segments_cons slash split] at single
      exact absurd (List.cons.inj single).1 (by simp)

/-! ### Components -/

/-- What the first of several segments stands for. -/
def opening? (segment : List Char) : Option Component :=
  if segment = [] then some .root
  else if segment = ['.'] then some .current
  else inner? segment

theorem components_of_segments {p : Path} (given : p.text ≠ "") {s : List Char}
    {ss : List (List Char)} (split : segments p.text.toList = s :: ss) :
    p.components = (opening? s).toList ++ ss.filterMap inner? := by
  unfold components opening?
  rw [split]
  by_cases rooted : s = []
  · have more : ss ≠ [] := by
      rintro rfl
      rw [rooted] at split
      exact given (by simpa using eq_nil_of_segments split)
    simp [rooted, more]
  · by_cases current : s = ['.']
    · simp [current]
    · cases kind : inner? s <;> simp [rooted, current, kind]

/-- A name that an entry of a directory can have. -/
structure IsFileName (name : String) : Prop where
  given : name ≠ ""
  notCurrent : name ≠ "."
  notParent : name ≠ ".."
  noSlash : '/' ∉ name.toList

instance (name : String) : Decidable (IsFileName name) :=
  decidable_of_iff (name ≠ "" ∧ name ≠ "." ∧ name ≠ ".." ∧ '/' ∉ name.toList)
    ⟨fun ⟨a, b, c, d⟩ => ⟨a, b, c, d⟩, fun ⟨a, b, c, d⟩ => ⟨a, b, c, d⟩⟩

theorem IsFileName.toList_ne {name : String} (isName : IsFileName name) :
    name.toList ≠ [] ∧ name.toList ≠ ['.'] ∧ name.toList ≠ ['.', '.'] := by
  refine ⟨by simpa using isName.given, ?_, ?_⟩
  · intro same
    exact isName.notCurrent (String.toList_inj.mp same)
  · intro same
    exact isName.notParent (String.toList_inj.mp same)

theorem IsFileName.inner?_eq {name : String} (isName : IsFileName name) :
    inner? name.toList = some (.name name) := by
  obtain ⟨given, notCurrent, notParent⟩ := isName.toList_ne
  simp [inner?, given, notCurrent, notParent]

theorem components_name {name : String} (isName : IsFileName name) :
    (⟨name⟩ : Path).components = [.name name] := by
  obtain ⟨given, notCurrent, -⟩ := isName.toList_ne
  rw [components_of_segments isName.given (segments_of_noSlash isName.noSlash)]
  simp [opening?, given, notCurrent, isName.inner?_eq]

theorem isAbsolute_name {name : String} (isName : IsFileName name) :
    (⟨name⟩ : Path).isAbsolute = false := by
  rw [Bool.eq_false_iff]
  intro absolute
  have front : "/".toList <+: name.toList := String.startsWith_string_iff.mp absolute
  exact isName.noSlash (front.subset (by simp))

theorem endsWith_slash_iff (s : String) : s.endsWith "/" = true ↔ ['/'] <:+ s.toList := by
  simp [← String.endsWith_toSlice]

/-- A joined name stands between slashes, and these stand between segments. -/
theorem join_text {p : Path} (given : p.text ≠ "") {name : String} (isName : IsFileName name) :
    (p.join ⟨name⟩).text ≠ "" ∧
      ∃ front, segments (p.join ⟨name⟩).text.toList = segments front ++ [name.toList] ∧
        (p.text.toList = front ∨ p.text.toList = front ++ ['/']) := by
  have single := segments_of_noSlash isName.noSlash
  have open? : p.text.isEmpty = false := by simpa using given
  unfold join
  rw [isAbsolute_name isName, open?]
  by_cases slash : p.text.endsWith "/" = true
  · obtain ⟨front, spelled⟩ := (endsWith_slash_iff p.text).mp slash
    rw [if_neg (by simp), if_pos slash]
    refine ⟨by simp [given], front, ?_, .inr spelled.symm⟩
    rw [String.toList_append, ← spelled, List.append_assoc, List.singleton_append,
      segments_append_slash, single]
  · rw [if_neg (by simp), if_neg slash]
    refine ⟨by simp [given], p.text.toList, ?_, .inl rfl⟩
    have spelled : (p.text ++ "/" ++ name).toList = p.text.toList ++ '/' :: name.toList := by simp
    rw [spelled, segments_append_slash, single]

theorem components_join {p : Path} (given : p.text ≠ "") {name : String}
    (isName : IsFileName name) : (p.join ⟨name⟩).components = p.components ++ [.name name] := by
  obtain ⟨givenToo, front, longer, spelled⟩ := join_text given isName
  obtain ⟨s, ss, split⟩ := List.exists_cons_of_ne_nil (segments_ne_nil front)
  rw [split, List.cons_append] at longer
  rw [components_of_segments givenToo longer, List.filterMap_append]
  rcases spelled with same | slashed
  · rw [components_of_segments given (same ▸ split)]
    simp [isName.inner?_eq]
  · have closed : segments p.text.toList = s :: (ss ++ [[]]) := by
      rw [slashed, segments_append_slash, split]
      rfl
    have empty : inner? [] = none := rfl
    rw [components_of_segments given closed, List.filterMap_append]
    simp [isName.inner?_eq, empty]

/-! ### Several names -/

def joinAll (p : Path) (names : List String) : Path := names.foldl (fun p n => p.join ⟨n⟩) p

@[simp] theorem joinAll_nil (p : Path) : p.joinAll [] = p := rfl

@[simp] theorem joinAll_cons (p : Path) (name : String) (names : List String) :
    p.joinAll (name :: names) = (p.join ⟨name⟩).joinAll names := rfl

theorem components_joinAll {p : Path} (given : p.text ≠ "") {names : List String}
    (areNames : ∀ n ∈ names, IsFileName n) :
    (p.joinAll names).components = p.components ++ names.map .name := by
  induction names generalizing p with
  | nil => simp
  | cons name names ih =>
    have isName := areNames name List.mem_cons_self
    rw [joinAll_cons, ih (join_text given isName).1 fun n member =>
      areNames n (List.mem_cons_of_mem name member), components_join given isName]
    simp

theorem below_joinAll {p : Path} (given : p.text ≠ "") {names : List String}
    (areNames : ∀ n ∈ names, IsFileName n) : below p (p.joinAll names) = names.map .name := by
  have inFront : p.components.isPrefixOf (p.components ++ names.map .name) = true := by
    rw [List.isPrefixOf_iff_prefix]
    exact List.prefix_append _ _
  unfold below
  rw [components_joinAll given areNames, if_pos inFront, List.drop_left]

theorem fileName?_joinAll {p : Path} (given : p.text ≠ "") {names : List String} {name : String}
    (areNames : ∀ n ∈ names ++ [name], IsFileName n) :
    (p.joinAll (names ++ [name])).fileName? = some name := by
  unfold fileName?
  rw [components_joinAll given areNames]
  simp [Component.name?]

/-- An extension is that of the last name. -/
theorem extension?_joinAll {p : Path} (given : p.text ≠ "") {names : List String} {name : String}
    (areNames : ∀ n ∈ names ++ [name], IsFileName n) :
    (p.joinAll (names ++ [name])).extension? = (⟨name⟩ : Path).extension? := by
  have alone : (⟨name⟩ : Path).fileName? = some name := by
    unfold fileName?
    rw [components_name (areNames name (by simp))]
    rfl
  unfold extension?
  rw [fileName?_joinAll given areNames, alone]

/-! ### Order -/

theorem Component.compare_self (c : Component) : compare c c = .eq := by
  cases c with
  | name segment => exact Std.ReflOrd.compare_self (a := segment)
  | root | current | parent => rfl

theorem compareLex_append_left (front as bs : List Component) :
    List.compareLex compare (front ++ as) (front ++ bs) = List.compareLex compare as bs := by
  induction front with
  | nil => rfl
  | cons c cs ih =>
    rw [List.cons_append, List.cons_append, List.compareLex_cons_cons, Component.compare_self, ih]
    rfl

theorem compareLex_names (as bs : List String) :
    List.compareLex compare (as.map Component.name) (bs.map Component.name) =
      List.compareLex compare as bs := by
  induction as generalizing bs with
  | nil => cases bs <;> rfl
  | cons a as ih =>
    cases bs with
    | nil => rfl
    | cons b bs =>
      rw [List.map_cons, List.map_cons, List.compareLex_cons_cons, List.compareLex_cons_cons, ih]
      rfl

theorem compareLex_lt_iff (as bs : List String) :
    List.compareLex compare as bs = .lt ↔ as < bs := by
  induction as generalizing bs with
  | nil => cases bs <;> simp [List.compareLex]
  | cons a as ih =>
    cases bs with
    | nil => simp [List.compareLex]
    | cons b bs =>
      rw [List.compareLex_cons_cons, List.cons_lt_cons_iff, ← ih, Ordering.then_eq_lt,
        compare_lt_iff_lt, compare_eq_iff_eq]

/-- Paths below a path stand in the order of their names. -/
theorem compareTo_joinAll {p : Path} (given : p.text ≠ "") {as bs : List String}
    (asNames : ∀ n ∈ as, IsFileName n) (bsNames : ∀ n ∈ bs, IsFileName n) :
    (p.joinAll as).compareTo (p.joinAll bs) = .lt ↔ as < bs := by
  unfold compareTo
  rw [components_joinAll given asNames, components_joinAll given bsNames, compareLex_append_left,
    compareLex_names, compareLex_lt_iff]

end Path
end Phrasebook
