import Phrasebook.Proofs.Path

/-!
Spellings of paths. What stands behind a slash adds its own components to those before it, so
repeated and closing slashes and inner dots make no difference, and a path that is joined to another
one is seen below it as it is spelled.
-/

namespace Phrasebook
namespace Path

/-! ### Texts in front of a slash and behind it -/

/-- The components of a text that stands behind a slash. -/
def innerComponents (cs : List Char) : List Component := (segments cs).filterMap inner?

/-- The components of a text that is not empty, or stands before a slash. -/
def outerComponents (cs : List Char) : List Component :=
  match segments cs with
  | [] => []
  | s :: ss => (opening? s).toList ++ ss.filterMap inner?

theorem innerComponents_slash (front back : List Char) :
    innerComponents (front ++ '/' :: back) = innerComponents front ++ innerComponents back := by
  unfold innerComponents
  rw [segments_append_slash, List.filterMap_append]

theorem outerComponents_slash (front back : List Char) :
    outerComponents (front ++ '/' :: back) = outerComponents front ++ innerComponents back := by
  obtain ⟨s, ss, split⟩ := List.exists_cons_of_ne_nil (segments_ne_nil front)
  unfold outerComponents innerComponents
  simp only [segments_append_slash, split, List.cons_append, List.filterMap_append,
    List.append_assoc]

theorem components_eq_outer {p : Path} (given : p.text ≠ "") :
    p.components = outerComponents p.text.toList := by
  obtain ⟨s, ss, split⟩ := List.exists_cons_of_ne_nil (segments_ne_nil p.text.toList)
  rw [components_of_segments given split, outerComponents, split]

theorem components_slash {p : Path} {front back : List Char}
    (spelled : p.text.toList = front ++ '/' :: back) :
    p.components = outerComponents front ++ innerComponents back := by
  have given : p.text ≠ "" := by
    intro empty
    simp [empty] at spelled
  rw [components_eq_outer given, spelled, outerComponents_slash]

/-! ### Spellings of one path -/

/-- Two spellings of one path, by slashes and dots that make no component. -/
inductive Respelled : Path → Path → Prop where
  | slash (front back : String) : Respelled ⟨front ++ "/" ++ back⟩ ⟨front ++ "//" ++ back⟩
  | dot (front back : String) : Respelled ⟨front ++ "/" ++ back⟩ ⟨front ++ "/./" ++ back⟩
  | closing {p : Path} (given : p.text ≠ "") : Respelled p ⟨p.text ++ "/"⟩
  | refl (p : Path) : Respelled p p
  | symm {p q : Path} (same : Respelled p q) : Respelled q p
  | trans {p q r : Path} (first : Respelled p q) (second : Respelled q r) : Respelled p r

theorem Respelled.components_eq {p q : Path} (same : Respelled p q) :
    q.components = p.components := by
  induction same with
  | slash front back =>
    have once : (front ++ "/" ++ back).toList = front.toList ++ '/' :: back.toList := by simp
    have twice : (front ++ "//" ++ back).toList =
        front.toList ++ '/' :: ([] ++ '/' :: back.toList) := by simp
    rw [components_slash once, components_slash twice, innerComponents_slash]
    rfl
  | dot front back =>
    have plain : (front ++ "/" ++ back).toList = front.toList ++ '/' :: back.toList := by simp
    have dotted : (front ++ "/./" ++ back).toList =
        front.toList ++ '/' :: (['.'] ++ '/' :: back.toList) := by simp
    rw [components_slash plain, components_slash dotted, innerComponents_slash]
    rfl
  | @closing p given =>
    have closed : (p.text ++ "/").toList = p.text.toList ++ '/' :: [] := by simp
    rw [components_slash closed, components_eq_outer given]
    exact List.append_nil _
  | refl p => rfl
  | symm _ ih => exact ih.symm
  | trans _ _ first second => exact second.trans first

/-! ### Joined paths -/

theorem isAbsolute_eq_false_iff {p : Path} :
    p.isAbsolute = false ↔ ¬ ['/'] <+: p.text.toList := by
  rw [← Bool.not_eq_true]
  exact not_congr String.startsWith_string_iff

/-- The components that a joined path has below the first one. Behind nothing a dot in front
counts. -/
theorem components_join_relative {p q : Path} (relative : q.isAbsolute = false) :
    (p.join q).components =
      if p.text = "" then q.components
      else p.components ++ innerComponents q.text.toList := by
  unfold join
  rw [relative]
  by_cases empty : p.text = ""
  · simp [empty]
  · have open? : p.text.isEmpty = false := by simpa using empty
    rw [if_neg empty, open?, if_neg (by simp)]
    by_cases slash : p.text.endsWith "/" = true
    · obtain ⟨front, spelled⟩ := (endsWith_slash_iff p.text).mp slash
      have joined : (p.text ++ q.text).toList = front ++ '/' :: q.text.toList := by
        rw [String.toList_append, ← spelled, List.append_assoc, List.singleton_append]
      have nothing : innerComponents [] = [] := rfl
      rw [if_pos slash, components_slash joined, components_slash spelled.symm, nothing,
        List.append_nil]
    · have joined : (p.text ++ "/" ++ q.text).toList = p.text.toList ++ '/' :: q.text.toList := by
        simp
      rw [if_neg slash, components_slash joined, components_eq_outer empty]

/-! ### Ordinary components -/

/-- A stretch between slashes that names something. -/
def IsOrdinary (segment : List Char) : Prop :=
  segment ≠ [] ∧ segment ≠ ['.'] ∧ segment ≠ ['.', '.']

instance (segment : List Char) : Decidable (IsOrdinary segment) :=
  inferInstanceAs (Decidable (_ ∧ _))

/-- The first stretch of a path that names something. -/
def firstSegment? (p : Path) : Option String :=
  ((segments p.text.toList).find? fun s => decide (IsOrdinary s)).map String.ofList

theorem inner?_name? (segment : List Char) : (inner? segment).bind Component.name? =
    if IsOrdinary segment then some (String.ofList segment) else none := by
  unfold inner? IsOrdinary
  by_cases empty : segment = []
  · simp [empty]
  · by_cases dot : segment = ['.']
    · simp [dot]
    · by_cases dots : segment = ['.', '.'] <;> simp [empty, dot, dots, Component.name?]

theorem opening?_name? (segment : List Char) :
    (opening? segment).bind Component.name? = (inner? segment).bind Component.name? := by
  unfold opening?
  by_cases empty : segment = []
  · simp [empty, inner?, Component.name?]
  · by_cases dot : segment = ['.'] <;> simp [empty, dot, inner?, Component.name?]

theorem exists_segment {p : Path} {c : Component} (member : c ∈ p.components) :
    ∃ s, opening? s = some c ∨ inner? s = some c := by
  by_cases empty : p.text = ""
  · have same : p = ⟨""⟩ := congrArg Path.mk empty
    have nothing : (⟨""⟩ : Path).components = [] := by decide
    simp [same, nothing] at member
  · obtain ⟨s, ss, split⟩ := List.exists_cons_of_ne_nil (segments_ne_nil p.text.toList)
    rw [components_of_segments empty split, List.mem_append, Option.mem_toList,
      List.mem_filterMap] at member
    obtain first | ⟨t, _, later⟩ := member
    · exact ⟨s, .inl first⟩
    · exact ⟨t, .inr later⟩

theorem name_ne_empty {p : Path} {c : Component} {name : String} (member : c ∈ p.components)
    (named : c.name? = some name) : name ≠ "" := by
  obtain ⟨s, stands⟩ := exists_segment member
  have kind : (inner? s).bind Component.name? = some name := by
    obtain first | later := stands
    · rw [← opening?_name?, first, Option.bind_some, named]
    · rw [later, Option.bind_some, named]
  rw [inner?_name?] at kind
  split at kind
  · next ordinary =>
    rw [← Option.some.inj kind]
    simpa using ordinary.1
  · cases kind

theorem findSome?_toList_append (c? : Option Component) (cs : List Component) :
    (c?.toList ++ cs).findSome? Component.name? =
      (c?.bind Component.name?).or (cs.findSome? Component.name?) := by
  rw [List.findSome?_append]
  cases c? <;> simp

theorem filterMap_inner?_cons (s : List Char) (ss : List (List Char)) :
    (s :: ss).filterMap inner? = (inner? s).toList ++ ss.filterMap inner? := by
  rw [List.filterMap_cons]
  cases inner? s <;> rfl

/-- What names something is not lost among the components. -/
theorem findSome?_innerComponents (cs : List Char) :
    (innerComponents cs).findSome? Component.name? =
      ((segments cs).find? fun s => decide (IsOrdinary s)).map String.ofList := by
  unfold innerComponents
  induction segments cs with
  | nil => rfl
  | cons s ss ih =>
    rw [filterMap_inner?_cons, findSome?_toList_append, inner?_name?, ih]
    by_cases ordinary : IsOrdinary s <;> simp [ordinary]

theorem findSome?_components (p : Path) :
    p.components.findSome? Component.name? = p.firstSegment? := by
  by_cases empty : p.text = ""
  · have same : p = ⟨""⟩ := congrArg Path.mk empty
    rw [same]
    decide
  · obtain ⟨s, ss, split⟩ := List.exists_cons_of_ne_nil (segments_ne_nil p.text.toList)
    rw [components_of_segments empty split, findSome?_toList_append, opening?_name?,
      ← findSome?_toList_append, ← filterMap_inner?_cons, ← split]
    exact findSome?_innerComponents p.text.toList

/-! ### The shortest spelling -/

/-- A component that can stand behind others. -/
def IsInner : Component → Prop
  | .root | .current => False
  | .parent => True
  | .name segment => IsFileName segment

/-- Only the first of several components may be the root or a dot. -/
def AreLaidOut : List Component → Prop
  | [] => True
  | c :: cs => (c = .root ∨ c = .current ∨ IsInner c) ∧ ∀ d ∈ cs, IsInner d

theorem isInner_of_inner? {segment : List Char} {c : Component} (noSlash : '/' ∉ segment)
    (stands : inner? segment = some c) : IsInner c := by
  unfold inner? at stands
  split at stands
  · cases stands
  · split at stands
    · cases stands
      trivial
    · next notStill notUp =>
      cases stands
      obtain ⟨given, notCurrent⟩ : segment ≠ [] ∧ segment ≠ ['.'] := by simpa using notStill
      refine ⟨by simpa using given, ?_, ?_, by simpa using noSlash⟩
      · intro same
        exact notCurrent (by simpa using congrArg String.toList same)
      · intro same
        exact notUp (by simpa using congrArg String.toList same)

theorem areLaidOut_of_inner {cs : List Component} (inner : ∀ c ∈ cs, IsInner c) : AreLaidOut cs := by
  cases cs with
  | nil => trivial
  | cons c cs =>
    obtain ⟨first, rest⟩ := List.forall_mem_cons.mp inner
    exact ⟨.inr (.inr first), rest⟩

theorem components_areLaidOut (p : Path) : AreLaidOut p.components := by
  by_cases empty : p.text = ""
  · have nothing : (⟨""⟩ : Path).components = [] := by decide
    rw [show p = ⟨""⟩ from congrArg Path.mk empty, nothing]
    trivial
  · obtain ⟨s, ss, split⟩ := List.exists_cons_of_ne_nil (segments_ne_nil p.text.toList)
    have stands {t : List Char} {c : Component} (member : t ∈ s :: ss) (kind : inner? t = some c) :
        IsInner c :=
      isInner_of_inner? (noSlash_of_mem_segments (split ▸ member)) kind
    have later : ∀ c ∈ ss.filterMap inner?, IsInner c := by
      intro c member
      obtain ⟨t, within, kind⟩ := List.mem_filterMap.mp member
      exact stands (List.mem_cons_of_mem s within) kind
    rw [components_of_segments empty split, opening?]
    split
    · exact ⟨.inl rfl, later⟩
    · split
      · exact ⟨.inr (.inl rfl), later⟩
      · cases kind : inner? s with
        | none => exact areLaidOut_of_inner later
        | some c => exact ⟨.inr (.inr (stands List.mem_cons_self kind)), later⟩

theorem AreLaidOut.front {front back : List Component} (laidOut : AreLaidOut (front ++ back)) :
    AreLaidOut front := by
  cases front with
  | nil => trivial
  | cons c cs => exact ⟨laidOut.1, fun d member => laidOut.2 d (List.mem_append_left back member)⟩

theorem innerComponents_text {c : Component} (isInner : IsInner c) :
    innerComponents c.text.toList = [c] := by
  cases c with
  | root | current => exact isInner.elim
  | parent => decide
  | name segment =>
    have isName : IsFileName segment := isInner
    rw [innerComponents, Component.text, segments_of_noSlash isName.noSlash]
    simp [isName.inner?_eq]

/-- The characters of the shortest spelling, but for the slash of the root. -/
def spelling (cs : List Component) : List Char := ['/'].intercalate (cs.map (·.text.toList))

theorem spelling_cons_cons (c d : Component) (cs : List Component) :
    spelling (c :: d :: cs) = c.text.toList ++ '/' :: spelling (d :: cs) := by
  simp [spelling, List.intercalate_cons_cons]

theorem toList_intercalate_texts (cs : List Component) :
    ("/".intercalate (cs.map Component.text)).toList = spelling cs := by
  rw [String.toList_intercalate, List.map_map]
  rfl

theorem innerComponents_spelling {cs : List Component} (inner : ∀ c ∈ cs, IsInner c) :
    innerComponents (spelling cs) = cs := by
  induction cs with
  | nil => rfl
  | cons c cs ih =>
    obtain ⟨first, rest⟩ := List.forall_mem_cons.mp inner
    cases cs with
    | nil => simpa [spelling] using innerComponents_text first
    | cons d cs =>
      rw [spelling_cons_cons, innerComponents_slash, innerComponents_text first, ih rest]
      rfl

/-- Components that do not begin with the root are those of their spelling if the first one is. -/
theorem components_of_spelling {c : Component} {cs : List Component} {p : Path}
    (spelled : p.text.toList = spelling (c :: cs)) (first : outerComponents c.text.toList = [c])
    (given : c.text ≠ "") (inner : ∀ d ∈ cs, IsInner d) : p.components = c :: cs := by
  cases cs with
  | nil =>
    have alone : p.text.toList = c.text.toList := by simpa [spelling] using spelled
    have some? : p.text ≠ "" := by
      rw [String.toList_inj.mp alone]
      exact given
    rw [components_eq_outer some?, alone, first]
  | cons d cs =>
    rw [spelling_cons_cons] at spelled
    rw [components_slash spelled, first, innerComponents_spelling inner]
    rfl

theorem outerComponents_text {c : Component} (isInner : IsInner c) :
    outerComponents c.text.toList = [c] := by
  cases c with
  | root | current => exact isInner.elim
  | parent => decide
  | name segment =>
    have isName : IsFileName segment := isInner
    rw [← components_name isName]
    exact (components_eq_outer isName.given).symm

theorem text_ne_empty {c : Component} (isInner : IsInner c) : c.text ≠ "" := by
  cases c with
  | root | current => exact isInner.elim
  | parent => decide
  | name segment => exact IsFileName.given isInner

/-- The components of a path are those of their shortest spelling. -/
theorem components_ofComponents {cs : List Component} (laidOut : AreLaidOut cs) (some? : cs ≠ []) :
    (ofComponents cs).components = cs := by
  cases cs with
  | nil => exact absurd rfl some?
  | cons c cs =>
    obtain ⟨first, inner⟩ := laidOut
    rcases first with rfl | rfl | first
    · have spelled : (ofComponents (.root :: cs)).text.toList = [] ++ '/' :: spelling cs := by
        rw [ofComponents, String.toList_append, toList_intercalate_texts]
        rfl
      rw [components_slash spelled, innerComponents_spelling inner]
      rfl
    · exact components_of_spelling (toList_intercalate_texts (.current :: cs)) (by decide) (by decide)
        inner
    · refine components_of_spelling ?_ (outerComponents_text first) (text_ne_empty first) inner
      rw [← toList_intercalate_texts]
      cases c with
      | root => exact first.elim
      | current | parent | name => rfl

end Path
end Phrasebook
