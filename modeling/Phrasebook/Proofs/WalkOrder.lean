import Phrasebook.Proofs.Discovery
import Phrasebook.Proofs.Except

/-!
The order of a walk. A walk comes upon files in the strict order of their paths, component by
component. So the files at or below a path stand together, siblings stand in the order of their
names, and there is nothing left to sort.
-/

namespace Phrasebook

/-! ### Order of components -/

namespace Path

instance : Std.OrientedOrd Component where
  eq_swap {a b} := by
    cases a <;> cases b <;> first | rfl | exact Std.OrientedOrd.eq_swap (α := String)

instance : Std.LawfulEqOrd Component where
  compare_self := Component.compare_self _
  eq_of_compare {a b} same := by
    cases a with
    | name s =>
      cases b with
      | name t => rw [Std.LawfulEqOrd.eq_of_compare (α := String) same]
      | root | current | parent => cases same
    | root | current | parent => cases b <;> first | rfl | cases same

/-- What is neither before nor after a component is the component. -/
theorem Component.eq_of_between {a b : Component} (first : compare a b ≠ .gt)
    (second : compare b a ≠ .gt) : a = b := by
  have swapped : compare b a = (compare a b).swap := Std.OrientedOrd.eq_swap
  apply Std.LawfulEqOrd.eq_of_compare
  cases kind : compare a b with
  | eq => rfl
  | lt =>
    rw [swapped, kind] at second
    exact absurd rfl second
  | gt => exact absurd kind first

instance : Std.OrientedCmp compareTo where
  eq_swap := by
    unfold compareTo
    exact Std.OrientedCmp.eq_swap

theorem compareTo_asymm {p q : Path} (before : p.compareTo q = .lt) : q.compareTo p ≠ .lt := by
  have swapped : p.compareTo q = (q.compareTo p).swap := Std.OrientedCmp.eq_swap
  intro after
  rw [swapped, after] at before
  cases before

theorem ne_gt_of_compareLex_cons {a b : Component} {as bs : List Component}
    (before : List.compareLex compare (a :: as) (b :: bs) = .lt) : compare a b ≠ .gt := by
  rw [List.compareLex_cons_cons] at before
  intro greater
  rw [greater] at before
  cases before

/-- What stands between components that begin alike begins like them. -/
theorem prefix_of_between {front as bs cs : List Component} (first : front <+: as)
    (last : front <+: cs) (before : List.compareLex compare as bs = .lt)
    (after : List.compareLex compare bs cs = .lt) : front <+: bs := by
  induction front generalizing as bs cs with
  | nil => exact List.nil_prefix
  | cons c front ih =>
    obtain ⟨more, rfl⟩ := first
    obtain ⟨more', rfl⟩ := last
    cases bs with
    | nil => cases before
    | cons b bs =>
      -- The component stands between two that are the same, as the paths begin alike.
      obtain rfl : c = b :=
        Component.eq_of_between (ne_gt_of_compareLex_cons before) (ne_gt_of_compareLex_cons after)
      have same : compare c c = .eq := Component.compare_self c
      rw [List.cons_append, List.compareLex_cons_cons, same, Ordering.eq_then] at before after
      exact List.cons_prefix_cons.mpr
        ⟨rfl, ih (List.prefix_append _ _) (List.prefix_append _ _) before after⟩

/-- Paths below siblings stand in the order of the names of these. -/
theorem compareTo_of_siblings {p q : Path} {front : List Component} {a b : String} (before : a < b)
    (first : front ++ [.name a] <+: p.components) (second : front ++ [.name b] <+: q.components) :
    p.compareTo q = .lt := by
  obtain ⟨more, first⟩ := first
  obtain ⟨more', second⟩ := second
  have names : compare (Component.name a) (.name b) = .lt := compare_lt_iff_lt.mpr before
  rw [compareTo, ← first, ← second, List.append_assoc, List.append_assoc, compareLex_append_left,
    List.singleton_append, List.singleton_append, List.compareLex_cons_cons, names]
  rfl

end Path

theorem lt_append {a s : String} (given : s ≠ "") : a < a ++ s := by
  have more : s.toList ≠ [] := by simpa using given
  rw [String.lt_iff_toList_lt, String.toList_append]
  induction a.toList with
  | nil =>
    obtain ⟨c, cs, spelled⟩ := List.exists_cons_of_ne_nil more
    rw [spelled]
    exact List.nil_lt_cons c cs
  | cons c cs ih => exact List.cons_lt_cons_iff.mpr (.inr ⟨rfl, ih⟩)

/-! ### Ordered lists -/

section Ordered

variable {α : Type} {R : α → α → Prop} {l : List α}

/-- Of two elements of an ordered list the lesser one comes first. -/
theorem pair_sublist (asymmetric : ∀ a b, R a b → ¬ R b a) (ordered : l.Pairwise R) {a b : α}
    (first : a ∈ l) (second : b ∈ l) (before : R a b) : [a, b].Sublist l := by
  induction ordered with
  | nil => cases first
  | @cons c l least _ ih =>
    rcases List.mem_cons.mp first with rfl | within
    · rcases List.mem_cons.mp second with rfl | later
      · exact absurd before (asymmetric _ _ before)
      · exact (List.singleton_sublist.mpr later).cons_cons a
    · rcases List.mem_cons.mp second with rfl | later
      · exact absurd before (asymmetric _ _ (least a within))
      · exact (ih within later).cons c

variable {P : α → Bool}

theorem filter_prefix_of_between (between : ∀ a b c, R a b → R b c → P a → P c → P b) {a : α}
    (ordered : (a :: l).Pairwise R) (here : P a) : (a :: l).filter P <+: a :: l := by
  induction l generalizing a with
  | nil => simp [here]
  | cons b l ih =>
    obtain ⟨least, ordered⟩ := List.pairwise_cons.mp ordered
    rw [List.filter_cons_of_pos here]
    by_cases next : P b = true
    · exact List.cons_prefix_cons.mpr ⟨rfl, ih ordered next⟩
    -- Once an element is none, no later one is: it would stand between the first and that one.
    · have nothing : (b :: l).filter P = [] := by
        rw [List.filter_cons_of_neg next, List.filter_eq_nil_iff]
        intro c member there
        have after := (List.pairwise_cons.mp ordered).1 c member
        exact next (between a b c (least b List.mem_cons_self) after here there)
      rw [nothing]
      exact List.cons_prefix_cons.mpr ⟨rfl, List.nil_prefix⟩

/-- Elements of an ordered list stand together if what stands between two of them is one too. -/
theorem filter_infix_of_between (between : ∀ a b c, R a b → R b c → P a → P c → P b)
    (ordered : l.Pairwise R) : l.filter P <:+: l := by
  induction l with
  | nil => exact List.infix_rfl
  | cons a l ih =>
    by_cases here : P a = true
    · exact (filter_prefix_of_between between ordered here).isInfix
    · rw [List.filter_cons_of_neg here]
      exact List.infix_cons (ih (List.pairwise_cons.mp ordered).2)

end Ordered

/-! ### The order of a walk -/

namespace FileSystem

variable {fs : FileSystem} {p : Path} {files : List FoundFile}

/-- A walk that gives files has come upon a part of the tree. -/
theorem exists_node_of_walk (proper : fs.root.Proper) (walked : fs.walk p = .ok files) :
    p.text ≠ "" ∧ ∃ node : FileNode, node.Proper ∧ files = node.walk p := by
  obtain ⟨t, located, rest⟩ := Except.bind_eq_ok_iff.mp walked
  refine ⟨given_of_located located, ?_⟩
  have sound := (locate_leads located).proper proper
  cases kind : t.node with
  | file text? =>
    rw [kind] at rest sound
    exact ⟨_, sound, (Except.ok.inj rest).symm⟩
  | directory entries =>
    rw [kind] at rest sound
    exact ⟨_, sound, (Except.ok.inj rest).symm⟩
  | link target =>
    rw [kind] at rest sound
    obtain ⟨u, followed, rest⟩ := Except.bind_eq_ok_iff.mp rest
    have soundToo := (locate_leads followed).proper proper
    cases there : u.node with
    | directory entries =>
      rw [there] at rest soundToo
      exact ⟨_, soundToo, (Except.ok.inj rest).symm⟩
    | file text? =>
      rw [there] at rest
      exact ⟨_, sound, (Except.ok.inj rest).symm⟩
    | link target' =>
      rw [there] at rest
      exact ⟨_, sound, (Except.ok.inj rest).symm⟩

end FileSystem

/-- Whether a path begins with these components. -/
def Path.goesThrough (p : Path) (front : List Path.Component) : Bool :=
  front.isPrefixOf p.components

namespace Source

variable {fs : FileSystem}

theorem walked_ordered (proper : fs.root.Proper) {root : Path} {extension : String}
    {files : List FoundFile} (listed : walked fs root extension = .ok files) :
    files.Pairwise fun f g => f.path.compareTo g.path = .lt := by
  obtain ⟨all, walked, kept⟩ := Except.bind_eq_ok_iff.mp listed
  obtain ⟨given, node, sound, rfl⟩ := FileSystem.exists_node_of_walk proper walked
  obtain rfl := Except.ok.inj kept
  exact (FileNode.walk_ordered given sound).filter _

/-- A walk comes upon the files of a directory, and no others, in the strict order of their paths,
so that they are found as they are walked. The files through any path stand together, those through
one sibling before those through another of a greater name, be it that the name only goes on where
the other one ends. -/
theorem found_as_walked (proper : fs.root.Proper) (root : Path) (extension : String) :
    found fs root extension = walked fs root extension ∧
    (∀ t entries, fs.locate true false root = .ok t → t.node = .directory entries →
      ∃ files, walked fs root extension = .ok files ∧ ∀ f, f ∈ files ↔
        (∃ names, t.node.Holds names f.text? ∧ f.path = root.joinAll names) ∧
          f.path.extension? = some extension) ∧
    ∀ files, walked fs root extension = .ok files →
      (files.Pairwise fun f g => f.path.compareTo g.path = .lt) ∧
      (∀ front, files.filter (·.path.goesThrough front) <:+: files) ∧
      (∀ front a b, a < b → ∀ f ∈ files, ∀ g ∈ files,
        f.path.goesThrough (front ++ [.name a]) → g.path.goesThrough (front ++ [.name b]) →
        [f, g].Sublist files) ∧
      ∀ front a suffix, suffix ≠ "" → ∀ f ∈ files, ∀ g ∈ files,
        f.path.goesThrough (front ++ [.name a]) →
        g.path.goesThrough (front ++ [.name (a ++ suffix)]) → [f, g].Sublist files := by
  refine ⟨?_, ?_, ?_⟩
  · cases listed : walked fs root extension with
    | error e =>
      unfold found
      rw [listed]
      rfl
    | ok files => exact found_of_ordered listed (walked_ordered proper listed)
  · intro t entries located isDirectory
    refine ⟨filesBelow t.node root extension, ?_, fun f => mem_filesBelow⟩
    unfold walked
    rw [FileSystem.walk_of_located located isDirectory, filesBelow, isDirectory]
    rfl
  · intro files listed
    have ordered := walked_ordered proper listed
    have siblings {front : List Path.Component} {a b : String} (before : a < b) {f g : FoundFile}
        (first : f ∈ files) (second : g ∈ files) (within : f.path.goesThrough (front ++ [.name a]))
        (within' : g.path.goesThrough (front ++ [.name b])) : [f, g].Sublist files := by
      rw [Path.goesThrough, List.isPrefixOf_iff_prefix] at within within'
      exact pair_sublist (fun _ _ => Path.compareTo_asymm) ordered first second
        (Path.compareTo_of_siblings before within within')
    refine ⟨ordered, ?_, ?_, ?_⟩
    · intro front
      refine filter_infix_of_between ?_ ordered
      intro f g h first second within within'
      rw [Path.goesThrough, List.isPrefixOf_iff_prefix] at within within' ⊢
      exact Path.prefix_of_between within within' first second
    · intro front a b before f first g second
      exact siblings before first second
    · intro front a suffix given f first g second
      exact siblings (lt_append given) first second

end Source

/-- The file below `a` goes before `a.ftl`, although by their texts the two paths stand the other way
round. -/
theorem besides_walked :
    (below besides).root.Proper ∧
    Source.found (below besides) ⟨"docs"⟩ "ftl" = Source.walked (below besides) ⟨"docs"⟩ "ftl" ∧
    (∃ files, Source.walked (below besides) ⟨"docs"⟩ "ftl" = .ok files ∧
      [⟨⟨"docs/a/x.ftl"⟩, some "x = X\n"⟩, ⟨⟨"docs/a.ftl"⟩, some "a = A\n"⟩].Sublist files) ∧
    "docs/a.ftl" < "docs/a/x.ftl" := by
  have proper : (below besides).root.Proper := by
    refine .directory (by decide) (by decide) ?_
    intro e member
    obtain rfl := List.mem_singleton.mp member
    exact besides_proper
  obtain ⟨same, listed, ordered⟩ := Source.found_as_walked proper ⟨"docs"⟩ "ftl"
  refine ⟨proper, same, ?_, by decide⟩
  obtain ⟨t, located, isDirectory⟩ := below_locate besides
  obtain ⟨files, walked, member⟩ := listed t besides located isDirectory
  have there (f : FoundFile) (within : f ∈ Source.filesBelow (.directory besides) ⟨"docs"⟩ "ftl") :
      f ∈ files := by
    rw [member, isDirectory]
    exact Source.mem_filesBelow.mp within
  rw [besides_below] at there
  obtain ⟨-, -, -, beside⟩ := ordered files walked
  refine ⟨files, walked, beside [.name "docs"] "a" ".ftl" (by decide) _ (there _ ?_) _ (there _ ?_)
    ?_ ?_⟩
  · simp [besidesTexts]
  · simp [besidesTexts]
  · decide
  · decide

end Phrasebook
