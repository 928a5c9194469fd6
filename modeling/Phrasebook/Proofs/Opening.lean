import Phrasebook.Files.Opening
import Phrasebook.Proofs.Insertion

/-!
What opening a file does to a tree. A path that leads nowhere because its last name is missing leads
to what is put there, so the directories and the file that are made are where their paths lead.
Opening a file adds one empty file at most and leaves all others as they are.
-/

namespace Phrasebook

open Phrasebook.Path

namespace FileSystem

open FileNode Trail

variable {fs gs : FileSystem} {p : Path} {names : List String} {node root other : FileNode}
  {follow : Bool} {a a' b : Search}

/-! ### Vacancies -/

/-- The last segment of what is left of a path has no slash. -/
def PlainEnd (rest : List String) : Prop := ∀ s ∈ rest.getLast?, '/' ∉ s.toList

theorem plainEnd_append {front rest : List String} (first : PlainEnd front) (second : PlainEnd rest) :
    PlainEnd (front ++ rest) := by
  intro s last
  rw [List.getLast?_append, Option.mem_def, Option.or_eq_some_iff] at last
  rcases last with last | ⟨_, last⟩
  · exact second s last
  · exact first s last

theorem PlainEnd.tail {s : String} {rest : List String} (plain : PlainEnd (s :: rest)) :
    PlainEnd rest := by
  intro last member
  exact plain last (List.mem_getLast?_cons member)

theorem plainEnd_segmentTexts (p : Path) : PlainEnd (segmentTexts p) := by
  intro s last
  obtain ⟨cs, member, rfl⟩ := List.mem_map.mp (List.mem_of_getLast? last)
  simpa using noSlash_of_mem_segments member

theorem Step.plainEnd (step : Step follow a b) (plain : PlainEnd a.rest) : PlainEnd b.rest := by
  cases step with
  | stay | up | enter => exact plain.tail
  | link => exact plainEnd_append (plainEnd_segmentTexts _) plain.tail

theorem run_plainEnd (run : Relation.ReflTransGen (Step follow) a b) (plain : PlainEnd a.rest) :
    PlainEnd b.rest := by
  induction run with
  | refl => exact plain
  | tail _ step ih => exact step.plainEnd ih

theorem search_plainEnd (fs : FileSystem) (p : Path) : PlainEnd (fs.search p).rest := by
  have some? : segmentTexts p ≠ [] := by simpa [segmentTexts] using segments_ne_nil p.text.toList
  intro s last
  rw [search, List.getLast?_append_of_ne_nil _ some?] at last
  exact plainEnd_segmentTexts p s last

theorem IsLookedUp.isFileName {s : String} (named : IsLookedUp s) (noSlash : '/' ∉ s.toList) :
    IsFileName s := by
  obtain ⟨given, notCurrent⟩ : s ≠ "" ∧ s ≠ "." := by simpa using named.notStill
  exact ⟨given, notCurrent, by simpa using named.notUp, noSlash⟩

/-- Where a vacancy was found: following the path stands in a directory without an entry of the
last name. -/
theorem exists_vacancy (free : fs.vacancy? follow p = some names) :
    Searched p ∧ ∃ links t s entries,
      Relation.ReflTransGen (Step follow) (fs.search p) ⟨links, t, [s]⟩ ∧
      t.node = .directory entries ∧ IsLookedUp s ∧ entryOf? entries s = none ∧
      names = t.names ++ [s] := by
  unfold vacancy? at free
  split at free
  · next e u missing found =>
    have searched := searched_of_located found
    rw [searched.locate_eq] at missing found
    obtain ⟨links, t, s, entries, run, here, named, absent, rfl⟩ := exists_vacant found missing
    rw [names_down] at free
    exact ⟨searched, links, t, s, entries, run, here, named, absent, (Option.some.inj free).symm⟩
  · cases free

theorem vacant_of_vacancy? (free : fs.vacancy? follow p = some names) : fs.root.Vacant names := by
  obtain ⟨_, links, t, s, entries, run, here, named, absent, rfl⟩ := exists_vacancy free
  have leads : Leads fs.root t := run_leads run .start
  have noSlash := run_plainEnd run (search_plainEnd fs p) s rfl
  exact vacant_of_at? (here ▸ leads.at?_names) absent (named.isFileName noSlash)

/-! ### The same path in a tree with more in it -/

/-- In another tree, following a path has come through the same names. -/
structure Search.Mirrored (other : FileNode) (a b : Search) : Prop where
  links : b.links = a.links
  rest : b.rest = a.rest
  leads : Leads other b.trail
  names : b.trail.names = a.trail.names

theorem mirrored_directory (keeps : root.Keeps other) {t u : Trail}
    {entries : List (String × FileNode)} (leads : Leads root t) (leads' : Leads other u)
    (same : u.names = t.names) (here : t.node = .directory entries) :
    ∃ entries', u.node = .directory entries' ∧ ∀ s x, entryOf? entries s = some x →
      ∃ y, entryOf? entries' s = some y ∧
        (x = y ∨ ∃ es es', x = .directory es ∧ y = .directory es') := by
  have there : root.at? t.names = some (.directory entries) := here ▸ leads.at?_names
  obtain ⟨entries', here'⟩ : ∃ entries', u.node = .directory entries' := by
    obtain ⟨y, kept, kind⟩ := keeps _ _ there
    obtain rfl : u.node = y := Option.some.inj (leads'.at?_names.symm.trans (same ▸ kept))
    rcases kind with alike | ⟨_, es', _, grown⟩
    · exact ⟨entries, alike.symm⟩
    · exact ⟨es', grown⟩
  refine ⟨entries', here', ?_⟩
  intro s x entry
  have below : root.at? (t.names ++ [s]) = some x := by
    simpa using (leads.down here entry).at?_names
  obtain ⟨y, kept, kind⟩ := keeps _ _ below
  exact ⟨y, leads'.entryOf?_eq here' (same ▸ kept), kind⟩

theorem Step.mirrored (keeps : root.Keeps other) (step : Step follow a b)
    (leads : Leads root a.trail) (mirrored : a.Mirrored other a') :
    ∃ b', Step follow a' b' ∧ b.Mirrored other b' := by
  obtain ⟨links, u, rest⟩ := a'
  obtain ⟨rfl, rfl, leads', same⟩ := mirrored
  cases step with
  | stay here still =>
    obtain ⟨_, here', _⟩ := mirrored_directory keeps leads leads' same here
    exact ⟨_, .stay here' still, rfl, rfl, leads', same⟩
  | up here notStill up =>
    obtain ⟨_, here', _⟩ := mirrored_directory keeps leads leads' same here
    exact ⟨_, .up here' notStill up, rfl, rfl, leads'.up, by simpa using congrArg List.dropLast same⟩
  | enter here named entry notLink =>
    obtain ⟨_, here', entries⟩ := mirrored_directory keeps leads leads' same here
    obtain ⟨y, entry', kind⟩ := entries _ _ entry
    refine ⟨_, .enter here' named entry' ?_, rfl, rfl, leads'.down here' entry', by simpa using same⟩
    rcases kind with rfl | ⟨_, _, _, rfl⟩
    · exact notLink
    · exact nofun
  | link here named entry followed given =>
    obtain ⟨_, here', entries⟩ := mirrored_directory keeps leads leads' same here
    obtain ⟨y, entry', kind⟩ := entries _ _ entry
    -- Only directories have grown, so the link is the same in both trees.
    rcases kind with rfl | ⟨_, _, impossible, _⟩
    · refine ⟨_, .link here' named entry' followed given, rfl, rfl, ?_, ?_⟩
      · exact (Step.link here' named entry' followed given).leads leads'
      · dsimp only [linked]
        split
        · rfl
        · exact same
    · cases impossible

theorem run_mirrored (keeps : root.Keeps other)
    (run : Relation.ReflTransGen (Step follow) a b) (leads : Leads root a.trail)
    (mirrored : a.Mirrored other a') :
    ∃ b', Relation.ReflTransGen (Step follow) a' b' ∧ b.Mirrored other b' := by
  induction run with
  | refl => exact ⟨a', .refl, mirrored⟩
  | tail before step ih =>
    obtain ⟨c, run', same⟩ := ih
    obtain ⟨b', step', sameToo⟩ := step.mirrored keeps (run_leads before leads) same
    exact ⟨b', run'.tail step', sameToo⟩

/-- Where there was nothing, a path leads to what is put there. -/
theorem locate_withNode (free : fs.vacancy? follow p = some names) (proper : fs.root.Proper)
    (notLink : ∀ target, node ≠ .link target) :
    ∃ t, (fs.withNode names node).locate follow false p = .ok t ∧ t.node = node := by
  have vacant := vacant_of_vacancy? free
  obtain ⟨searched, links, t, s, entries, run, here, named, absent, rfl⟩ := exists_vacancy free
  have begins : (fs.search p).Mirrored (fs.withNode (t.names ++ [s]) node).root
      ((fs.withNode (t.names ++ [s]) node).search p) := ⟨rfl, rfl, .start, rfl⟩
  -- The search that stopped before the vacancy comes as far in the tree with the node in it, and
  -- enters the node from there.
  obtain ⟨⟨links', u, rest⟩, run', sameLinks, sameRest, leads, same⟩ :=
    run_mirrored (vacant.keeps proper node) run .start begins
  dsimp only at sameLinks sameRest same
  subst sameLinks sameRest
  obtain ⟨entries', here', _⟩ := mirrored_directory (vacant.keeps proper node)
    (run_leads run .start) leads same here
  have entry : entryOf? entries' s = some node :=
    leads.entryOf?_eq here' (same ▸ vacant.at?_insert proper node)
  refine ⟨u.down s node, ?_, rfl⟩
  rw [searched.locate_eq, run_result run', (Step.enter here' named entry notLink).result_eq,
    result_arrived]

/-! ### Files that are opened -/

end FileSystem

namespace FileNode

/-- The second tree holds what the first one holds and, if there are names, an empty file of these
names, which the first one does not hold. -/
structure HoldsWith (before : FileNode) (made? : Option (List String)) (after : FileNode) : Prop where
  holds_iff : ∀ names text?, after.Holds names text? ↔
    before.Holds names text? ∨ made? = some names ∧ text? = some ""
  fresh : ∀ names ∈ made?, ∀ text?, ¬ before.Holds names text?

theorem HoldsWith.refl (tree : FileNode) : tree.HoldsWith none tree := ⟨by simp, by simp⟩

theorem HoldsWith.after {made? : Option (List String)} {one two three : FileNode}
    (first : one.HoldsWith none two) (second : two.HoldsWith made? three) :
    one.HoldsWith made? three := by
  have same (names : List String) (text? : Option String) :
      two.Holds names text? ↔ one.Holds names text? := by simpa using first.holds_iff names text?
  refine ⟨fun names text? => ?_, fun names made text? => ?_⟩
  · rw [second.holds_iff, same]
  · rw [← same]
    exact second.fresh names made text?

end FileNode

namespace FileSystem

open FileNode

variable {fs gs : FileSystem} {p : Path} {o : Opening}

theorem withDirectory?_holds (proper : fs.root.Proper) (made : fs.withDirectory? p = some gs) :
    gs.root.Proper ∧ fs.root.HoldsWith none gs.root := by
  unfold withDirectory? at made
  split at made
  · split at made
    · cases made
      exact ⟨proper, .refl _⟩
    · cases made
  · obtain ⟨names, free, rfl⟩ := Option.map_eq_some_iff.mp made
    have vacant := vacant_of_vacancy? free
    have sound : (directory []).Proper := .directory (by simp) (by simp) (by simp)
    refine ⟨vacant.insert_proper proper sound, ?_, by simp⟩
    intro ns text?
    rw [withNode, vacant.holds_insert proper sound]
    simp [not_holds_empty]

theorem withDirectories?_holds {path more : List Component} (proper : fs.root.Proper)
    (made : fs.withDirectories? path more = some gs) :
    gs.root.Proper ∧ fs.root.HoldsWith none gs.root := by
  induction more generalizing fs path with
  | nil =>
    cases made
    exact ⟨proper, .refl _⟩
  | cons c cs ih =>
    obtain ⟨between, first, rest⟩ := Option.bind_eq_some_iff.mp made
    obtain ⟨properBetween, same⟩ := withDirectory?_holds proper first
    obtain ⟨properThen, sameToo⟩ := ih properBetween rest
    exact ⟨properThen, same.after sameToo⟩

/-- A file that was opened is where its path leads. -/
def IsOpen (fs : FileSystem) (p : Path) : Prop :=
  ∃ t text?, fs.locate true false p = .ok t ∧ t.node = .file text?

theorem openedThere?_holds (proper : fs.root.Proper) (opened : fs.openedThere? p = some o) :
    fs.root.HoldsWith o.made? o.files.root ∧ o.files.IsOpen p := by
  unfold openedThere? at opened
  split at opened
  · next t located =>
    split at opened
    · next text? isFile =>
      cases opened
      exact ⟨.refl _, t, text?, located, isFile⟩
    · cases opened
  · obtain ⟨names, free, rfl⟩ := Option.map_eq_some_iff.mp opened
    have vacant := vacant_of_vacancy? free
    have notLink (target : Path) : FileNode.file (some "") ≠ .link target := nofun
    obtain ⟨t, located, isFile⟩ := locate_withNode free proper notLink
    refine ⟨⟨fun ns text? => ?_, ?_⟩, t, _, located, isFile⟩
    · rw [withNode, vacant.holds_insert proper (.file _)]
      simp [holds_file_iff, eq_comm]
    · rintro _ ⟨⟩ text? held
      exact vacant.not_holds proper [] (by rwa [List.append_nil])

/-- Opening a file leaves all others as they are, and makes none but the one that its path leads to
afterwards. -/
theorem opening?_holds (proper : fs.root.Proper) (opened : fs.opening? p = some o) :
    fs.root.HoldsWith o.made? o.files.root ∧ o.files.IsOpen p := by
  unfold opening? at opened
  split at opened
  · next there =>
    cases opened
    exact openedThere?_holds proper there
  · obtain ⟨between, made, there⟩ := Option.bind_eq_some_iff.mp opened
    obtain ⟨properBetween, same⟩ := withDirectories?_holds proper made
    obtain ⟨holds, isOpen⟩ := openedThere?_holds properBetween there
    exact ⟨same.after holds, isOpen⟩

end FileSystem
end Phrasebook
