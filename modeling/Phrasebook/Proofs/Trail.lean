import Mathlib.Data.List.Nodup
import Mathlib.Logic.Relation
import Phrasebook.Files.Tree

/-!
Where paths lead. Following a path is a run of steps: some stay, some go up, some enter an entry of
a directory, and some put the target of a link in its place. So a path leads nowhere but to a part
of the tree, at the names that its trail tells.
-/

namespace Phrasebook

namespace FileNode

variable {entries : List (String × FileNode)} {name : String} {node : FileNode}

theorem mem_of_entryOf? (entry : entryOf? entries name = some node) : (name, node) ∈ entries := by
  obtain ⟨e, first, rfl⟩ := Option.map_eq_some_iff.mp entry
  have named : e.1 = name := by simpa using List.find?_some first
  exact named ▸ List.mem_of_find?_eq_some first

theorem entryOf?_eq_none_iff : entryOf? entries name = none ↔ ∀ e ∈ entries, e.1 ≠ name := by
  simp [entryOf?]

/-- Where names are different, an entry is found by its name. -/
theorem entryOf?_eq_some_iff (different : (entries.map (·.1)).Nodup) :
    entryOf? entries name = some node ↔ (name, node) ∈ entries := by
  refine ⟨mem_of_entryOf?, fun member => ?_⟩
  cases found : entryOf? entries name with
  | none => exact absurd rfl (entryOf?_eq_none_iff.mp found _ member)
  | some other =>
    have same := List.inj_on_of_nodup_map different (mem_of_entryOf? found) member rfl
    rw [(Prod.mk.inj same).2]

/-- The node that names lead to. -/
def at? : FileNode → List String → Option FileNode
  | node, [] => some node
  | directory entries, n :: ns => (entryOf? entries n).bind (·.at? ns)
  | _, _ :: _ => none

@[simp] theorem at?_nil (node : FileNode) : node.at? [] = some node := by
  cases node <;> rfl

@[simp] theorem at?_directory_cons (entries : List (String × FileNode)) (name : String)
    (names : List String) :
    (directory entries).at? (name :: names) = (entryOf? entries name).bind (·.at? names) := rfl

theorem at?_append (node : FileNode) (front back : List String) :
    node.at? (front ++ back) = (node.at? front).bind (·.at? back) := by
  induction front generalizing node with
  | nil => simp
  | cons n ns ih =>
    cases node with
    | file text? => rfl
    | link target => rfl
    | directory entries =>
      rw [List.cons_append, at?_directory_cons, at?_directory_cons]
      cases entryOf? entries n with
      | none => rfl
      | some child => exact ih child

end FileNode

open FileNode

namespace Trail

variable {root : FileNode} {t : Trail}

@[simp] theorem names_down (t : Trail) (name : String) (node : FileNode) :
    (t.down name node).names = t.names ++ [name] := by
  simp [names, down]

@[simp] theorem node_down (t : Trail) (name : String) (node : FileNode) :
    (t.down name node).node = node := rfl

@[simp] theorem names_up (t : Trail) : t.up.names = t.names.dropLast := by
  simp [names, up]

/-- The trail begins at the root and goes from directories to their entries. -/
inductive Leads (root : FileNode) : Trail → Prop
  | start : Leads root ⟨root, []⟩
  | down {t : Trail} {entries name node} (before : Leads root t)
      (here : t.node = .directory entries) (entry : entryOf? entries name = some node) :
      Leads root (t.down name node)

theorem Leads.root_eq (leads : Leads root t) : t.root = root := by
  induction leads with
  | start => rfl
  | down _ _ _ ih => exact ih

theorem Leads.up (leads : Leads root t) : Leads root t.up := by
  cases leads with
  | start => exact .start
  | down before _ _ => exact before

theorem Leads.at?_names (leads : Leads root t) : root.at? t.names = some t.node := by
  induction leads with
  | start => exact at?_nil root
  | down before here entry ih =>
    rw [names_down, at?_append, ih, Option.bind_some, here, at?_directory_cons, entry]
    rfl

theorem Leads.entryOf?_eq (leads : Leads root t) {entries : List (String × FileNode)} {name : String}
    {node : FileNode} (here : t.node = .directory entries)
    (below : root.at? (t.names ++ [name]) = some node) : entryOf? entries name = some node := by
  rw [at?_append, leads.at?_names, here, Option.bind_some, at?_directory_cons] at below
  obtain ⟨found, entry, last⟩ := Option.bind_eq_some_iff.mp below
  rw [entry, ← Option.some.inj ((at?_nil found).symm.trans last)]

end Trail

namespace FileSystem

open Trail

/-! ### Steps -/

/-- Where following a path stands: how many links may still be followed, how far it came, and what
is left of the path. -/
structure Search where
  links : Nat
  trail : Trail
  rest : List String

/-- A segment that is looked up in a directory. -/
structure IsLookedUp (segment : String) : Prop where
  notStill : (segment.isEmpty || segment == ".") = false
  notUp : (segment == "..") = false
  short : ¬ 255 < segment.utf8ByteSize

/-- Where a link of that target leads to is searched from the directory that it stands in. -/
def linked (t : Trail) (target : Path) : Trail :=
  if target.isAbsolute then { t with steps := [] } else t

variable {follow make : Bool} {a b : Search} {u : Trail} {root : FileNode}

/-- What following a path comes to. -/
def Search.result (follow make : Bool) (a : Search) : Except FileError Trail :=
  descend follow make a.links a.trail a.rest

inductive Step (follow : Bool) : Search → Search → Prop
  | stay {t : Trail} {s : String} {links rest entries} (here : t.node = .directory entries)
      (still : (s.isEmpty || s == ".") = true) :
      Step follow ⟨links, t, s :: rest⟩ ⟨links, t, rest⟩
  | up {t : Trail} {s : String} {links rest entries} (here : t.node = .directory entries)
      (notStill : (s.isEmpty || s == ".") = false) (up : (s == "..") = true) :
      Step follow ⟨links, t, s :: rest⟩ ⟨links, t.up, rest⟩
  | enter {t : Trail} {s : String} {links rest entries node} (here : t.node = .directory entries)
      (named : IsLookedUp s) (entry : entryOf? entries s = some node)
      (notLink : ∀ target, node ≠ .link target) :
      Step follow ⟨links, t, s :: rest⟩ ⟨links, t.down s node, rest⟩
  | link {t : Trail} {s : String} {rest : List String} {target : Path} {links entries}
      (here : t.node = .directory entries) (named : IsLookedUp s)
      (entry : entryOf? entries s = some (.link target))
      (followed : (rest.isEmpty && !follow) = false) (given : target.text.isEmpty = false) :
      Step follow ⟨links + 1, t, s :: rest⟩ ⟨links, linked t target, segmentTexts target ++ rest⟩

/-- Where no step is left. -/
inductive Stops (follow : Bool) : Search → Prop
  | arrived {t links} : Stops follow ⟨links, t, []⟩
  | atLink {t : Trail} {s : String} {links entries target} (here : t.node = .directory entries)
      (named : IsLookedUp s) (entry : entryOf? entries s = some (.link target))
      (unfollowed : follow = false) : Stops follow ⟨links, t, [s]⟩
  | vacant {t : Trail} {s : String} {links entries} (here : t.node = .directory entries)
      (named : IsLookedUp s) (absent : entryOf? entries s = none) : Stops follow ⟨links, t, [s]⟩
  | failed {a : Search} (fails : ∀ make, ∃ e, a.result follow make = .error e) : Stops follow a

theorem Step.result_eq (step : Step follow a b) (make : Bool) :
    a.result follow make = b.result follow make := by
  cases step with
  | stay here still =>
    rw [Search.result, descend]
    simp only [here, still, if_true]
    rfl
  | up here notStill up =>
    rw [Search.result, descend]
    simp only [here, notStill, up, if_true]
    rfl
  | enter here named entry notLink =>
    rw [Search.result, descend]
    simp only [here, named.notStill, named.notUp, named.short, entry, if_false]
    rfl
  | link here named entry followed given =>
    rw [Search.result, descend]
    simp only [here, named.notStill, named.notUp, named.short, entry, followed, given]
    rfl

theorem run_result (run : Relation.ReflTransGen (Step follow) a b) (make : Bool) :
    a.result follow make = b.result follow make := by
  induction run with
  | refl => rfl
  | tail _ step ih => exact ih.trans (step.result_eq make)

/-- Following a path comes to an end. -/
theorem exists_stop (follow : Bool) (a : Search) :
    ∃ b, Relation.ReflTransGen (Step follow) a b ∧ Stops follow b := by
  obtain ⟨links, t, rest⟩ := a
  -- The cases are those of `descend`. Whether the last name may be missing makes a difference only
  -- to what a search comes to there, not to how it goes on.
  induction links, t, rest using descend.induct follow true with
  | case1 links t => exact ⟨_, .refl, .arrived⟩
  | case2 links t s rest entries here still ih =>
    obtain ⟨b, run, stops⟩ := ih
    exact ⟨b, .head (.stay here still) run, stops⟩
  | case3 links t s rest entries here moves up ih =>
    obtain ⟨b, run, stops⟩ := ih
    exact ⟨b, .head (.up here (Bool.eq_false_iff.mpr moves) up) run, stops⟩
  | case4 links t s rest entries here moves notUp long =>
    refine ⟨_, .refl, .failed fun make => ⟨.nameTooLong, ?_⟩⟩
    rw [Search.result, descend]
    simp [here, moves, notUp, long]
  | case5 links t s rest entries here moves notUp short absent last =>
    obtain rfl : rest = [] := by simpa using last
    exact ⟨_, .refl, .vacant here ⟨Bool.eq_false_iff.mpr moves, Bool.eq_false_iff.mpr notUp, short⟩
      absent⟩
  | case6 links t s rest entries here moves notUp short absent more =>
    refine ⟨_, .refl, .failed fun make => ⟨.notFound, ?_⟩⟩
    have later : rest.isEmpty = false := by simpa using more
    rw [Search.result, descend]
    simp [here, moves, notUp, short, absent, later]
  | case7 links t s rest entries here moves notUp short target isLink last =>
    obtain ⟨rfl, rfl⟩ : rest = [] ∧ follow = false := by simpa using last
    exact ⟨_, .refl, .atLink here ⟨Bool.eq_false_iff.mpr moves, Bool.eq_false_iff.mpr notUp, short⟩
      isLink rfl⟩
  | case8 t s rest entries here moves notUp short target isLink followed =>
    refine ⟨_, .refl, .failed fun make => ⟨.tooManyLinks, ?_⟩⟩
    rw [Search.result, descend]
    simp [here, moves, notUp, short, isLink, followed]
  | case9 t s rest entries here moves notUp short target isLink followed links empty =>
    refine ⟨_, .refl, .failed fun make => ⟨.notFound, ?_⟩⟩
    rw [Search.result, descend]
    simp [here, moves, notUp, short, isLink, followed, empty]
  | case10 t s rest entries here moves notUp short target isLink followed links given start ih =>
    obtain ⟨b, run, stops⟩ := ih
    exact ⟨b, .head (.link here ⟨Bool.eq_false_iff.mpr moves, Bool.eq_false_iff.mpr notUp, short⟩
      isLink (Bool.eq_false_iff.mpr followed) (Bool.eq_false_iff.mpr given)) run, stops⟩
  | case11 links t s rest entries here moves notUp short node notLink isNode ih =>
    obtain ⟨b, run, stops⟩ := ih
    exact ⟨b, .head (.enter here ⟨Bool.eq_false_iff.mpr moves, Bool.eq_false_iff.mpr notUp, short⟩
      isNode fun target isLink => notLink target isLink) run, stops⟩
  | case12 links t s rest notDirectory =>
    refine ⟨_, .refl, .failed fun make => ⟨.notADirectory, ?_⟩⟩
    rw [Search.result, descend]
    split
    · next entries here => exact absurd here (notDirectory entries)
    · rfl

/-! ### Where paths end -/

@[simp] theorem result_arrived (follow make : Bool) (links : Nat) (t : Trail) :
    (⟨links, t, []⟩ : Search).result follow make = .ok t := by
  rw [Search.result, descend]

theorem result_atLink {links : Nat} {t : Trail} {s : String} {entries : List (String × FileNode)}
    {target : Path} (here : t.node = .directory entries) (named : IsLookedUp s)
    (entry : entryOf? entries s = some (.link target)) (make : Bool) :
    (⟨links, t, [s]⟩ : Search).result false make = .ok (t.down s (.link target)) := by
  rw [Search.result, descend]
  simp only [here, named.notStill, named.notUp, named.short, entry]
  rfl

theorem result_vacant {links : Nat} {t : Trail} {s : String} {entries : List (String × FileNode)}
    (here : t.node = .directory entries) (named : IsLookedUp s) (absent : entryOf? entries s = none)
    (follow make : Bool) :
    (⟨links, t, [s]⟩ : Search).result follow make =
      if make then .ok (t.down s (.directory [])) else .error .notFound := by
  rw [Search.result, descend]
  simp only [here, named.notStill, named.notUp, named.short, absent]
  cases make <;> rfl

theorem Step.leads (step : Step follow a b) (leads : Leads root a.trail) : Leads root b.trail := by
  cases step with
  | stay here still => exact leads
  | up here notStill up => exact leads.up
  | enter here named entry notLink => exact leads.down here entry
  | link here named entry followed given =>
    -- The target is searched from where the link stands, or all over again from the root.
    dsimp only [linked]
    split
    · rw [leads.root_eq]
      exact .start
    · exact leads

theorem run_leads (run : Relation.ReflTransGen (Step follow) a b) (leads : Leads root a.trail) :
    Leads root b.trail := by
  induction run with
  | refl => exact leads
  | tail _ step ih => exact step.leads ih

/-- What a path leads to is a part of the tree. -/
theorem result_leads (leads : Leads root a.trail) (led : a.result follow false = .ok u) :
    Leads root u := by
  obtain ⟨b, run, stops⟩ := exists_stop follow a
  have before := run_leads run leads
  rw [run_result run false] at led
  cases stops with
  | arrived =>
    rw [result_arrived] at led
    cases led
    exact before
  | atLink here named entry unfollowed =>
    subst unfollowed
    rw [result_atLink here named entry] at led
    cases led
    exact before.down here entry
  | vacant here named absent =>
    rw [result_vacant here named absent] at led
    cases led
  | failed fails =>
    obtain ⟨e, fails⟩ := fails false
    rw [fails] at led
    cases led

/-- A path that leads somewhere only if its last name may be missing leads to a directory without an
entry of that name. -/
theorem exists_vacant {e : FileError} (found : a.result follow true = .ok u)
    (missing : a.result follow false = .error e) :
    ∃ links t s entries, Relation.ReflTransGen (Step follow) a ⟨links, t, [s]⟩ ∧
      t.node = .directory entries ∧ IsLookedUp s ∧ entryOf? entries s = none ∧
      u = t.down s (.directory []) := by
  obtain ⟨b, run, stops⟩ := exists_stop follow a
  rw [run_result run true] at found
  rw [run_result run false] at missing
  cases stops with
  | arrived =>
    rw [result_arrived] at missing
    cases missing
  | atLink here named entry unfollowed =>
    subst unfollowed
    rw [result_atLink here named entry] at missing
    cases missing
  | vacant here named absent =>
    rw [result_vacant here named absent] at found
    cases found
    exact ⟨_, _, _, _, run, here, named, absent, rfl⟩
  | failed fails =>
    obtain ⟨e, fails⟩ := fails true
    rw [fails] at found
    cases found

/-! ### Paths that are searched -/

/-- A path that is not refused before it is followed. -/
structure Searched (p : Path) : Prop where
  noNul : p.text.toList.contains '\x00' = false
  given : p.text.isEmpty = false

/-- Where following a path begins. -/
def search (fs : FileSystem) (p : Path) : Search :=
  ⟨linkLimit, ⟨fs.root, []⟩, (if p.isAbsolute then [] else fs.current) ++ segmentTexts p⟩

variable {fs : FileSystem} {p : Path} {t : Trail}

theorem Searched.locate_eq (searched : Searched p) (fs : FileSystem) (follow make : Bool) :
    fs.locate follow make p = (fs.search p).result follow make := by
  simp only [locate, searched.noNul, searched.given]
  rfl

theorem searched_of_located (located : fs.locate follow make p = .ok t) : Searched p := by
  unfold locate at located
  split at located
  · cases located
  · next noNul =>
    split at located
    · cases located
    · next given => exact ⟨Bool.eq_false_iff.mpr noNul, Bool.eq_false_iff.mpr given⟩

theorem given_of_located (located : fs.locate follow make p = .ok t) : p.text ≠ "" := by
  simpa using (searched_of_located located).given

theorem locate_leads (located : fs.locate follow false p = .ok t) : Leads fs.root t := by
  rw [(searched_of_located located).locate_eq] at located
  exact result_leads .start located

end FileSystem
end Phrasebook
