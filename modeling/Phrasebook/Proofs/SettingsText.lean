import Mathlib.Data.List.Nodup
import Phrasebook.Proofs.BlockNodes
import Phrasebook.Settings.Reading

/-!
Settings from a block mapping. A text sets the fields that it names and no others, in whatever order
and layout it names them, and fields of other names change nothing.
-/

namespace Phrasebook

open Yaml

/-! ### Fields in any order -/

namespace Yaml

theorem passOver_of_unbroken {n : Node} (unbroken : ∀ k ∈ n.nodes, ∀ f, k ≠ .broken f) :
    Spot.passOver n = .ok () := by
  rw [Spot.passOver, List.findSome?_eq_none_iff.mpr]
  intro k member
  split
  · next f => exact absurd rfl (unbroken _ member f)
  · rfl

theorem nodes_scalar {sc : Scalar} {n : Node} (place : sc.At n) : n.nodes = [n] := by
  obtain ⟨h, rfl⟩ := place
  rw [Node.nodes] <;> exact nofun

theorem unbroken_scalar {sc : Scalar} {n : Node} (place : sc.At n) :
    ∀ k ∈ n.nodes, ∀ f, k ≠ .broken f := by
  rw [nodes_scalar place]
  obtain ⟨h, rfl⟩ := place
  intro k member f
  rw [List.mem_singleton.mp member]
  exact nofun

theorem unbroken_fields {fs : List Field} {entries : List (Node × Node)}
    (fields : List.Forall₂ Field.At fs entries) :
    ∀ k ∈ Node.nodesOfEntries entries, ∀ f, k ≠ .broken f := by
  induction fields with
  | nil => exact fun k member => by rw [Node.nodesOfEntries] at member; cases member
  | @cons g p fs entries here _ ih =>
    obtain ⟨⟨_, key⟩, value⟩ := here
    intro k member
    rw [Node.nodesOfEntries, List.mem_append, List.mem_append] at member
    rcases member with (first | second) | more
    · exact unbroken_scalar key k first
    · exact unbroken_scalar value k second
    · exact ih k more

/-- No value is broken. -/
theorem passOver_entry {e : Entry} {n : Node} (value : e.ValueAt n) : Spot.passOver n = .ok () := by
  cases value with
  | field leaf => exact passOver_of_unbroken (unbroken_scalar leaf)
  | group fields =>
    refine passOver_of_unbroken fun k member => ?_
    rw [Node.nodes, List.mem_cons] at member
    rcases member with rfl | inside
    · rintro f ⟨⟩
    · exact unbroken_fields fields k inside

namespace Spot

variable {σ α : Type} {known : String → Option (FieldReader σ)} {name : α → String}
  {At : α → Node → Prop} {set : σ → α → σ} {as : List α}

theorem fieldName_key {s : Spot} {k : String} {n : Node} (key : KeyAt k n) :
    fieldName { s with node := n } = .ok (k, k) := by
  obtain ⟨_, h, rfl⟩ := key
  rfl

theorem resolved_scalar {sc : Scalar} {v : Spot} (place : sc.At v.node) :
    ∃ h, v.resolved = .scalar h sc := by
  obtain ⟨h, node⟩ := place
  exact ⟨h, by rw [resolved, node]⟩

theorem text_scalar {sc : Scalar} {v : Spot} (place : sc.At v.node) (expected : String) :
    v.text expected = .ok sc.text := by
  obtain ⟨h, resolved⟩ := resolved_scalar place
  rw [text, resolved]

theorem boolean_truth {t : Truth} {v : Spot} (place : (Leaf.truth t).scalar.At v.node) :
    v.boolean = .ok t.value := by
  obtain ⟨h, resolved⟩ := resolved_scalar place
  have plain : canBeBoolean (Leaf.truth t).scalar = true := rfl
  rw [boolean, resolved]
  simp only [plain, if_true]
  rw [Leaf.scalar, t.spelled]

theorem optional_text {β : Type} {s : String} {v : Spot} (place : (Leaf.text s).scalar.At v.node)
    (around : Mark) (decode : Spot → Decoded β) :
    v.optional around decode = (decode v).map some := by
  obtain ⟨h, resolved⟩ := resolved_scalar place
  rw [optional, resolved]
  rfl

/-- Known fields are set one after another, the others are passed over. -/
theorem fields_foldl {s : Spot} {start : Mark} {entries : List (Node × Node)} {seen : List String}
    {acc : σ}
    (shown : List.Forall₂ (fun a p => KeyAt (name a) p.1 ∧ At a p.2) as entries)
    (readable : ∀ a n, At a n → passOver n = .ok ())
    (reads : ∀ a ∈ as, ∀ read, known (name a) = some read →
      ∀ acc m (v : Spot), At a v.node → read acc m v = .ok (set acc a))
    (once : ((as.filter fun a => (known (name a)).isSome).map name).Nodup)
    (unseen : ∀ a ∈ as, (known (name a)).isSome = true → name a ∉ seen) :
    fields known s start entries seen acc =
      .ok ((as.filter fun a => (known (name a)).isSome).foldl set acc) := by
  -- Only known names are remembered as seen, so a foreign field may come as often as it likes.
  induction shown generalizing seen acc with
  | nil => rfl
  | @cons a p as entries here shown ih =>
    obtain ⟨k, v⟩ := p
    obtain ⟨key, value⟩ := here
    have reads' := fun b member => reads b (List.mem_cons_of_mem a member)
    have unseen' := fun b member => unseen b (List.mem_cons_of_mem a member)
    rw [fields, fieldName_key key]
    simp only [bind, Except.bind]
    cases field : known (name a) with
    | none =>
      have skipped : (a :: as).filter (fun a => (known (name a)).isSome) =
          as.filter fun a => (known (name a)).isSome := by
        rw [List.filter_cons, field]
        rfl
      rw [skipped] at once ⊢
      simp only [readable a v value]
      exact ih reads' once unseen'
    | some read =>
      have taken : (a :: as).filter (fun a => (known (name a)).isSome) =
          a :: as.filter fun a => (known (name a)).isSome := by
        rw [List.filter_cons, field]
        rfl
      have fresh : seen.contains (name a) = false := by
        rw [Bool.eq_false_iff, ne_eq, List.contains_iff_mem]
        exact unseen a List.mem_cons_self (by rw [field]; rfl)
      rw [taken, List.map_cons, List.nodup_cons] at once
      rw [taken, List.foldl_cons]
      simp only [fresh, Bool.false_eq_true, if_false]
      rw [reads a List.mem_cons_self read field _ _ _ value]
      refine ih reads' once.2 fun b member isKnown seenBefore => ?_
      rcases List.mem_cons.mp seenBefore with same | before
      · exact once.1 (same ▸ List.mem_map_of_mem (List.mem_filter.mpr ⟨member, isKnown⟩))
      · exact unseen' b member isKnown before

/-- Settings of different names may be made in any order. -/
theorem foldl_perm {f : σ → α → σ} {bs : List α} (perm : as.Perm bs) (once : (bs.map name).Nodup)
    (comm : ∀ x y z, name x ≠ name y → f (f z x) y = f (f z y) x) (init : σ) :
    as.foldl f init = bs.foldl f init := by
  refine perm.foldl_eq' (fun x hx y hy z => ?_) init
  by_cases same : name x = name y
  · rw [List.inj_on_of_nodup_map once (perm.subset hx) (perm.subset hy) same]
  · exact comm x y z same

/-- A mapping whose known fields are the chosen ones in some order is read as the usual value with
the chosen fields set. -/
theorem record_foldl {names : List String} {chosen : List α} {expected : String} {usual : σ}
    {entries : List (Node × Node)} {v : Spot} {h : Head}
    (known_iff : ∀ n, (known n).isSome = names.contains n)
    (comm : ∀ x y z, name x ≠ name y → set (set z x) y = set (set z y) x)
    (readable : ∀ a n, At a n → passOver n = .ok ())
    (reads : ∀ a ∈ chosen, ∀ read, known (name a) = some read →
      ∀ acc m (v : Spot), At a v.node → read acc m v = .ok (set acc a))
    (once : (chosen.map name).Nodup)
    (perm : (as.filter fun a => names.contains (name a)).Perm chosen)
    (node : v.node = .mapping h entries)
    (shown : List.Forall₂ (fun a p => KeyAt (name a) p.1 ∧ At a p.2) as entries) :
    record expected known usual v = .ok (chosen.foldl set usual) := by
  have own : (as.filter fun a => (known (name a)).isSome) =
      as.filter fun a => names.contains (name a) := by
    simp only [known_iff]
  have reads' : ∀ a ∈ as, ∀ read, known (name a) = some read →
      ∀ acc m (v : Spot), At a v.node → read acc m v = .ok (set acc a) := by
    intro a member read isKnown
    refine reads a (perm.subset (List.mem_filter.mpr ⟨member, ?_⟩)) read isKnown
    rw [← known_iff, isKnown]
    rfl
  have resolved : v.resolved = .mapping h entries := by
    rw [Spot.resolved, node]
  rw [record, resolved]
  simp only
  rw [fields_foldl shown readable reads' (own ▸ (perm.map name).nodup_iff.mpr once)
    fun _ _ _ => List.not_mem_nil, own, foldl_perm perm once comm]

end Spot
end Yaml

/-! ### What a text sets -/

/-- The values that a text gives; what it leaves out has none. -/
structure Choice where
  directory? : Option String
  locale? : Option String
  isolating? : Option Truth
  level? : Option String
  json? : Option Truth
  file? : Option String

namespace Choice

/-- The usual settings with these values in the place of theirs. -/
def settings (c : Choice) : Settings where
  translations :=
    { directory := (c.directory?.map Path.mk).getD TranslationSettings.usual.directory
      defaultLocale := c.locale?.getD TranslationSettings.usual.defaultLocale
      isolating := (c.isolating?.map Truth.value).getD TranslationSettings.usual.isolating }
  log :=
    { level := c.level?.getD LogSettings.usual.level
      json := (c.json?.map Truth.value).getD LogSettings.usual.json
      file? := (c.file?.map Path.mk).or LogSettings.usual.file? }

def translationFields (c : Choice) : List Field :=
  (c.directory?.map fun s => ⟨"translations_dir", .text s⟩).toList ++
    (c.locale?.map fun s => ⟨"default_locale", .text s⟩).toList ++
    (c.isolating?.map fun t => ⟨"use_isolating", .truth t⟩).toList

def logFields (c : Choice) : List Field :=
  (c.level?.map fun s => ⟨"level", .text s⟩).toList ++
    (c.json?.map fun t => ⟨"json", .truth t⟩).toList ++
    (c.file?.map fun s => ⟨"file", .text s⟩).toList

def translationNames : List String := ["translations_dir", "default_locale", "use_isolating"]

def logNames : List String := ["level", "json", "file"]

def groupNames : List String := ["i18n", "logging"]

/-- A group with these fields, unless none of its own is chosen. -/
def group (name : String) (chosen fields : List Field) : List Entry :=
  if chosen.isEmpty then [] else [.group name fields]

/-- The entries give the chosen fields in their groups and in any order. Fields of other names may
stand in the groups and beside them. -/
inductive ListedIn (c : Choice) (es : List Entry) : Prop where
  | mk {translations log : List Field}
      (translations_perm :
        (translations.filter fun f => translationNames.contains f.key).Perm c.translationFields)
      (log_perm : (log.filter fun f => logNames.contains f.key).Perm c.logFields)
      (groups_perm : (es.filter fun e => groupNames.contains e.key).Perm
        (group "i18n" c.translationFields translations ++ group "logging" c.logFields log))

theorem nodup_translationFields (c : Choice) : (c.translationFields.map Field.key).Nodup := by
  obtain ⟨directory?, locale?, isolating?, -, -, -⟩ := c
  cases directory? <;> cases locale? <;> cases isolating? <;> simp [translationFields]

theorem nodup_logFields (c : Choice) : (c.logFields.map Field.key).Nodup := by
  obtain ⟨-, -, -, level?, json?, file?⟩ := c
  cases level? <;> cases json? <;> cases file? <;> simp [logFields]

end Choice

/-! ### The translation settings -/

namespace TranslationSettings

/-- Settings with one field set. -/
def withField (s : TranslationSettings) (f : Field) : TranslationSettings :=
  match f.key, f.value with
  | "translations_dir", .text t => { s with directory := ⟨t⟩ }
  | "default_locale", .text t => { s with defaultLocale := t }
  | "use_isolating", .truth t => { s with isolating := t.value }
  | _, _ => s

theorem isSome_field? (name : String) :
    (field? name).isSome = Choice.translationNames.contains name := by
  unfold field?
  split
  · rfl
  · rfl
  · rfl
  · next directory locale isolating =>
    simp only [Choice.translationNames, Option.isSome_none, List.contains_cons, List.contains_nil,
      beq_eq_false_iff_ne.mpr directory, beq_eq_false_iff_ne.mpr locale,
      beq_eq_false_iff_ne.mpr isolating, Bool.or_false]

theorem withField_comm (f g : Field) (s : TranslationSettings) (differ : f.key ≠ g.key) :
    (s.withField f).withField g = (s.withField g).withField f := by
  unfold withField
  split <;> split <;> first | rfl | simp_all

theorem foldl_withField (c : Choice) :
    c.translationFields.foldl withField usual = c.settings.translations := by
  obtain ⟨directory?, locale?, isolating?, -, -, -⟩ := c
  cases directory? <;> cases locale? <;> cases isolating? <;> rfl

theorem read_field {c : Choice} {f : Field} (member : f ∈ c.translationFields)
    {read : Spot.FieldReader TranslationSettings} (known : field? f.key = some read)
    (acc : TranslationSettings) (m : Mark) (v : Spot) (value : f.value.scalar.At v.node) :
    read acc m v = .ok (acc.withField f) := by
  simp only [Choice.translationFields, List.mem_append, Option.mem_toList,
    Option.map_eq_some_iff] at member
  rcases member with (⟨s, -, rfl⟩ | ⟨s, -, rfl⟩) | ⟨t, -, rfl⟩
  · obtain rfl := Option.some.inj known
    simp only [pathOf, Spot.text_scalar value]
    rfl
  · obtain rfl := Option.some.inj known
    simp only [Spot.text_scalar value]
    rfl
  · obtain rfl := Option.some.inj known
    simp only [Spot.boolean_truth value]
    rfl

/-- A group with the chosen fields and fields of other names gives the chosen settings. -/
theorem read_group {c : Choice} {fs : List Field} {entries : List (Node × Node)} {v : Spot}
    {h : Head}
    (perm : (fs.filter fun f => Choice.translationNames.contains f.key).Perm c.translationFields)
    (node : v.node = .mapping h entries) (shown : List.Forall₂ Field.At fs entries) :
    read v = .ok c.settings.translations := by
  rw [read, ← foldl_withField c]
  exact Spot.record_foldl isSome_field? (fun f g s => withField_comm f g s)
    (fun f n place => passOver_of_unbroken (unbroken_scalar place))
    (fun f member read known => read_field member known) c.nodup_translationFields perm node shown

end TranslationSettings

/-! ### The log settings -/

namespace LogSettings

/-- Settings with one field set. -/
def withField (s : LogSettings) (f : Field) : LogSettings :=
  match f.key, f.value with
  | "level", .text t => { s with level := t }
  | "json", .truth t => { s with json := t.value }
  | "file", .text t => { s with file? := some ⟨t⟩ }
  | _, _ => s

theorem isSome_field? (name : String) : (field? name).isSome = Choice.logNames.contains name := by
  unfold field?
  split
  · rfl
  · rfl
  · rfl
  · next level json file =>
    simp only [Choice.logNames, Option.isSome_none, List.contains_cons, List.contains_nil,
      beq_eq_false_iff_ne.mpr level, beq_eq_false_iff_ne.mpr json, beq_eq_false_iff_ne.mpr file,
      Bool.or_false]

theorem withField_comm (f g : Field) (s : LogSettings) (differ : f.key ≠ g.key) :
    (s.withField f).withField g = (s.withField g).withField f := by
  unfold withField
  split <;> split <;> first | rfl | simp_all

theorem foldl_withField (c : Choice) : c.logFields.foldl withField usual = c.settings.log := by
  obtain ⟨-, -, -, level?, json?, file?⟩ := c
  cases level? <;> cases json? <;> cases file? <;> rfl

theorem read_field {c : Choice} {f : Field} (member : f ∈ c.logFields)
    {read : Spot.FieldReader LogSettings} (known : field? f.key = some read) (acc : LogSettings)
    (m : Mark) (v : Spot) (value : f.value.scalar.At v.node) :
    read acc m v = .ok (acc.withField f) := by
  simp only [Choice.logFields, List.mem_append, Option.mem_toList,
    Option.map_eq_some_iff] at member
  rcases member with (⟨s, -, rfl⟩ | ⟨t, -, rfl⟩) | ⟨s, -, rfl⟩
  · obtain rfl := Option.some.inj known
    simp only [Spot.text_scalar value]
    rfl
  · obtain rfl := Option.some.inj known
    simp only [Spot.boolean_truth value]
    rfl
  · obtain rfl := Option.some.inj known
    simp only [Spot.optional_text value, pathOf, Spot.text_scalar value]
    rfl

theorem read_group {c : Choice} {fs : List Field} {entries : List (Node × Node)} {v : Spot}
    {h : Head} (perm : (fs.filter fun f => Choice.logNames.contains f.key).Perm c.logFields)
    (node : v.node = .mapping h entries) (shown : List.Forall₂ Field.At fs entries) :
    read v = .ok c.settings.log := by
  rw [read, ← foldl_withField c]
  exact Spot.record_foldl isSome_field? (fun f g s => withField_comm f g s)
    (fun f n place => passOver_of_unbroken (unbroken_scalar place))
    (fun f member read known => read_field member known) c.nodup_logFields perm node shown

end LogSettings

/-! ### All settings -/

namespace Settings

variable {c : Choice}

/-- Settings with the chosen ones of one group. -/
def withGroup (c : Choice) (s : Settings) (e : Entry) : Settings :=
  match e.key with
  | "i18n" => { s with translations := c.settings.translations }
  | "logging" => { s with log := c.settings.log }
  | _ => s

theorem isSome_field? (name : String) : (field? name).isSome = Choice.groupNames.contains name := by
  unfold field?
  split
  · rfl
  · rfl
  · next translations log =>
    simp only [Choice.groupNames, Option.isSome_none, List.contains_cons, List.contains_nil,
      beq_eq_false_iff_ne.mpr translations, beq_eq_false_iff_ne.mpr log, Bool.or_false]

theorem withGroup_comm (d e : Entry) (s : Settings) :
    withGroup c (withGroup c s d) e = withGroup c (withGroup c s e) d := by
  unfold withGroup
  split <;> split <;> rfl

variable {translations log : List Field}

/-- The groups that a choice fills. -/
abbrev groups (c : Choice) (translations log : List Field) : List Entry :=
  Choice.group "i18n" c.translationFields translations ++ Choice.group "logging" c.logFields log

theorem nodup_groups : ((groups c translations log).map Entry.key).Nodup := by
  unfold groups Choice.group
  split <;> split <;> simp [Entry.key]

/-- A group is left out only where the usual settings stay. -/
theorem foldl_withGroup : (groups c translations log).foldl (withGroup c) usual = c.settings := by
  have noTranslations (none : c.translationFields.isEmpty = true) :
      TranslationSettings.usual = c.settings.translations := by
    rw [← TranslationSettings.foldl_withField, List.isEmpty_iff.mp none, List.foldl_nil]
  have noLog (none : c.logFields.isEmpty = true) : LogSettings.usual = c.settings.log := by
    rw [← LogSettings.foldl_withField, List.isEmpty_iff.mp none, List.foldl_nil]
  have whole : c.settings = ⟨c.settings.translations, c.settings.log⟩ := rfl
  rw [whole]
  unfold groups Choice.group
  split
  · next translationsUsual =>
    split
    · next logUsual =>
      exact congrArg₂ Settings.mk (noTranslations translationsUsual) (noLog logUsual)
    · exact congrArg (Settings.mk · c.settings.log) (noTranslations translationsUsual)
  · split
    · next logUsual => exact congrArg (Settings.mk c.settings.translations) (noLog logUsual)
    · rfl

theorem eq_group {name : String} {chosen fields : List Field} {e : Entry}
    (member : e ∈ Choice.group name chosen fields) : e = .group name fields := by
  unfold Choice.group at member
  split at member
  · cases member
  · exact List.mem_singleton.mp member

theorem read_entry {e : Entry} (member : e ∈ groups c translations log)
    (translations_perm : (translations.filter fun f =>
      Choice.translationNames.contains f.key).Perm c.translationFields)
    (log_perm : (log.filter fun f => Choice.logNames.contains f.key).Perm c.logFields)
    {read : Spot.FieldReader Settings} (known : field? e.key = some read) (acc : Settings)
    (m : Mark) (v : Spot) (value : e.ValueAt v.node) : read acc m v = .ok (withGroup c acc e) := by
  rcases List.mem_append.mp member with inTranslations | inLog
  · obtain rfl := eq_group inTranslations
    obtain rfl := Option.some.inj known
    generalize place : v.node = n at value
    cases value with
    | group shown =>
      simp only [TranslationSettings.read_group translations_perm place shown]
      rfl
  · obtain rfl := eq_group inLog
    obtain rfl := Option.some.inj known
    generalize place : v.node = n at value
    cases value with
    | group shown =>
      simp only [LogSettings.read_group log_perm place shown]
      rfl

theorem read_entries {es : List Entry} {entries : List (Node × Node)} {v : Spot} {h : Head}
    (listed : c.ListedIn es) (node : v.node = .mapping h entries)
    (shown : List.Forall₂ Entry.At es entries) : read v = .ok c.settings := by
  obtain ⟨translations_perm, log_perm, groups_perm⟩ := listed
  rw [read, ← foldl_withGroup]
  exact Spot.record_foldl isSome_field? (fun d e s _ => withGroup_comm d e s)
    (fun e n value => passOver_entry value)
    (fun e member read known => read_entry member translations_perm log_perm known) nodup_groups
    groups_perm node shown

theorem allBlank_of_colon {text : String} (colon : ':' ∈ text.toList) :
    Text.allBlank text = false := by
  rw [Text.allBlank, Bool.eq_false_iff, ne_eq, List.all_eq_true]
  exact fun blank => absurd (blank ':' colon) (by decide)

theorem ofYaml_lists {es : List Entry} {text : String} (listed : c.ListedIn es)
    (lists : (Document.ofText text).Lists es) (filled : Text.allBlank text = false) :
    ofYaml text = .ok c.settings := by
  obtain ⟨h, entries, document, shown⟩ := lists
  have decoded : decode usual read text = .ok c.settings := by
    rw [decode, document]
    simp only [read_entries (v := ⟨.mapping h entries, .mapping h entries, []⟩) listed rfl shown]
    rfl
  rw [ofYaml, filled, decoded]
  rfl

/-- A text gives the usual settings with exactly the fields replaced that it names: any text that
is read as a mapping with these fields does, and one with a key and its value or group on each line
is read so. A blank text names none. -/
theorem ofYaml_listed :
    (∀ (c : Choice) (es : List Entry) (text : String), c.ListedIn es →
      (Document.ofText text).Lists es → Text.allBlank text = false → ofYaml text = .ok c.settings) ∧
    (∀ (c : Choice) (es : List Entry) (text : String), c.ListedIn es → PageText es text.toList →
      ofYaml text = .ok c.settings) ∧
    ∀ text : String, Text.allBlank text = true → ofYaml text = .ok usual := by
  refine ⟨fun c es text => ofYaml_lists, fun c es text listed page => ?_, fun text blank => ?_⟩
  · exact ofYaml_lists listed page.lists (allBlank_of_colon page.colon)
  · rw [ofYaml, blank]
    rfl

/-- A quoted key, and a value on a line of its own. -/
def spreadText : String := "\"i18n\":\n  default_locale:\n    \"de\"\n"

def spreadEntries : List Entry := [.group "i18n" [⟨"default_locale", .text "de"⟩]]

def spreadChoice : Choice := ⟨none, some "de", none, none, none, none⟩

/-- What stands in the text, each with its place. -/
def spreadTokens : List Token :=
  let here : Mark := ⟨0, 0, 0⟩
  let inner : Mark := ⟨10, 1, 2⟩
  let last : Mark := ⟨35, 3, 0⟩
  [⟨.blockMappingStart, here, here⟩, ⟨.key, here, here⟩,
    ⟨.scalar .doubleQuoted "i18n", here, ⟨6, 0, 6⟩⟩, ⟨.value, ⟨6, 0, 6⟩, ⟨7, 0, 7⟩⟩,
    ⟨.blockMappingStart, inner, inner⟩, ⟨.key, inner, inner⟩,
    ⟨.scalar .plain "default_locale", inner, ⟨24, 1, 16⟩⟩, ⟨.value, ⟨24, 1, 16⟩, ⟨25, 1, 17⟩⟩,
    ⟨.scalar .doubleQuoted "de", ⟨30, 2, 4⟩, ⟨34, 2, 8⟩⟩, ⟨.blockEnd, last, last⟩,
    ⟨.blockEnd, last, last⟩, ⟨.streamEnd, last, last⟩]

theorem spread_lists : (Document.ofText spreadText).Lists spreadEntries := by
  have tokens : (TokenStream.ofText spreadText.toList).tokens = spreadTokens := by decide +kernel
  have sound : (TokenStream.ofText spreadText.toList).fault? = none := by decide +kernel
  have stream : TokenStream.ofText spreadText.toList = ⟨spreadTokens, none⟩ := by
    rw [← tokens, ← sound]
  have root : Document.ofTokens ⟨spreadTokens, none⟩ = ⟨some (.mapping ⟨⟨0, 0, 0⟩, none⟩
      [(.scalar ⟨⟨0, 0, 0⟩, none⟩ ⟨.doubleQuoted, none, "i18n"⟩, .mapping ⟨⟨10, 1, 2⟩, none⟩
        [(.scalar ⟨⟨10, 1, 2⟩, none⟩ ⟨.plain, none, "default_locale"⟩,
          .scalar ⟨⟨30, 2, 4⟩, none⟩ ⟨.doubleQuoted, none, "de"⟩)])]), none, false⟩ := rfl
  have locale : Field.At ⟨"default_locale", .text "de"⟩
      (.scalar ⟨⟨10, 1, 2⟩, none⟩ ⟨.plain, none, "default_locale"⟩,
        .scalar ⟨⟨30, 2, 4⟩, none⟩ ⟨.doubleQuoted, none, "de"⟩) := ⟨⟨.plain, _, rfl⟩, _, rfl⟩
  rw [Document.ofText, stream, root]
  exact ⟨_, _, rfl, .cons ⟨⟨.doubleQuoted, _, rfl⟩, .group (.cons locale .nil)⟩ .nil⟩

theorem spread_listed : spreadChoice.ListedIn spreadEntries :=
  @Choice.ListedIn.mk _ _ [⟨"default_locale", .text "de"⟩] [] (.refl _) (.refl _) (.refl _)

/-- Comments, an empty line, both kinds of line ends, fields of other names in a group and beside
the groups, and a value that looks like more than a text. -/
def annotatedText : String :=
  "# Where to look\nlogging : # and what to say\n    zone_: \"x\"\n" ++
    "    json: True # one a line\r\n\n    level: \"a: b # c = true 1\"\n" ++
    "Other:\t\"[\"\ni18n:\n  default_locale: \"de\""

def yes : Truth := ⟨"True", true, rfl⟩

def annotatedLog : List Field :=
  [⟨"zone_", .text "x"⟩, ⟨"json", .truth yes⟩, ⟨"level", .text "a: b # c = true 1"⟩]

def annotatedEntries : List Entry :=
  [.group "logging" annotatedLog, .field ⟨"Other", .text "["⟩,
    .group "i18n" [⟨"default_locale", .text "de"⟩]]

def annotatedChoice : Choice := ⟨none, some "de", none, some "a: b # c = true 1", some yes, none⟩

theorem annotated_listed : annotatedChoice.ListedIn annotatedEntries :=
  @Choice.ListedIn.mk _ _ [⟨"default_locale", .text "de"⟩] annotatedLog (.refl _) (.swap _ _ [])
    (.swap _ _ [])

def annotatedNames : List String :=
  ["logging", "zone_", "json", "level", "Other", "i18n", "default_locale"]

theorem keyText_annotated {k : String} (member : k ∈ annotatedNames) {ws : List Char}
    (blank : ∀ c ∈ ws, isSpaceOrTab c = true) : KeyText k (k.toList ++ ws) := by
  have names : ∀ k ∈ annotatedNames, k.toList ≠ [] ∧ k.toList.all isNameChar = true := by
    decide +kernel
  exact .mk ⟨(names k member).1, List.all_eq_true.mp (names k member).2⟩ blank

theorem fieldText_annotated {k : String} {v : Leaf} {w : List Char} (member : k ∈ annotatedNames)
    (value : LeafText v w) {ws : List Char} (blank : ∀ c ∈ ws, isSpaceOrTab c = true)
    (apart : ws ≠ []) : FieldText ⟨k, v⟩ (k.toList ++ [] ++ ':' :: (ws ++ w)) := by
  have short : ∀ k ∈ annotatedNames, (k.toList ++ []).length ≤ keyLengthLimit := by decide +kernel
  exact .mk (keyText_annotated member (List.forall_mem_nil _)) (short k member) blank apart value

theorem annotated_page : PageText annotatedEntries annotatedText.toList := by
  have space : ∀ c ∈ [' '], isSpaceOrTab c = true := List.forall_mem_singleton.mpr rfl
  have tab : ∀ c ∈ ['\t'], isSpaceOrTab c = true := List.forall_mem_singleton.mpr rfl
  have quoted (s : String) (fits : s.toList.all isQuotable = true) : LeafText (.text s) _ :=
    .text (List.all_eq_true.mp fits)
  have zone : FieldText ⟨"zone_", .text "x"⟩ _ :=
    fieldText_annotated (by decide) (quoted _ (by decide)) space nofun
  have json : FieldText ⟨"json", .truth yes⟩ _ :=
    fieldText_annotated (by decide) (.truth yes) space nofun
  have level : FieldText ⟨"level", .text "a: b # c = true 1"⟩ _ :=
    fieldText_annotated (by decide) (quoted _ (by decide)) space nofun
  have other : FieldText ⟨"Other", .text "["⟩ _ :=
    fieldText_annotated (by decide) (quoted _ (by decide)) tab nofun
  have locale : FieldText ⟨"default_locale", .text "de"⟩ _ :=
    fieldText_annotated (by decide) (quoted _ (by decide)) space nofun
  have logging : KeyText "logging" _ := keyText_annotated (by decide) space
  have i18n : KeyText "i18n" _ := keyText_annotated (by decide) (List.forall_mem_nil _)
  have comment (s : String)
      (fits : s.toList.all (fun c => TokenStream.isAllowed c && !isBreak c) = true) :
      Remark ('#' :: s.toList) :=
    .comment fun c member => by simpa using List.all_eq_true.mp fits c member
  have remark (s : String)
      (fits : s.toList.all (fun c => TokenStream.isAllowed c && !isBreak c) = true) :
      Trailing ([' '] ++ ('#' :: s.toList)) := .comment space nofun (comment s fits)
  have next (n : Nat) (x : List Char) :
      Onward n x ([] ++ (['\n'] ++ (List.replicate n ' ' ++ x))) :=
    .mk (.blanks (List.forall_mem_nil _)) .lf .here
  have head : Remark ('#' :: " Where to look".toList) := comment _ (by decide)
  have log (r : List Char) : EntryText 0 r (.group "logging" annotatedLog) _ :=
    .group logging (by decide) (by decide : 0 < 4)
      (.mk (remark " and what to say" (by decide)) .lf .here)
      (.more zone (next 4 _)
        (.more json (.mk (remark " one a line" (by decide)) .crlf (.idle 0 .none .lf .here))
          (.last level)))
  have translations : EntryText 0 [] (.group "i18n" [⟨"default_locale", .text "de"⟩]) _ :=
    .group i18n (by decide) (by decide : 0 < 2) (next 2 _) (.last locale)
  have page : PageText annotatedEntries _ :=
    .mk (.idle 0 head .lf .here)
      (.more (log _) (next 0 _) (.more (.field other) (next 0 _) (.last translations)))
      (.here (.blanks (List.forall_mem_nil _)))
  refine Eq.subst (motive := PageText annotatedEntries) (Eq.symm ?_) page
  decide +kernel

theorem ofYaml_annotated :
    (spreadChoice.ListedIn spreadEntries ∧ (Document.ofText spreadText).Lists spreadEntries ∧
      Text.allBlank spreadText = false ∧
      ofYaml spreadText = .ok ⟨⟨⟨"translations"⟩, "de", true⟩, ⟨"info", false, none⟩⟩) ∧
    (annotatedChoice.ListedIn annotatedEntries ∧ PageText annotatedEntries annotatedText.toList ∧
      ofYaml annotatedText =
        .ok ⟨⟨⟨"translations"⟩, "de", true⟩, ⟨"a: b # c = true 1", true, none⟩⟩) ∧
    Text.allBlank " \n\t" = true ∧ ofYaml " \n\t" = .ok usual := by
  have spread : Text.allBlank spreadText = false := by decide
  have blank : Text.allBlank " \n\t" = true := by decide
  exact ⟨⟨spread_listed, spread_lists, spread,
      ofYaml_listed.1 spreadChoice _ _ spread_listed spread_lists spread⟩,
    ⟨annotated_listed, annotated_page,
      ofYaml_listed.2.1 annotatedChoice _ _ annotated_listed annotated_page⟩,
    blank, ofYaml_listed.2.2 _ blank⟩

/-! ### Keys beyond the limit -/

/-- A plain text is no record. -/
theorem read_scalar {k : String} (nonempty : k.toList ≠ []) {v : Spot}
    (place : (⟨.plain, none, k⟩ : Scalar).At v.node) : ∃ e, read v = .error e := by
  obtain ⟨h, resolved⟩ := Spot.resolved_scalar place
  have filled : k.isEmpty = false := by
    rw [Bool.eq_false_iff, ne_eq, String.isEmpty_iff]
    rintro rfl
    exact nonempty rfl
  have refused : read v = v.mismatch "struct Settings" := by
    rw [read, Spot.record, resolved]
    simp only [filled, Bool.and_false, Bool.false_eq_true, if_false]
  rw [refused, Spot.mismatch, resolved]
  exact ⟨_, rfl⟩

/-- A key beyond the limit before a colon cannot be read. -/
theorem ofYaml_overlong {k : String} {w r : List Char} (key : KeyText k w)
    (long : keyLengthLimit < w.length) (apart : isBlankOrEnd r = true) (clean : Clean r)
    (s : Settings) :
    ofYaml (String.ofList (w ++ ':' :: r)) ≠ .ok s := by
  obtain ⟨t, f, tokens, kind⟩ := key.tokens_overlong long apart clean
  obtain ⟨n, document, place⟩ := Document.ofTokens_scalar (f := f) kind
  have nonempty : k.toList ≠ [] := by
    obtain ⟨name, -⟩ := key
    exact name.nonempty
  obtain ⟨e, refused⟩ := read_scalar (v := ⟨n, n, []⟩) nonempty place
  have filled : Text.allBlank (String.ofList (w ++ ':' :: r)) = false := by
    refine allBlank_of_colon ?_
    rw [String.toList_ofList]
    exact List.mem_append_right _ List.mem_cons_self
  have undecoded : decode usual read (String.ofList (w ++ ':' :: r)) = .error e := by
    rw [decode, Document.ofText, String.toList_ofList, tokens, document]
    simp only [refused]
    rfl
  rw [ofYaml, filled, undecoded]
  rintro ⟨⟩

/-- A key of one letter more than the limit. -/
def overlongKey : String := String.ofList (List.replicate (keyLengthLimit + 1) 'a')

def noChoice : Choice := ⟨none, none, none, none, none, none⟩

theorem ofYaml_overlong_key :
    noChoice.ListedIn [.field ⟨overlongKey, .text "x"⟩] ∧ noChoice.settings = usual ∧
      ofYaml (String.ofList (overlongKey.toList ++ ':' :: " \"x\"\n".toList)) ≠ .ok usual := by
  have letters : overlongKey.toList = List.replicate (keyLengthLimit + 1) 'a' :=
    String.toList_ofList
  have name : IsName overlongKey := by
    constructor
    · rw [letters]
      exact List.cons_ne_nil _ _
    · intro c member
      rw [letters] at member
      rw [List.eq_of_mem_replicate member]
      decide +kernel
  have key : KeyText overlongKey (overlongKey.toList ++ []) := .mk name (List.forall_mem_nil _)
  have long : keyLengthLimit < overlongKey.toList.length := by
    rw [letters, List.length_replicate]
    exact Nat.lt_succ_self _
  have clean : Clean " \"x\"\n".toList := List.all_eq_true.mp (by decide)
  rw [List.append_nil] at key
  have foreign : Choice.groupNames.contains overlongKey = false := by
    have short : ∀ n ∈ Choice.groupNames, n.toList.length ≤ keyLengthLimit := by decide
    rw [Bool.eq_false_iff, ne_eq, List.contains_iff_mem]
    exact fun member => Nat.not_lt.mpr (short _ member) long
  have none : [Entry.field ⟨overlongKey, .text "x"⟩].filter
      (fun e => Choice.groupNames.contains e.key) = [] := by
    rw [List.filter_singleton, Entry.key, foreign]
    rfl
  have groups : ([Entry.field ⟨overlongKey, .text "x"⟩].filter
      fun e => Choice.groupNames.contains e.key).Perm [] := by
    rw [none]
  exact ⟨@Choice.ListedIn.mk _ _ [] [] (.refl _) (.refl _) groups, rfl,
    ofYaml_overlong key long rfl clean usual⟩

end Settings
end Phrasebook
