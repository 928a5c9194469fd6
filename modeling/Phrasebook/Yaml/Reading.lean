import Phrasebook.Yaml.Node

/-!
From tokens to the tree of the first document of a text. Reading a node gives the node as far as it
goes, and either a way to go on or what is wrong with the text.
-/

namespace Phrasebook.Yaml

structure Reader where
  tokens : List Token
  /-- What comes after the tokens. -/
  after : Scan Token
  /-- What the handles of tags stand for. -/
  handles : List (String × String)
  /-- The numbers of anchors by name, the latest first. -/
  anchors : List (String × Nat)

/-- What has been read, and how to go on. -/
abbrev Reading (α : Type) := α × Scan Reader

namespace Reading

def broken (f : Fault) : Reading Node := (.broken f, .error f)

/-- A list with one item more, if the text did not break in that item. -/
def andThen {α : Type} (x : Reading α) (rest : Reader → Reading (List α)) : Reading (List α) :=
  match x with
  | (a, .error f) => ([a], .error f)
  | (a, .ok r) =>
    let (as, r?) := rest r
    (a :: as, r?)

/-- A key with its value. -/
def withValue (k : Reading Node) (value : Reader → Reading Node) : Reading (Node × Node) :=
  match k with
  | (k, .error f) => ((k, .broken f), .error f)
  | (k, .ok r) =>
    let (v, r?) := value r
    ((k, v), r?)

end Reading

namespace Reader

def peek (r : Reader) : Scan Token :=
  match r.tokens with
  | t :: _ => .ok t
  | [] => r.after

def skip (r : Reader) : Reader := { r with tokens := r.tokens.drop 1 }

/-- The token at hand is not what was expected. -/
def unexpected {α : Type} (t : Token) (activity : Activity) (start : Mark) (p : Problem) : Scan α :=
  .error ⟨p, .mark t.start, some (activity, start)⟩

/-! ### Anchors and tags -/

/-- A new number for an anchor: so many names were in use before. Where a name is used again, it may
thus get a number that another name gets later. -/
def setAnchor (r : Reader) (name? : Option String) : Option Nat × Reader :=
  match name? with
  | none => (none, r)
  | some name =>
    let n := r.anchors.length
    (some n, { r with anchors := (name, n) :: r.anchors.filter (·.1 != name) })

def anchorNumber? (r : Reader) (name : String) : Option Nat :=
  (r.anchors.find? (·.1 == name)).map (·.2)

/-- Anchor and tag before a node, in either order. -/
structure Properties where
  start : Mark
  anchor? : Option String
  /-- Handle and suffix of the tag, and where it stands. -/
  tag? : Option (String × String × Mark)

def properties (r : Reader) : Scan (Properties × Reader) := do
  let t ← r.peek
  match t.kind with
  | .anchor name =>
    let u ← r.skip.peek
    match u.kind with
    | .tag handle suffix =>
      .ok (⟨t.start, some name, some (handle, suffix, u.start)⟩, r.skip.skip)
    | _ => .ok (⟨t.start, some name, none⟩, r.skip)
  | .tag handle suffix =>
    let u ← r.skip.peek
    match u.kind with
    | .anchor name => .ok (⟨t.start, some name, some (handle, suffix, t.start)⟩, r.skip.skip)
    | _ => .ok (⟨t.start, none, some (handle, suffix, t.start)⟩, r.skip)
  | _ => .ok (⟨t.start, none, none⟩, r)

/-- The tag with its handle written out. A tag without handle stands for itself. -/
def fullTag (r : Reader) (p : Properties) : Scan (Option String) :=
  match p.tag? with
  | none => .ok none
  | some (handle, suffix, m) =>
    if handle.isEmpty then .ok (some suffix)
    else
      match r.handles.find? (·.1 == handle) with
      | some (_, target) => .ok (some (target ++ suffix))
      | none => .error ⟨.undefinedTagHandle, .mark m, some (.node, p.start)⟩

/-- What stands before a node: place, anchor, tag, and its first token. -/
structure Opening where
  head : Head
  tag? : Option String
  token : Token

def opening (r : Reader) : Scan (Opening × Reader) := do
  let (p, r) ← r.properties
  let t ← r.peek
  let tag? ← r.fullTag p
  let (anchor?, r) := r.setAnchor p.anchor?
  .ok (⟨⟨p.start, anchor?⟩, tag?, t⟩, r)

/-- What stands where no node is written. -/
def emptyScalar (m : Mark) : Node := .scalar ⟨m, none⟩ ⟨.plain, none, ""⟩

/-- The value of a key without a colon. -/
def missingValue (r : Reader) : Reading Node :=
  match r.peek with
  | .error f => .broken f
  | .ok t => (emptyScalar t.start, .ok r)

/-! ### Separators in flow style -/

/-- To the next item, past a comma unless it is the first; tells whether the bracket closes. -/
def nextInFlow (close : TokenKind) (activity : Activity) (p : Problem) (start : Mark) (first : Bool)
    (r : Reader) : Scan (Bool × Reader) := do
  let t ← r.peek
  if t.kind = close then .ok (true, r.skip)
  else if first then .ok (false, r)
  else if t.kind = .flowEntry then
    let u ← r.skip.peek
    .ok (if u.kind = close then (true, r.skip.skip) else (false, r.skip))
  else unexpected t activity start p

def nextItem : Mark → Bool → Reader → Scan (Bool × Reader) :=
  nextInFlow .flowSequenceEnd .flowSequence .expectedSequenceEnd

def nextEntry : Mark → Bool → Reader → Scan (Bool × Reader) :=
  nextInFlow .flowMappingEnd .flowMapping .expectedMappingEnd

/-! ### Nodes -/

mutual

/-- A node. `block` allows block style, `loose` also a sequence that is not indented. -/
def node (block loose : Bool) : Nat → Reader → Reading Node
  | 0, r => (emptyScalar ⟨0, 0, 0⟩, .ok r)
  | fuel + 1, r =>
    match r.peek with
    | .error f => .broken f
    | .ok t =>
      match t.kind with
      | .aliasTo name =>
        match r.anchorNumber? name with
        | some n => (.aliasTo t.start n, .ok r.skip)
        | none => .broken ⟨.unknownAnchor, .mark t.start, none⟩
      | _ =>
        match r.opening with
        | .error f => .broken f
        | .ok (o, r) => content block loose o fuel r

/-- A node after its anchor and tag. -/
def content (block loose : Bool) (o : Opening) : Nat → Reader → Reading Node
  | 0, r => (emptyScalar ⟨0, 0, 0⟩, .ok r)
  | fuel + 1, r =>
    let sequence (x : Reading (List Node)) : Reading Node := (.sequence o.head x.1, x.2)
    let mapping (x : Reading (List (Node × Node))) : Reading Node := (.mapping o.head x.1, x.2)
    match o.token.kind, block, loose with
    | .blockEntry, _, true => sequence (looseItems fuel r)
    | .scalar style text, _, _ =>
      (.scalar o.head ⟨style, o.tag?.filter (· != "!"), text⟩, .ok r.skip)
    | .flowSequenceStart, _, _ => sequence (flowItems o.token.start true fuel r.skip)
    | .flowMappingStart, _, _ => mapping (flowEntries o.token.start true fuel r.skip)
    | .blockSequenceStart, true, _ => sequence (blockItems o.token.start fuel r.skip)
    | .blockMappingStart, true, _ => mapping (blockEntries o.token.start fuel r.skip)
    | _, _, _ =>
      if o.head.anchor?.isSome || o.tag?.isSome then
        (.scalar o.head ⟨.plain, o.tag?, ""⟩, .ok r)
      else
        .broken ⟨.expectedNode, .mark o.token.start,
          some (if block then .blockNode else .flowNode, o.head.mark)⟩

/-- A node of a block, or nothing before one of the tokens given. -/
def blockSlot (loose : Bool) (ends : List TokenKind) (m : Mark) : Nat → Reader → Reading Node
  | 0, r => (emptyScalar m, .ok r)
  | fuel + 1, r =>
    match r.peek with
    | .error f => .broken f
    | .ok t => if ends.contains t.kind then (emptyScalar m, .ok r) else node true loose fuel r

/-- A node in flow style, or nothing before one of the tokens given. -/
def flowSlot (ends : List TokenKind) : Nat → Reader → Reading Node
  | 0, r => (emptyScalar ⟨0, 0, 0⟩, .ok r)
  | fuel + 1, r =>
    match r.peek with
    | .error f => .broken f
    | .ok t =>
      if ends.contains t.kind then (emptyScalar t.start, .ok r) else node false false fuel r

def blockItems (start : Mark) : Nat → Reader → Reading (List Node)
  | 0, r => ([], .ok r)
  | fuel + 1, r =>
    match r.peek with
    | .error f => ([.broken f], .error f)
    | .ok t =>
      match t.kind with
      | .blockEntry =>
        (blockSlot false [.blockEntry, .blockEnd] t.stop fuel r.skip).andThen
          (blockItems start fuel)
      | .blockEnd => ([], .ok r.skip)
      | _ =>
        let f : Fault := ⟨.expectedDash, .mark t.start, some (.blockCollection, start)⟩
        ([.broken f], .error f)

/-- The items of a sequence that stands as deep as the mapping around it. -/
def looseItems : Nat → Reader → Reading (List Node)
  | 0, r => ([], .ok r)
  | fuel + 1, r =>
    match r.peek with
    | .error f => ([.broken f], .error f)
    | .ok t =>
      match t.kind with
      | .blockEntry =>
        (blockSlot false [.blockEntry, .key, .value, .blockEnd] t.stop fuel r.skip).andThen
          (looseItems fuel)
      | _ => ([], .ok r)

def blockEntries (start : Mark) : Nat → Reader → Reading (List (Node × Node))
  | 0, r => ([], .ok r)
  | fuel + 1, r =>
    match r.peek with
    | .error f => ([(.broken f, .broken f)], .error f)
    | .ok t =>
      match t.kind with
      | .key =>
        ((blockSlot true [.key, .value, .blockEnd] t.stop fuel r.skip).withValue
          (blockValue fuel)).andThen (blockEntries start fuel)
      | .blockEnd => ([], .ok r.skip)
      | _ =>
        let f : Fault := ⟨.expectedKey, .mark t.start, some (.blockMapping, start)⟩
        ([(.broken f, .broken f)], .error f)

def blockValue : Nat → Reader → Reading Node
  | 0, r => (emptyScalar ⟨0, 0, 0⟩, .ok r)
  | fuel + 1, r =>
    match r.peek with
    | .error f => .broken f
    | .ok t =>
      match t.kind with
      | .value => blockSlot true [.key, .value, .blockEnd] t.stop fuel r.skip
      | _ => (emptyScalar t.start, .ok r)

def flowItems (start : Mark) (first : Bool) : Nat → Reader → Reading (List Node)
  | 0, r => ([], .ok r)
  | fuel + 1, r =>
    match nextItem start first r with
    | .error f => ([.broken f], .error f)
    | .ok (true, r) => ([], .ok r)
    | .ok (false, r) =>
      match r.peek with
      | .error f => ([.broken f], .error f)
      | .ok t =>
        let item := if t.kind = .key then pair t.start fuel r.skip else node false false fuel r
        item.andThen (flowItems start false fuel)

/-- A single key with its value between brackets. -/
def pair (start : Mark) : Nat → Reader → Reading Node
  | 0, r => (emptyScalar ⟨0, 0, 0⟩, .ok r)
  | fuel + 1, r =>
    let x := (pairKey fuel r).withValue (flowValue .flowSequenceEnd fuel)
    (.mapping ⟨start, none⟩ [x.1], x.2)

/-- An empty key takes the token after it along. -/
def pairKey : Nat → Reader → Reading Node
  | 0, r => (emptyScalar ⟨0, 0, 0⟩, .ok r)
  | fuel + 1, r =>
    match r.peek with
    | .error f => .broken f
    | .ok t =>
      if [.value, .flowEntry, .flowSequenceEnd].contains t.kind then
        (emptyScalar t.stop, .ok r.skip)
      else node false false fuel r

def flowValue (close : TokenKind) : Nat → Reader → Reading Node
  | 0, r => (emptyScalar ⟨0, 0, 0⟩, .ok r)
  | fuel + 1, r =>
    match r.peek with
    | .error f => .broken f
    | .ok t =>
      match t.kind with
      | .value => flowSlot [.flowEntry, close] fuel r.skip
      | _ => (emptyScalar t.start, .ok r)

def flowEntries (start : Mark) (first : Bool) : Nat → Reader → Reading (List (Node × Node))
  | 0, r => ([], .ok r)
  | fuel + 1, r =>
    match nextEntry start first r with
    | .error f => ([(.broken f, .broken f)], .error f)
    | .ok (true, r) => ([], .ok r)
    | .ok (false, r) =>
      match r.peek with
      | .error f => ([(.broken f, .broken f)], .error f)
      | .ok t =>
        let entry := match t.kind with
          | .key =>
            (flowSlot [.value, .flowEntry, .flowMappingEnd] fuel r.skip).withValue
              (flowValue .flowMappingEnd fuel)
          | _ => (node false false fuel r).withValue missingValue
        entry.andThen (flowEntries start false fuel)

end

/-! ### Documents -/

def isDirective (t : Token) : Bool :=
  match t.kind with
  | .versionDirective .. | .tagDirective .. => true
  | _ => false

/-- Versions that documents may ask for. -/
def isReadable (version : Nat × Nat) : Bool := version == (1, 1) || version == (1, 2)

/-- The handles that directives define. At most one directive may ask for a version, and a handle
must not be defined twice. -/
def definedHandles : List Token → Bool → List (String × String) → Scan (List (String × String))
  | [], _, handles => .ok handles
  | t :: ts, versioned, handles =>
    match t.kind with
    | .versionDirective major minor =>
      if versioned then .error ⟨.duplicateVersion, .mark t.start, none⟩
      else if !isReadable (major, minor) then .error ⟨.incompatibleVersion, .mark t.start, none⟩
      else definedHandles ts true handles
    | .tagDirective handle target =>
      if handles.any (·.1 == handle) then .error ⟨.duplicateTagDirective, .mark t.start, none⟩
      else definedHandles ts versioned ((handle, target) :: handles)
    | _ => definedHandles ts versioned handles

/-- Handles that need no directive. -/
def usualHandles : List (String × String) := [("!", "!"), ("!!", "tag:yaml.org,2002:")]

/-- The directives and the line that closes them. -/
def documentHead (r : Reader) : Scan Reader := do
  let ds := r.tokens.takeWhile isDirective
  let handles ← definedHandles ds false []
  let r := { r with tokens := r.tokens.drop ds.length, handles := handles ++ usualHandles }
  let t ← r.peek
  if t.kind = .documentStart then .ok r.skip
  else .error ⟨.expectedDocumentStart, .mark t.start, none⟩

def beginsDocument (t : Token) : Bool := isDirective t || t.kind == .documentStart

/-- Every token takes part in a few steps. -/
def rootNode (r : Reader) : Reading Node := node true false (8 * r.tokens.length + 8) r

/-- The root after the head of a document. -/
def explicitRoot (r : Reader) : Reading Node :=
  match r.documentHead with
  | .error f => .broken f
  | .ok r =>
    match r.peek with
    | .error f => .broken f
    | .ok t =>
      if beginsDocument t || t.kind == .documentEnd || t.kind == .streamEnd then
        (emptyScalar t.start, .ok r)
      else r.rootNode

end Reader

/-- The first document of a text. -/
structure Document where
  /-- None where the text has no content. -/
  root? : Option Node
  /-- What is wrong with the text after the root. -/
  fault? : Option Fault
  /-- Whether more documents follow, sound or not. -/
  more : Bool

namespace Document

/-- Whether anything but the end comes after a document. -/
def hasMore (r : Reader) : Bool :=
  match r.tokens.dropWhile fun t => t.kind == .documentEnd with
  | t :: _ => t.kind != .streamEnd
  | [] => !r.after.isOk

def ofRoot (root : Reading Node) : Document :=
  match root with
  | (n, .error _) => ⟨some n, none, false⟩
  | (n, .ok r) =>
    match r.peek with
    | .error f => ⟨some n, some f, false⟩
    | .ok _ => ⟨some n, none, hasMore r⟩

def ofTokens (s : TokenStream) : Document :=
  let r : Reader := ⟨s.tokens, s.after, Reader.usualHandles, []⟩
  match r.peek with
  | .error f => ⟨some (.broken f), none, false⟩
  | .ok t =>
    if t.kind = .streamEnd then ⟨none, none, false⟩
    else ofRoot (if Reader.beginsDocument t then r.explicitRoot else r.rootNode)

def ofText (text : String) : Document := ofTokens (.ofText text.toList)

end Document
end Phrasebook.Yaml
