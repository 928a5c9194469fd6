import Phrasebook.Json.Reader
import Phrasebook.Tag.Token

/-!
Tags in JSON: a record is an object with `key` and `value`, a token is a string. A record can also
be read from a list of key and value. Members of other names are skipped.
-/

namespace Phrasebook

open Json

namespace Tag

def toJson (t : Tag) : Json :=
  .object [("key", .string t.key),
    ("value", match t.value? with
      | none => .null
      | some v => .string v)]

def typeName : String := "struct Tag"

/-- A value that is no string, where one is wanted. -/
def misfit {α : Type} (wanted : String) (cs : List Char) : Json.Read α :=
  let fail (shape : Shape) (rest : List Char) : Json.Read α :=
    stopAfter (.wrongType shape wanted) rest
  match skipBlanks cs with
  | [] => stopAt .endInValue []
  | c :: r =>
    if c = 'n' then do fail .null (← readWord ['u', 'l', 'l'] r)
    else if c = 't' then do fail (.bool true) (← readWord ['r', 'u', 'e'] r)
    else if c = 'f' then do fail (.bool false) (← readWord ['a', 'l', 's', 'e'] r)
    else if c = '-' then do
      let (n, r) ← readNumber false r
      fail (.number n) r
    else if c.isDigit then do
      let (n, r) ← readNumber true (c :: r)
      fail (.number n) r
    else if c = '"' then do
      let (s, r) ← readString r
      fail (.string s) r
    else if c = '[' then fail .array (c :: r)
    else if c = '\x7b' then fail .object (c :: r)
    else stopAt .expectedValue (c :: r)

/-- A string and nothing else. -/
def readText (cs : List Char) : Json.Read (Then String) :=
  match skipBlanks cs with
  | '"' :: r => readString r
  | r => misfit "a string" r

/-- A string or `null`. -/
def readText? (cs : List Char) : Json.Read (Then (Option String)) := do
  match skipBlanks cs with
  | 'n' :: r => .ok (none, ← readWord ['u', 'l', 'l'] r)
  | r =>
    let (s, r) ← readText r
    .ok (some s, r)

/-- What is known of a record while its members are read. -/
structure Partial where
  key? : Option String := none
  value? : Option (Option String) := none

/-- The record, which needs a key. -/
def Partial.finish (p : Partial) : Except Cause Tag :=
  match p.key? with
  | none => .error (.missingField "key")
  | some k => .ok ⟨k, p.value?.getD none⟩

/-- The members of an object up to its end, which is left. A misfit comes with the text that was
left when it was found. -/
def readMembers : Nat → Bool → Partial → List Char →
    Except (Stop × List Char) (Then Partial)
  | 0, _, _, cs => .error (.here .endInObject cs 1, cs)
  | fuel + 1, isFirst, p, cs =>
    let positioned {α : Type} (x : Json.Read α) : Except (Stop × List Char) α :=
      x.mapError fun s => (s, cs)
    do
      match ← positioned (nextMember isFirst cs) with
      | .done r => .ok (p, r)
      | .item r =>
        let (name, r) ← positioned (readString r)
        if name = "key" then
          if p.key?.isSome then .error (.somewhere (.duplicateField "key"), r)
          else
            let (k, r) ← positioned (do readText (← colon r))
            readMembers fuel false { p with key? := some k } r
        else if name = "value" then
          if p.value?.isSome then .error (.somewhere (.duplicateField "value"), r)
          else
            let (v, r) ← positioned (do readText? (← colon r))
            readMembers fuel false { p with value? := some v } r
        else
          let r ← positioned (do let r ← colon r; skipValue (enough r) r)
          readMembers fuel false p r

/-- The items of a list of key and value, up to its end or the item that is too much. -/
def readItems (cs : List Char) : Except (Stop × List Char) (Then Tag) :=
  let positioned {α : Type} (x : Json.Read α) : Except (Stop × List Char) α :=
    x.mapError fun s => (s, cs)
  do
    match ← positioned (nextItem true cs) with
    | .done r => .error (.somewhere (.wrongLength 0 (typeName ++ " with 2 elements")), r)
    | .item r =>
      let (k, r) ← positioned (readText r)
      match ← positioned (nextItem false r) with
      | .done r => .ok (⟨k, none⟩, r)
      | .item r =>
        let (v, r) ← positioned (readText? r)
        .ok (⟨k, v⟩, r)

/-- Closes a list or an object. A misfit inside it is placed where the attempt to close it ends. -/
def close {α : Type} (closing : List Char → Json.Read Unit × List Char)
    (x : Except (Stop × List Char) (Then α)) : Json.Read (Then α) :=
  match x with
  | .ok (a, r) =>
    match closing r with
    | (.ok (), r) => .ok (a, r)
    | (.error s, _) => .error s
  | .error (s, r) => .error (s.settle (closing r).2)

/-- A record. -/
def readRecord (cs : List Char) : Json.Read (Then Tag) :=
  match skipBlanks cs with
  | [] => stopAt .endInValue []
  | '[' :: r => close listEnd (readItems r)
  | '\x7b' :: r =>
    close objectEnd do
      let (p, r) ← readMembers (r.length + 1) true {} r
      match p.finish with
      | .ok t => .ok (t, r)
      | .error cause => .error (.somewhere cause, r)
  | r => misfit typeName r

/-- The record that a JSON text holds. -/
def ofJsonText (text : String) : Except Json.Fault Tag := readAll readRecord text

/-- A value of a member or an item: a string or `null`. -/
def valueOf? : Json → Option (Option String)
  | .null => some none
  | .string s => some (some s)
  | _ => none

/-- Puts the members of an object together; none if one is of the wrong kind or comes twice. -/
def gather? : List (String × Json) → Partial → Option Partial
  | [], p => some p
  | (name, j) :: ms, p =>
    if name = "key" then
      match p.key?, j with
      | none, .string k => gather? ms { p with key? := some k }
      | _, _ => none
    else if name = "value" then
      match p.value?, valueOf? j with
      | none, some v => gather? ms { p with value? := some v }
      | _, _ => none
    else gather? ms p

/-- The record that a value holds. -/
def ofJson? : Json → Option Tag
  | .array [.string k] => some ⟨k, none⟩
  | .array [.string k, v] => (valueOf? v).map fun v => ⟨k, v⟩
  | .object ms => (gather? ms {}).bind fun p => p.finish.toOption
  | _ => none

end Tag

namespace TagItem

def toJson : TagItem → Json
  | token s => .string s
  | record t => t.toJson

def ofJson? : Json → Option TagItem
  | .string s => some (.token s)
  | j => (Tag.ofJson? j).map .record

/-- An item; what is well formed but fits neither shape is a misfit without place. -/
def readItem (depth : Nat) (cs : List Char) : Json.Read (Then TagItem) := do
  let (j, r) ← readValue (enough cs) depth cs
  match ofJson? j with
  | some i => .ok (i, r)
  | none => .error (.somewhere (.noVariant "AnyTag"))

def ofJsonText (text : String) : Except Json.Fault TagItem := readAll (readItem depthLimit) text

/-- Items up to the end of their list, which is left. -/
def readItems : Nat → Bool → List Char → Except (Stop × List Char) (Then (List TagItem))
  | 0, _, cs => .error (.here .endInList cs 1, cs)
  | fuel + 1, isFirst, cs => do
    match ← (nextItem isFirst cs).mapError fun s => (s, cs) with
    | .done r => .ok ([], r)
    | .item r =>
      let (j, r) ← (readValue (enough r) (depthLimit - 1) r).mapError fun s => (s, cs)
      match ofJson? j with
      | none => .error (.somewhere (.noVariant "AnyTag"), r)
      | some i =>
        let (is, r) ← readItems fuel false r
        .ok (i :: is, r)

/-- A list of items. -/
def readList (cs : List Char) : Json.Read (Then (List TagItem)) :=
  match skipBlanks cs with
  | [] => stopAt .endInValue []
  | '[' :: r => Tag.close listEnd (readItems (r.length + 1) true r)
  | r => Tag.misfit "a sequence" r

def listOfJsonText (text : String) : Except Json.Fault (List TagItem) := readAll readList text

end TagItem
end Phrasebook
