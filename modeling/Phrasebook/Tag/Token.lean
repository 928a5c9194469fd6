import Phrasebook.Tag.Basic

/-!
Tags as tokens `key:value`. The first colon of a token is the one that separates.
-/

namespace Phrasebook

namespace Tag

/-- A token without colon is a key. -/
def split (token : String) : Tag :=
  let cs := token.toList
  match cs.dropWhile (· != ':') with
  | [] => ⟨token, none⟩
  | _ :: r => ⟨String.ofList (cs.takeWhile (· != ':')), some (String.ofList r)⟩

def concat (t : Tag) : String :=
  match t.value? with
  | none => t.key
  | some v => t.key ++ ":" ++ v

/-- A tag as it is shown: its key, and behind it the value if there is one. -/
def shown (t : Tag) : String :=
  t.key ++ match t.value? with
    | none => ""
    | some v => ":" ++ v

/-- The tag that a text is read as. Every text is one. -/
def read (text : String) : Except Empty Tag := .ok (split text)

/-- A tag is the same as a text if it is shown like it. -/
def isWritten (t : Tag) (text : String) : Bool := t.shown == text

end Tag

/-- A tag as it comes in: as a token, or as a record of key and value. -/
inductive TagItem where
  | token (s : String)
  | record (t : Tag)
  deriving DecidableEq, Repr

namespace TagItem

def tag : TagItem → Tag
  | token s => .split s
  | record t => t

def text : TagItem → String
  | token s => s
  | record t => t.concat

end TagItem
end Phrasebook
