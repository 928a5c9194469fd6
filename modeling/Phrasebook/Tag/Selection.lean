import Phrasebook.Tag.Basic

/-!
Choosing tags by key, by value and by owner.
-/

namespace Phrasebook

/-- What a tag is compared with: another tag, or a key, which says nothing on values. -/
inductive TagSide where
  | key (k : String)
  | tag (t : Tag)
  deriving DecidableEq, Repr

namespace TagSide

def keyText : TagSide → String
  | key k => k
  | tag t => t.key

/-- The value, if this side says anything on it. -/
def value?? : TagSide → Option (Option String)
  | key _ => none
  | tag t => some t.value?

/-- Same key, and the same value if both sides speak of one. -/
def equals (a b : TagSide) : Bool :=
  a.keyText == b.keyText &&
    match a.value??, b.value?? with
    | some v, some w => v == w
    | _, _ => true

def differs (a b : TagSide) : Bool := !a.equals b

/-- The key does not belong to the system. -/
def isUserSide (a : TagSide) : Bool := !Tag.systemKeys.contains a.keyText

end TagSide

namespace Tag

/-- The tags of users in order. -/
def userTags (ts : List Tag) : List Tag :=
  (ts.mergeSort le).filter fun t => (TagSide.tag t).isUserSide

end Tag
end Phrasebook
