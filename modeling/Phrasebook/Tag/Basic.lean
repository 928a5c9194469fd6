/-!
Tags: a key, and perhaps a value. Some keys belong to the system.
-/

namespace Phrasebook

structure Tag where
  key : String
  value? : Option String
  deriving DecidableEq, Repr

namespace Tag

/-- By key, then by value, a tag without value first. -/
instance : Ord Tag := ⟨fun s t => (compare s.key t.key).then (compare s.value? t.value?)⟩

def le (s t : Tag) : Bool := (compare s t).isLE

/-- Keys that users cannot set. -/
def systemKeys : List String := ["name", "content_type", "size", "ext"]

def isSystem (t : Tag) : Bool := systemKeys.contains t.key

def isPublic (t : Tag) : Bool := !t.isSystem

end Tag
end Phrasebook
