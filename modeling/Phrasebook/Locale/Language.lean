import Phrasebook.Locale.Basic

/-!
Language identifiers: language, script, region and variants, in their usual spelling.
-/

namespace Phrasebook

structure Language where
  language? : Option String
  script? : Option String
  region? : Option String
  variants : List String
  deriving DecidableEq, Repr

namespace Language

/-- The language of a locale that names none. -/
def undetermined : Language := ⟨none, none, none, []⟩

def lower (cs : List Char) : String := String.ofList (cs.map Char.toLower)

def upper (cs : List Char) : String := String.ofList (cs.map Char.toUpper)

def isAscii (c : Char) : Bool := c.toNat < 128

/-- Two, three or five to eight letters; `und` is no language. -/
def readLanguage? (cs : List Char) : Option (Option String) :=
  if 2 ≤ cs.length && cs.length ≤ 8 && cs.length != 4 && cs.all Char.isAlpha then
    some (if lower cs = "und" then none else some (lower cs))
  else none

/-- Four letters, the first of them a capital. -/
def readScript? : List Char → Option String
  | c :: cs =>
    if cs.length = 3 && (c :: cs).all Char.isAlpha then
      some (String.ofList (c.toUpper :: cs.map Char.toLower))
    else none
  | [] => none

/-- Two capital letters or three digits. -/
def readRegion? (cs : List Char) : Option String :=
  if cs.length = 2 && cs.all Char.isAlpha then some (upper cs)
  else if cs.length = 3 && cs.all Char.isDigit then some (String.ofList cs)
  else none

/-- Five to eight letters and digits, or four characters: a digit first, or letters and digits after
the first. -/
def readVariant? : List Char → Option String
  | [] => none
  | c :: cs =>
    let wellFormed :=
      if cs.length = 3 then
        (c :: cs).all isAscii && (c.isDigit || cs.all Char.isAlphanum)
      else 4 ≤ cs.length && cs.length ≤ 7 && (c :: cs).all Char.isAlphanum
    if wellFormed then some (lower (c :: cs)) else none

/-- Variants are kept in order, each once. -/
def insertVariant (v : String) : List String → List String
  | [] => [v]
  | w :: ws => if v < w then v :: w :: ws else if v = w then w :: ws else w :: insertVariant v ws

def readVariants? : List (List Char) → Option (List String)
  | [] => some []
  | p :: ps => do
    let v ← readVariant? p
    let vs ← readVariants? ps
    some (insertVariant v vs)

def readRegionOn? (id : Language) : List (List Char) → Option Language
  | [] => some id
  | p :: ps =>
    match readRegion? p with
    | some region =>
      (readVariants? ps).map fun vs => { id with region? := some region, variants := vs }
    | none => (readVariants? (p :: ps)).map fun vs => { id with variants := vs }

def readScriptOn? (id : Language) : List (List Char) → Option Language
  | [] => some id
  | p :: ps =>
    match readScript? p with
    | some script => readRegionOn? { id with script? := some script } ps
    | none => readRegionOn? id (p :: ps)

/-- An identifier whose parts are joined by `-` or `_`. -/
def read? (name : String) : Option Language :=
  match splitAt (fun c => c == '-' || c == '_') name.toList with
  | [] => none
  | p :: ps =>
    match readLanguage? p with
    | none => none
    | some language? => readScriptOn? { undetermined with language? := language? } ps

def text (id : Language) : String :=
  "-".intercalate
    (id.language?.getD "und" :: id.script?.toList ++ id.region?.toList ++ id.variants)

end Language

/-- The language identifier of a locale, undetermined if its name is none. -/
def Locale.language (l : Locale) : Language := (Language.read? l.name).getD .undetermined

end Phrasebook
