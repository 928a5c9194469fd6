import Phrasebook.Locale.Language

/-!
Plural categories of numbers, by language. Each language has a list of rules; the first that holds
gives the category, and if none does it is `other`.
-/

namespace Phrasebook

inductive PluralCategory where
  | zero
  | one
  | two
  | few
  | many
  | other
  deriving DecidableEq, Repr

def PluralCategory.ofKeyword? : String → Option PluralCategory
  | "zero" => some zero
  | "one" => some one
  | "two" => some two
  | "few" => some few
  | "many" => some many
  | "other" => some other
  | _ => none

namespace Plural

/-- What the rules ask of a number: whether it is one at all, its whole part `i`, the count `v` and
the value `f` of its digits after the point, and their value `t` without zeros at the end. -/
structure Operands where
  isNumber : Bool
  i : Nat
  v : Nat
  f : Nat
  t : Nat
  deriving DecidableEq, Repr

/-- The number is exactly `k`. -/
def Operands.isExactly (o : Operands) (k : Nat) : Bool := o.isNumber && o.i == k && o.t == 0

abbrev Rule := PluralCategory × (Operands → Bool)

def within (n low high : Nat) : Bool := low ≤ n && n ≤ high

def among (n : Nat) (ks : List Nat) : Bool := ks.contains n

open PluralCategory

def oneIfWholeOne : List Rule := [(one, fun o => o.i == 1 && o.v == 0)]

def oneIfOne : List Rule := [(one, fun o => o.isExactly 1)]

def oneIfZeroOrOne : List Rule := [(one, fun o => within o.i 0 1 && o.f == 0)]

def oneIfWholeZeroOrOne : List Rule := [(one, fun o => within o.i 0 1)]

def oneIfWholeZeroOrJustOne : List Rule := [(one, fun o => o.i == 0 || o.isExactly 1)]

def oneAndTwo : List Rule := [(one, fun o => o.isExactly 1), (two, fun o => o.isExactly 2)]

def endsInOne (n : Nat) : Bool := n % 10 == 1 && n % 100 != 11

def endsInFew (n : Nat) : Bool := within (n % 10) 2 4 && !within (n % 100) 12 14

def arabic : List Rule :=
  [(few, fun o => within o.i 3 10), (many, fun o => within o.i 11 99),
    (one, fun o => o.isExactly 1), (two, fun o => o.isExactly 2), (zero, fun o => o.isExactly 0)]

def belarusian : List Rule :=
  [(few, fun o => within o.i 2 4 && !within o.i 12 14),
    (many, fun o => o.i % 10 == 0 || within o.i 5 9 || within o.i 11 14),
    (one, fun o => endsInOne o.i)]

def breton : List Rule :=
  [(few, fun o => (o.i % 10 == 9 || within o.i 3 4) &&
      !(within o.i 10 19 || within o.i 70 79 || within o.i 90 99)),
    (many, fun o => !o.isExactly 0 && o.i % 1000000 == 0),
    (one, fun o => o.i % 10 == 1 && !among (o.i % 100) [11, 71, 91]),
    (two, fun o => o.i % 10 == 2 && !among (o.i % 100) [12, 72, 92])]

def bosnian : List Rule :=
  [(few, fun o => (o.v == 0 && endsInFew o.i) || endsInFew o.f),
    (one, fun o => (o.v == 0 && endsInOne o.i) || endsInOne o.f)]

def czech : List Rule :=
  [(few, fun o => within o.i 2 4 && o.v == 0), (many, fun o => o.v != 0),
    (one, fun o => o.i == 1 && o.v == 0)]

def welsh : List Rule :=
  [(few, fun o => o.isExactly 3), (many, fun o => o.isExactly 6), (one, fun o => o.isExactly 1),
    (two, fun o => o.isExactly 2), (zero, fun o => o.isExactly 0)]

def danish : List Rule := [(one, fun o => o.isExactly 1 || (o.t != 0 && within o.i 0 1))]

def sorbian : List Rule :=
  [(few, fun o => (o.v == 0 && within (o.i % 100) 3 4) || within (o.f % 100) 3 4),
    (one, fun o => (o.v == 0 && o.i % 100 == 1) || o.f % 100 == 1),
    (two, fun o => (o.v == 0 && o.i % 100 == 2) || o.f % 100 == 2)]

def filipino : List Rule :=
  [(one, fun o => (o.v == 0 && within o.i 1 3) || (o.v == 0 && !among (o.i % 10) [4, 6, 9]) ||
    (o.v != 0 && !among (o.f % 10) [4, 6, 9]))]

def irish : List Rule :=
  [(few, fun o => within o.i 3 6 && o.f == 0), (many, fun o => within o.i 7 10 && o.f == 0),
    (one, fun o => o.isExactly 1), (two, fun o => o.isExactly 2)]

def gaelic : List Rule :=
  [(few, fun o => (within o.i 3 10 || within o.i 13 19) && o.f == 0),
    (one, fun o => o.isExactly 1 || o.isExactly 11),
    (two, fun o => o.isExactly 2 || o.isExactly 12)]

def manx : List Rule :=
  [(few, fun o => o.v == 0 && among (o.i % 100) [0, 20, 40, 60, 80]), (many, fun o => o.v != 0),
    (one, fun o => o.v == 0 && o.i % 10 == 1), (two, fun o => o.v == 0 && o.i % 10 == 2)]

def hebrew : List Rule :=
  [(many, fun o => o.v == 0 && !within o.i 0 10 && o.f == 0 && o.i % 10 == 0),
    (one, fun o => o.i == 1 && o.v == 0), (two, fun o => o.i == 2 && o.v == 0)]

def icelandic : List Rule := [(one, fun o => (o.t == 0 && endsInOne o.i) || o.t != 0)]

def colognian : List Rule := [(one, fun o => o.isExactly 1), (zero, fun o => o.isExactly 0)]

def langi : List Rule :=
  [(one, fun o => within o.i 0 1 && !o.isExactly 0), (zero, fun o => o.isExactly 0)]

def cornish : List Rule :=
  [(few, fun o => among (o.i % 100) [3, 23, 43, 63, 83]),
    (many, fun o => !o.isExactly 1 && among (o.i % 100) [1, 21, 41, 61, 81]),
    (one, fun o => o.isExactly 1),
    (two, fun o => among (o.i % 100) [2, 22, 42, 62, 82] ||
      (o.i % 1000 == 0 &&
        (among (o.i % 100000) [40000, 60000, 80000] || within o.i 1000 20000)) ||
      (!o.isExactly 0 && o.i % 1000000 == 100000)),
    (zero, fun o => o.isExactly 0)]

def lithuanian : List Rule :=
  [(few, fun o => within o.i 2 9 && !within o.i 11 19), (many, fun o => o.f != 0),
    (one, fun o => o.i % 10 == 1 && !within o.i 11 19)]

def latvian : List Rule :=
  [(one, fun o => endsInOne o.i || (o.v == 2 && endsInOne o.f) || (o.v != 2 && o.f % 10 == 1)),
    (zero, fun o => o.i % 10 == 0 || within o.i 11 19 || (o.v == 2 && within (o.f % 100) 11 19))]

def macedonian : List Rule := [(one, fun o => (o.v == 0 && endsInOne o.i) || endsInOne o.f)]

def maltese : List Rule :=
  [(few, fun o => o.isExactly 0 || within o.i 2 10), (many, fun o => within o.i 11 19),
    (one, fun o => o.isExactly 1)]

def polish : List Rule :=
  [(few, fun o => o.v == 0 && endsInFew o.i),
    (many, fun o => o.v == 0 && ((o.i != 1 && within (o.i % 10) 0 1) || within (o.i % 10) 5 9 ||
      within (o.i % 100) 12 14)),
    (one, fun o => o.i == 1 && o.v == 0)]

def romanian : List Rule :=
  [(few, fun o => o.v != 0 || o.isExactly 0 || within o.i 2 19),
    (one, fun o => o.i == 1 && o.v == 0)]

def russian : List Rule :=
  [(few, fun o => o.v == 0 && endsInFew o.i),
    (many, fun o => o.v == 0 &&
      (o.i % 10 == 0 || within (o.i % 10) 5 9 || within (o.i % 100) 11 14)),
    (one, fun o => o.v == 0 && endsInOne o.i)]

def tachelhit : List Rule :=
  [(few, fun o => within o.i 2 10 && o.f == 0), (one, fun o => o.i == 0 || o.isExactly 1)]

def sinhala : List Rule :=
  [(one, fun o => o.isExactly 0 || o.isExactly 1 || (o.i == 0 && o.f == 1))]

def slovenian : List Rule :=
  [(few, fun o => (o.v == 0 && within (o.i % 100) 3 4) || o.v != 0),
    (one, fun o => o.v == 0 && o.i % 100 == 1), (two, fun o => o.v == 0 && o.i % 100 == 2)]

def tamazight : List Rule :=
  [(one, fun o => (within o.i 0 1 || within o.i 11 99) && o.f == 0)]

/-- Languages that share a list of rules. -/
def groups : List (List String × List Rule) :=
  [(["bm", "bo", "dz", "id", "ig", "ii", "in", "ja", "jbo", "jv", "jw", "kde", "kea", "km", "ko",
      "lkt", "lo", "ms", "my", "nqo", "osa", "sah", "ses", "sg", "su", "th", "to", "vi", "wo", "yo",
      "yue", "zh"], []),
    (["am", "as", "bn", "fa", "gu", "hi", "kn", "zu"], oneIfWholeZeroOrJustOne),
    (["ff", "fr", "hy", "kab", "pt"], oneIfWholeZeroOrOne),
    (["ast", "ca", "de", "en", "et", "fi", "fy", "gl", "ia", "io", "it", "ji", "lij", "nl", "pt-PT",
      "sc", "scn", "sv", "sw", "ur", "yi"], oneIfWholeOne),
    (["si"], sinhala),
    (["ak", "bh", "guw", "ln", "mg", "nso", "pa", "ti", "wa"], oneIfZeroOrOne),
    (["tzm"], tamazight),
    (["af", "an", "asa", "az", "bem", "bez", "bg", "brx", "ce", "cgg", "chr", "ckb", "dv", "ee",
      "el", "eo", "es", "eu", "fo", "fur", "gsw", "ha", "haw", "hu", "jgo", "jmc", "ka", "kaj",
      "kcg", "kk", "kkj", "kl", "ks", "ksb", "ku", "ky", "lb", "lg", "mas", "mgo", "ml", "mn", "mr",
      "nah", "nb", "nd", "ne", "nn", "nnh", "no", "nr", "ny", "nyn", "om", "or", "os", "pap", "ps",
      "rm", "rof", "rwk", "saq", "sd", "sdh", "seh", "sn", "so", "sq", "ss", "ssy", "st", "syr",
      "ta", "te", "teo", "tig", "tk", "tn", "tr", "ts", "ug", "uz", "ve", "vo", "vun", "wae", "xh",
      "xog"], oneIfOne),
    (["iu", "naq", "se", "sma", "smi", "smj", "smn", "sms"], oneAndTwo),
    (["ar", "ars"], arabic), (["be"], belarusian), (["br"], breton),
    (["bs", "hr", "sh", "sr"], bosnian), (["cs", "sk"], czech), (["cy"], welsh), (["da"], danish),
    (["dsb", "hsb"], sorbian), (["ceb", "fil", "tl"], filipino), (["ga"], irish), (["gd"], gaelic),
    (["gv"], manx), (["he", "iw"], hebrew), (["is"], icelandic), (["ksh"], colognian),
    (["lag"], langi), (["kw"], cornish), (["lt"], lithuanian), (["lv", "prg"], latvian),
    (["mk"], macedonian), (["mt"], maltese), (["pl"], polish), (["mo", "ro"], romanian),
    (["ru", "uk"], russian), (["shi"], tachelhit), (["sl"], slovenian)]

def rulesFor? (name : String) : Option (List Rule) :=
  (groups.find? fun g => g.1.contains name).map (·.2)

/-- The rules of an identifier as it stands, else those of its language, else those of English. -/
def rulesOf (id : Language) : List Rule :=
  match rulesFor? id.text with
  | some rs => rs
  | none =>
    match id.language?.bind rulesFor? with
    | some rs => rs
    | none => oneIfWholeOne

def category (id : Language) (o : Operands) : PluralCategory :=
  match (rulesOf id).find? (fun r => r.2 o) with
  | some r => r.1
  | none => other

end Plural
end Phrasebook
