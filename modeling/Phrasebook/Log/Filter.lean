import Phrasebook.Log.Directive

/-!
Log filters: which events are let through. Directives are separated by commas; of those that match
an event the most specific one decides. Directives that name a span or a field let events within
such a span through.
-/

namespace Phrasebook.Log

structure Filter where
  /-- The most specific directive first. -/
  plain : List Directive
  /-- Directives about spans, in the same order. -/
  ofSpans : List Directive
  /-- The most that any directive asks for. -/
  ceiling : Nat

namespace Filter

/-- The stretches between commas. -/
def parts : List Char → List (List Char)
  | [] => [[]]
  | ',' :: r => [] :: parts r
  | c :: r =>
    match parts r with
    | [] => [[c]]
    | p :: ps => (c :: p) :: ps

def isAboutSpans (d : Directive) : Bool := d.span?.isSome || d.field?.isSome

def asksValue (d : Directive) : Bool := (d.field?.bind (·.value?)).isSome

/-- A field that is only named can be decided without a span. -/
def isPlain (d : Directive) : Bool := d.span?.isNone && !asksValue d

def sorted (ds : List Directive) : List Directive := ds.foldl (fun acc d => d.insertInto acc) []

def ofDirectives (ds : List Directive) : Filter where
  plain := sorted (ds.filter (!isAboutSpans ·) ++ ds.filter fun d => isAboutSpans d && isPlain d)
  ofSpans := sorted (ds.filter isAboutSpans)
  ceiling := if ds.any asksValue then Threshold.verbosity (.upTo .trace)
    else (ds.map fun d => d.threshold.verbosity).foldl max 0

/-- A filter from its text. Empty parts say nothing. -/
def read [Patterns] (s : String) : Except FilterFault Filter :=
  (((parts s.toList).filter (!·.isEmpty)).mapM Directive.read).map ofDirectives

def text (f : Filter) : String := ",".intercalate ((f.plain ++ f.ofSpans).map Directive.text)

/-! ### Letting events through -/

def coversTarget (d : Directive) (target : String) : Bool := target.startsWith (d.target?.getD "")

def coversFields (d : Directive) (fields : Fields) : Bool :=
  match d.field? with
  | none => true
  | some f => f.name == "message" || f.isIn fields

/-- Whether a directive is about spans like this one, whatever the values of their fields. -/
def concernsSpan (d : Directive) (s : Span) : Bool :=
  coversTarget d s.target && (d.span?.map (· == s.name)).getD true &&
    (d.field?.map (·.isIn s.fields)).getD true

/-- What is said of the part of the program that decides, if anything is. -/
def letsPlainly (f : Filter) (level : Level) (covers : Directive → Bool) : Bool :=
  match f.plain.find? covers with
  | some d => level.verbosity ≤ d.threshold.verbosity
  | none => false

variable [Patterns]

/-- Whether a directive of a span lets the events within it through. -/
def coversSpan (d : Directive) (s : Span) : Bool :=
  concernsSpan d s && (d.field?.map (·.covers s.fields)).getD true

/-- How much a span lets through. A span that is itself beyond the ceiling does not come about. -/
def scopeVerbosity (f : Filter) (s : Span) : Nat :=
  if f.ceiling < s.level.verbosity then 0
  else ((f.ofSpans.filter (coversSpan · s)).map fun d => d.threshold.verbosity).foldl max 0

/-- Whether one of the spans around lets a level through. -/
def letsWithin (f : Filter) (spans : List Span) (level : Level) : Bool :=
  spans.any fun s => level.verbosity ≤ f.scopeVerbosity s

def lets (f : Filter) (e : Event) : Bool :=
  f.letsWithin e.spans e.level ||
    f.letsPlainly e.level fun d => coversTarget d e.target && coversFields d e.fields

/-- Whether a span comes about within others. One that a directive is about does, so that its values
can be looked at. -/
def letsSpan (f : Filter) (outer : List Span) (s : Span) : Bool :=
  s.level.verbosity ≤ f.ceiling &&
    (f.ofSpans.any (concernsSpan · s) || f.letsWithin outer s.level ||
      f.letsPlainly s.level (coversTarget · s.target))

/-- Those of some spans within each other that come about, the outermost first. -/
def spansWithin (f : Filter) (outer : List Span) : List Span → List Span
  | [] => []
  | s :: rest =>
    if f.letsSpan outer s then s :: f.spansWithin (outer ++ [s]) rest else f.spansWithin outer rest

end Filter
end Phrasebook.Log
