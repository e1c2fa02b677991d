/-
The configuration of a query bar.

A configuration is fixed while a bar is used: the sources and functions, the spelling of
operators and comparisons, the limits, and how long a lookup waits for the typing to
pause.  The comparisons that can be typed are those of all sources together unless
others are given.
-/
import QueryBar.Error
import QueryBar.Source

namespace QueryBar

/-- How operators are shown and read. -/
inductive OperatorMode
  /-- There are no operators. -/
  | simple
  /-- There are operators but no brackets. -/
  | agGrid
  /-- There are operators and brackets. -/
  | complex
  deriving DecidableEq

/-- How matchers count against the selection limit of a source. -/
inductive LimitPolicy
  /-- Each matcher is one selection. -/
  | individual
  /-- Neighbours on one source that are joined by `or` are one selection together. -/
  | orGroup
  deriving DecidableEq

/-- The configuration of a query bar. -/
structure Config where
  sources : List Source
  functions : List QueryFunction := []
  defaultComparison : String := "="
  andSymbol : String := "&"
  orSymbol : String := "|"
  comparisons : List String
  mode : OperatorMode := .complex
  itemLimit : Nat := 10
  startLength : Nat := 0
  /-- Milliseconds that a lookup waits before it is run. -/
  delay : Nat := 1
  showWhenSearching : Bool := false
  allowFreeText : Bool := false
  limitPolicy : LimitPolicy := .individual

/-- The comparisons of a source that sets no others. -/
def defaultComparisons : List String := ["=", "!"]

def stringComparisons : List String := ["=", "!", "*", "!*", "<*", ">*"]

def numberComparisons : List String := ["=", ">", "<", ">=", "<=", "!"]

namespace Config

/-- The texts in order, each once. -/
def distinct (texts : List String) : List String :=
  texts.foldl (fun seen t => if seen.contains t then seen else seen ++ [t]) []

/-- A configuration with the given sources, whose comparisons are those of all sources. -/
def ofSources (sources : List Source) : Config where
  sources
  comparisons := distinct (sources.flatMap Source.comparisons)

def source? (c : Config) (name : String) : Option Source :=
  c.sources.find? (·.name == name)

/-- The source with a name, and where it stands. -/
def sourceAt? (c : Config) (name : String) : Option (Nat × Source) :=
  match c.sources.findIdx? (·.name == name), c.source? name with
  | some position, some source => some (position, source)
  | _, _ => none

def function? (c : Config) (name : String) : Option QueryFunction :=
  c.functions.find? (·.name == name)

/-- The text is one of the comparisons that can be typed. -/
def isComparison (c : Config) (symbol : String) : Bool := c.comparisons.contains symbol

/-- Operators are read unless there are none or the function forbids them. -/
def readsOperators (c : Config) (f : Option QueryFunction) : Bool :=
  c.mode != .simple && f.all (!·.noOperators)

/-- Brackets are read where groups exist and the function does not forbid them. -/
def readsBrackets (c : Config) (f : Option QueryFunction) : Bool :=
  c.mode == .complex && f.all (!·.noBrackets)

/-- Free text is allowed everywhere, or by the function. -/
def allowsFreeText (c : Config) (f : Option QueryFunction) : Bool :=
  c.allowFreeText || f.any (·.allowFreeText)

/-- The first source name that stood before. -/
def repeatedName? (seen : List String) : List Source → Option String
  | [] => none
  | s :: rest =>
    if seen.contains s.name then some s.name else repeatedName? (s.name :: seen) rest

/-- Source names tell sources apart, and so do the symbols the two operators. -/
def check (c : Config) : Except BarError Unit :=
  match repeatedName? [] c.sources with
  | some name => .error (.duplicateSource name)
  | none => if c.andSymbol = c.orSymbol then .error (.sameSymbols c.andSymbol) else .ok ()

end Config

end QueryBar
