/-
The part of a configuration that can be written down.

Settings are what a configuration consists of apart from functions and services, so a
bar can be set up without programming.  A source in the settings has a list of texts, a
pattern or both.  `Settings.toConfig` makes a configuration of them and checks it.
-/
import QueryBar.Config
import QueryBar.Pattern.Grammar

namespace QueryBar

/-- A source that can be written down. -/
structure SourceSpec where
  name : String := ""
  /-- The name stands for an empty title. -/
  title : String := ""
  comparisons : List String := []
  precedence : Option Int64 := none
  selectionLimit : Option UInt64 := none
  functional : Bool := false
  items : List String := []
  pattern : Option String := none
  ignoreCase : Bool := false
  itemLimit : Option UInt64 := none
  deriving DecidableEq

/-- What a configuration is made of, and where a server listens. -/
structure Settings where
  listen : String := "127.0.0.1:7878"
  defaultComparison : String := "="
  andSymbol : String := "&"
  orSymbol : String := "|"
  mode : OperatorMode := .complex
  itemLimit : UInt64 := 10
  startLength : UInt64 := 0
  delay : UInt64 := 1
  showWhenSearching : Bool := false
  allowFreeText : Bool := false
  limitPolicy : LimitPolicy := .individual
  sources : List SourceSpec := []
  deriving DecidableEq

namespace SourceSpec

/-- The list of the source's texts, if it has any. -/
def listDefinition (s : SourceSpec) : List Definition :=
  if s.items.isEmpty then []
  else
    [.list {
      supply := .items (s.items.map .text)
      ignoreCase := s.ignoreCase
      itemLimit := s.itemLimit.map UInt64.toNat }]

/-- The source's pattern, if it has one; what matches it is the value. -/
def patternDefinition (s : SourceSpec) : Except BarError (List Definition) :=
  match s.pattern with
  | none => .ok []
  | some text =>
    match Pattern.ofText? text with
    | some p => .ok [.test ⟨.pattern p, .text⟩]
    | none => .error .badPattern

def toSource (s : SourceSpec) : Except BarError Source := do
  let pattern ← s.patternDefinition
  return {
    name := s.name
    title := if s.title.isEmpty then s.name else s.title
    comparisons := if s.comparisons.isEmpty then defaultComparisons else s.comparisons
    precedence := s.precedence
    selectionLimit := s.selectionLimit.map UInt64.toNat
    functional := s.functional
    definitions := s.listDefinition ++ pattern }

end SourceSpec

namespace Settings

def toConfig (s : Settings) : Except BarError Config := do
  let sources ← s.sources.mapM SourceSpec.toSource
  let c : Config :=
    { Config.ofSources sources with
      defaultComparison := s.defaultComparison
      andSymbol := s.andSymbol
      orSymbol := s.orSymbol
      mode := s.mode
      itemLimit := s.itemLimit.toNat
      startLength := s.startLength.toNat
      delay := s.delay.toNat
      showWhenSearching := s.showWhenSearching
      allowFreeText := s.allowFreeText
      limitPolicy := s.limitPolicy }
  c.check
  return c

end Settings

end QueryBar
