/-
The terms of a query.

A query is a row of matchers.  Most compare a source with a value; a matcher whose
comparison is a bracket opens or closes a group, and one whose comparison is a quote
searches for a piece of free text.  A matcher never changes: every edit puts another
one with the same key in its place.

`display`, `tooltip` and `copyText` are the three ways a matcher is written for people.
-/
import QueryBar.Value

namespace QueryBar

/-- How a matcher combines with the one before it. -/
inductive Operator
  | none
  | and
  | or
  deriving DecidableEq

namespace Operator

def name : Operator → String
  | .none => ""
  | .and => "and"
  | .or => "or"

def ofName? (s : String) : Option Operator :=
  if s = "" then some .none
  else if s = "and" ∨ s = "&" then some .and
  else if s = "or" ∨ s = "|" then some .or
  else Option.none

end Operator

/-- One end of a group. -/
inductive Bracket
  | opening
  | closing
  deriving DecidableEq

namespace Bracket

/-- The comparison of a matcher that is this bracket. -/
def symbol : Bracket → String
  | .opening => "("
  | .closing => ")"

def ofSymbol? (s : String) : Option Bracket :=
  if s = "(" then some .opening else if s = ")" then some .closing else none

def ofChar? (c : Char) : Option Bracket :=
  if c = '(' then some .opening else if c = ')' then some .closing else none

end Bracket

/-- The comparison of a free-text matcher, and the mark that a free text starts with. -/
def freeTextMark : String := "\""

/-- The source that free-text matchers name. -/
def freeTextSource : String := "Free Text"

/-- One term of a query. -/
structure Matcher where
  /-- Tells the matcher apart from all others of its row, and stays when it is edited. -/
  key : String
  operator : Operator
  comparison : String
  source : String
  value : Value
  text : String
  /-- Set in what observers are told while the matcher is being edited. -/
  changing : Bool := false
  deriving DecidableEq

namespace Matcher

def bracket (key : String) (b : Bracket) (operator : Operator) : Matcher :=
  { key, operator, comparison := b.symbol, source := "", value := .blank, text := "" }

def freeText (key text : String) : Matcher :=
  { key, operator := .none, comparison := freeTextMark, source := freeTextSource
    value := .text text, text }

def bracket? (m : Matcher) : Option Bracket := Bracket.ofSymbol? m.comparison

def isBracket (m : Matcher) : Bool := m.bracket?.isSome

def isFreeText (m : Matcher) : Bool := m.comparison == freeTextMark

/-- The matcher as it stands in the row.  The operator is left out at the start of the row or
of a group, where operators are hidden, and before a closing bracket. -/
def display (m : Matcher) (first hideOperators : Bool) : String :=
  let operator :=
    if first || hideOperators || m.operator == .none || m.bracket? == some .closing then ""
    else m.operator.name ++ " "
  let comparison := if m.isFreeText then "" else m.comparison ++ " "
  operator ++ comparison ++ m.text

/-- Source and text, and the value where it reads differently. -/
def tooltip (m : Matcher) : String :=
  let value := m.value.display
  if value = m.text then m.source ++ ": " ++ m.text
  else m.source ++ ": " ++ m.text ++ "(" ++ value ++ ")"

def inQuotes (s : String) : String := "\"" ++ s ++ "\""

/-- The matcher as it is copied out: `and` and `=` go without saying, and a text with a space
in it is quoted. -/
def copyText (m : Matcher) : String :=
  let operator := if m.operator = .or then "or " else ""
  let body :=
    if m.isFreeText then inQuotes m.text
    else if m.isBracket then m.comparison
    else
      (if m.comparison = "=" then "" else m.comparison ++ " ") ++
        (if m.text.toList.contains ' ' then inQuotes m.text else m.text)
  operator ++ body

end Matcher

/-! ### Keys -/

/-- Hands out keys: a stem and the number of keys handed out so far.  The number is a natural number
and never comes round.  An atomic counter of 64 bits agrees with it for the first `2^64 - 1` keys; at
the next it wraps to nought, and keys are handed out again. -/
structure KeySupply where
  stem : String
  issued : Nat
  deriving DecidableEq

namespace KeySupply

/-- A supply that has handed out nothing yet. -/
def ofStem (stem : String) : KeySupply := ⟨stem, 0⟩

/-- The supply of a row whose owner asks for no stem of its own. -/
def standard : KeySupply := ofStem "m"

def next (g : KeySupply) : String := g.stem ++ toString (g.issued + 1)

def advance (g : KeySupply) : KeySupply := { g with issued := g.issued + 1 }

end KeySupply

end QueryBar
