/-
What can be said against a matcher.

A candidate is judged by the row that would result from it.  Its comparison may not be
legal for its source, or make no sense for a pattern, or the source may be selected too
often.  `objection?` gives the wording of the first of these that applies.
-/
import QueryBar.Config

namespace QueryBar.Row

/-- The comparisons that make sense for a source backed by a pattern. -/
def patternComparisons : List String := ["=", "!"]

/-- How often a row selects a source.  With `orGroups`, a matcher joined by `or` to a neighbour
of the same source belongs to that neighbour's selection. -/
def selectionCount (orGroups : Bool) (source : String) : Option Matcher → List Matcher → Nat
  | _, [] => 0
  | before, m :: ms =>
    let joined := orGroups && m.operator == .or && before.any (·.source == source)
    (if m.source = source && !joined then 1 else 0) + selectionCount orGroups source (some m) ms

/-- The row that results when a candidate takes a place of the row, or joins its end. -/
def resulting (candidate : Matcher) (row : List Matcher) : Option Nat → List Matcher
  | some i => if i < row.length then row.set i candidate else row ++ [candidate]
  | none => row ++ [candidate]

/-- The wording for a comparison that a source does not have. -/
def illegalComparison (comparison name : String) : String :=
  "Comparison (" ++ comparison ++ ") isn't valid for " ++ name ++ "."

/-- The wording for a source that is selected too often. -/
def limitExceeded (title : String) (limit : Nat) : String :=
  "Datasource (" ++ title ++ ") is limited to " ++ toString limit ++ " items."

/-- What is wrong with a candidate of a source. -/
def sourceObjection? (c : Config) (s : Source) (candidate : Matcher) (row : List Matcher)
    (replaced : Option Nat) : Option String :=
  if !s.allows candidate.comparison then some (illegalComparison candidate.comparison s.name)
  else if s.isPatternBacked && !patternComparisons.contains candidate.comparison then
    some (illegalComparison candidate.comparison "regex")
  else
    s.selectionLimit.bind fun limit =>
      let orGroups := c.limitPolicy == .orGroup && c.mode != .simple
      if limit < selectionCount orGroups s.name none (resulting candidate row replaced) then
        some (limitExceeded s.title limit)
      else none

/-- What is wrong with a candidate that is to take the place `replaced` of the row, or to join
its end.  Brackets, free texts and unknown sources are never objected to. -/
def objection? (c : Config) (candidate : Matcher) (row : List Matcher) (replaced : Option Nat) :
    Option String :=
  if candidate.isBracket || candidate.isFreeText then none
  else (c.source? candidate.source).bind fun s => sourceObjection? c s candidate row replaced

end QueryBar.Row
