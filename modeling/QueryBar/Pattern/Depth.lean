/-
How deep a pattern is nested.

The depth counts what a pattern is nested in: groups, repetitions, rows of parts, branches
and classes.  It is that of the pattern as it is spelled, so a bracket that changes nothing
counts as well.
-/
import QueryBar.Pattern

namespace QueryBar.Pattern

mutual

/-- How deep a pattern is nested.  Characters and anchors have no depth; a class has two levels
if it holds more than one range. -/
def depth : Pattern → Nat
  | .inSet set => if set.ranges.length = 1 then 1 else 2
  | .seq ps | .alt ps => depthOfAll ps + 1
  | .times p _ _ _ => depth p + 1
  | .group p _ => depth p + 1
  | _ => 0

/-- How deep the deepest of some patterns is nested. -/
def depthOfAll : List Pattern → Nat
  | [] => 0
  | p :: ps => max (depth p) (depthOfAll ps)

end

def depthLimit : Nat := 250

end QueryBar.Pattern
