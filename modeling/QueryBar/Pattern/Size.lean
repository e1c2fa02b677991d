/-
How large a pattern is.

Patterns come from settings, so there is a bound on them.  The size is that of two automata
for the reduced form, one that reads the bytes of a text forward and one that reads them
backward; both have to be small.  The size is known without building them, as the size of
a pattern depends on the extents of its parts only: a part that is repeated a thousand
times counts a thousand times.
-/
import QueryBar.Pattern.Extent.Class
import QueryBar.Pattern.Extent.Words
import QueryBar.Pattern.Reduced

namespace QueryBar.Pattern

/-! ### Literals -/

/-- The bytes of a literal in the order in which they are read. -/
def bytesOf (backward : Bool) (cs : List Char) : List Nat :=
  let bytes := cs.flatMap fun c => Text.utf8 c.toNat
  if backward then bytes.reverse else bytes

/-- The literals that branches are, if all of them are. -/
def literals? (branches : List Reduced) : Option (List (List Char)) :=
  branches.mapM fun p => match p with
    | .literal cs => some cs
    | _ => none

/-! ### Patterns -/

mutual

/-- The extent of the automaton of a pattern that is read in some direction.  Only the forward one
notes where counted groups begin and end. -/
def Reduced.extent (backward : Bool) : Reduced → Extent
  | .empty | .edge _ | .wordEdge _ => .state
  | .literal cs => ⟨stateSize * (bytesOf backward cs).length, false⟩
  | .oneOf ranges => ⟨classSize backward ranges, false⟩
  | .times p min max _ =>
    let e := p.extent backward
    match max with
    | none => e.atLeast p.isNeverEmpty min
    | some max =>
      if min = 0 ∧ max = 1 then e.optional
      else if min = max then e.repeated min
      else e.between min (max - min)
  | .group p =>
    let e := p.extent backward
    if backward then e else ⟨stateSize + e.size + e.onward + stateSize, false⟩
  | .seq ps =>
    let es := Reduced.extents backward ps
    .row (if backward then es.reverse else es)
  | .alt ps =>
    match literals? ps with
    | some literals => ⟨choiceSize (literals.map (bytesOf backward)), false⟩
    | none => .choice (Reduced.extents backward ps)

/-- The extents of the automata of patterns. -/
def Reduced.extents (backward : Bool) : List Reduced → List Extent
  | [] => []
  | p :: ps => p.extent backward :: Reduced.extents backward ps

end

/-- The size of the automaton that finds a pattern.  Before the pattern it passes over any bytes,
unless all matches are held to where it starts to read. -/
def Reduced.automatonSize (backward : Bool) (p : Reduced) : Nat :=
  let before :=
    if p.isHeld backward then stateSize
    else 2 * stateSize + branchingSize 1 + 2 * linkSize
  let whole := p.extent backward
  let groupMarks := if backward then 0 else 2 * stateSize
  before + groupMarks + whole.size + whole.onward + stateSize

/-- The largest size of an automaton: ten mebibytes. -/
def sizeLimit : Nat := 10485760

/-- The automata of the pattern are not too large. -/
def isSmall (p : Pattern) : Bool :=
  let r := p.reduced
  r.automatonSize false ≤ sizeLimit && r.automatonSize true ≤ sizeLimit

end QueryBar.Pattern
