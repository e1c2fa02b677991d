/-
The space of an automaton for a class.

A class of ASCII characters takes one state for all of its ranges.  Any other class becomes
rows of byte ranges first.  Read forward, rows that have the same end share the states that
read it, so there is one state for each different way to go on.  Read backward, rows that
have the same start share states.
-/
import QueryBar.Pattern.Extent
import QueryBar.Text.Encoding

namespace QueryBar.Pattern

/-- A state of an automaton that reads rows of byte ranges: where each range leads.  State 0 is
the one after all rows. -/
abbrev Fork := List (Text.ByteRange × Nat)

/-- The number of a state among others; a state that is new comes last. -/
def shared (forks : List Fork) (fork : Fork) : Nat × List Fork :=
  match forks.idxOf? fork with
  | some i => (i + 1, forks)
  | none => (forks.length + 1, forks ++ [fork])

/-- Rows gathered by their first range; rows that begin alike stand together. -/
def gathered : List (List Text.ByteRange) → List (Text.ByteRange × List (List Text.ByteRange))
  | [] => []
  | [] :: rows => gathered rows
  | (r :: rest) :: rows =>
    match gathered rows with
    | (s, rests) :: more =>
      if r = s then (s, rest :: rests) :: more else (r, [rest]) :: (s, rests) :: more
    | [] => [(r, [rest])]

/-- Adds the states that read some rows, none of them longer than `fuel`, and gives the number of
the first.  Rows that have the same end share its states. -/
def readRows : Nat → List Fork → List (List Text.ByteRange) → Nat × List Fork
  | 0, forks, _ => (0, forks)
  | _ + 1, forks, [[]] => (0, forks)
  | fuel + 1, forks, rows =>
    let (fork, forks) := (gathered rows).foldl (fun (fork, forks) (r, rests) =>
      let (next, forks) := readRows fuel forks rests
      (fork ++ [(r, next)], forks)) ([], forks)
    shared forks fork

/-- The number of states that read some rows from their last range to their first.  Rows that have
the same start share its states, and they stand together. -/
def backwardStates : List (List Text.ByteRange) → Nat
  | [] => 0
  | [row] => row.length
  | row :: next :: rows =>
    let common := ((List.zip row next).takeWhile fun p => p.1 == p.2).length
    row.length - common + backwardStates (next :: rows)

/-- The size of an automaton that reads one character from ranges of code points. -/
def classSize (backward : Bool) (ranges : List (Nat × Nat)) : Nat :=
  if ranges.all fun r => r.2 < 0x80 then stateSize + branchingSize ranges.length
  else
    let rows := Text.byteRowsOf ranges
    if backward then
      2 * stateSize + stateSize * backwardStates rows + linkSize * rows.length
    else
      let forks := (readRows 5 [] rows).2
      forks.foldl (fun n fork => n + branchingSize fork.length) stateSize

end QueryBar.Pattern
