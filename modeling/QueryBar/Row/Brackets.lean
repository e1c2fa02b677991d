/-
Brackets without a partner.

Only the comparisons `(` and `)` count; all others are looked through.  One scan from the
left and one from the right each flag what they cannot pair up, and the flags are put
together in ascending order.
-/
import QueryBar.Matcher

namespace QueryBar.Row

/-- Goes through comparisons in the given order.  An opening one waits for a partner; a closing
one takes the partner that has waited least, or is flagged.  At the end all those that still
wait are flagged too. -/
def unpaired (opening closing : String) : List Nat → List (Nat × String) → List Nat
  | waiting, [] => waiting
  | waiting, (i, comparison) :: rest =>
    if comparison = opening then unpaired opening closing (i :: waiting) rest
    else if comparison = closing then
      match waiting with
      | [] => i :: unpaired opening closing [] rest
      | _ :: waiting => unpaired opening closing waiting rest
    else unpaired opening closing waiting rest

/-- Puts an index into an ascending list of indices, unless it is there. -/
def insertIndex (i : Nat) : List Nat → List Nat
  | [] => [i]
  | j :: js => if i < j then i :: j :: js else if i = j then j :: js else j :: insertIndex i js

/-- The places of the brackets that have no partner, ascending. -/
def unbalanced (comparisons : List String) : List Nat :=
  let indexed := comparisons.zipIdx.map fun (c, i) => (i, c)
  let opening := Bracket.opening.symbol
  let closing := Bracket.closing.symbol
  (unpaired opening closing [] indexed ++ unpaired closing opening [] indexed.reverse).foldr
    insertIndex []

end QueryBar.Row
