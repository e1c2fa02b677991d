/-
Patterns in reduced form.

How large a pattern is counts after the obvious has been taken out of it: brackets that are
not counted, empty parts, repetitions that say nothing, characters in a row as one literal,
branches that are single characters or classes as one class, and what all branches begin
with.  Each constructor of the reduced form has a function beside it that does so, and a
pattern is reduced by using these functions in place of the constructors.
-/
import QueryBar.Pattern

namespace QueryBar.Pattern

/-- A pattern in reduced form. -/
inductive Reduced
  | empty
  /-- Characters in a row. -/
  | literal (cs : List Char)
  /-- One character from ascending ranges of code points that do not touch; none can be chosen
  from no ranges. -/
  | oneOf (ranges : List (Nat × Nat))
  /-- The end of the text, or its start. -/
  | edge (atEnd : Bool)
  /-- The end of a word, or its start. -/
  | wordEdge (atEnd : Bool)
  | times (p : Reduced) (min : Nat) (max : Option Nat) (short : Bool)
  | group (p : Reduced)
  | seq (parts : List Reduced)
  | alt (branches : List Reduced)

namespace Reduced

/-! ### Questions -/

mutual

/-- Nothing but the empty text can match. -/
def matchesOnlyEmpty : Reduced → Bool
  | .empty | .edge _ | .wordEdge _ => true
  | .literal _ | .oneOf _ => false
  | .times p _ max _ => p.matchesOnlyEmpty && max.isSome
  | .group p => p.matchesOnlyEmpty
  | .seq ps | .alt ps => allMatchOnlyEmpty ps

/-- Nothing but the empty text can match any of the patterns. -/
def allMatchOnlyEmpty : List Reduced → Bool
  | [] => true
  | p :: ps => p.matchesOnlyEmpty && allMatchOnlyEmpty ps

end

mutual

/-- The length of a shortest match, if the pattern can match at all. -/
def leastLength? : Reduced → Option Nat
  | .empty | .edge _ | .wordEdge _ => some 0
  | .literal cs => some cs.length
  | .oneOf ranges => if ranges.isEmpty then none else some 1
  | .times p min _ _ => p.leastLength?.map (min * ·)
  | .group p => p.leastLength?
  | .seq ps => leastLengthOfAll? ps
  | .alt ps => leastLengthOfAny? ps

/-- The length of a shortest match of patterns in a row. -/
def leastLengthOfAll? : List Reduced → Option Nat
  | [] => some 0
  | p :: ps =>
    match p.leastLength?, leastLengthOfAll? ps with
    | some m, some n => some (m + n)
    | _, _ => none

/-- The length of a shortest match of patterns each of which can match. -/
def leastLengthOfAny? : List Reduced → Option Nat
  | [] => none
  | [p] => p.leastLength?
  | p :: ps =>
    match p.leastLength?, leastLengthOfAny? ps with
    | some m, some n => some (min m n)
    | _, _ => none

end

def isNeverEmpty (p : Reduced) : Bool := p.leastLength?.any (0 < ·)

mutual

/-- Every match lies at the end of the text, or at its start. -/
def isHeld (atEnd : Bool) : Reduced → Bool
  | .edge e => e == atEnd
  | .times p min _ _ => 0 < min && p.isHeld atEnd
  | .group p => p.isHeld atEnd
  | .seq ps => if atEnd then (lastHeld ps).1 else firstHeld ps
  | .alt ps => allHeld atEnd ps
  | _ => false

/-- Every match of patterns in a row lies at the start of the text. -/
def firstHeld : List Reduced → Bool
  | [] => false
  | p :: ps => p.isHeld false || (p.matchesOnlyEmpty && firstHeld ps)

/-- Every match of patterns in a row lies at the end of the text; and only the empty text can
match. -/
def lastHeld : List Reduced → Bool × Bool
  | [] => (false, true)
  | p :: ps =>
    let (held, onlyEmpty) := lastHeld ps
    (held || (onlyEmpty && p.isHeld true), onlyEmpty && p.matchesOnlyEmpty)

/-- Every match of any of the patterns lies at the end of the text, or at its start. -/
def allHeld (atEnd : Bool) : List Reduced → Bool
  | [] => true
  | p :: ps => p.isHeld atEnd && allHeld atEnd ps

end

mutual

/-- The patterns are written alike; two counted groups never are the same. -/
def same : Reduced → Reduced → Bool
  | .empty, .empty => true
  | .literal cs, .literal ds => cs == ds
  | .oneOf rs, .oneOf ss => rs == ss
  | .edge e, .edge f => e == f
  | .wordEdge e, .wordEdge f => e == f
  | .times p min max short, .times q min' max' short' =>
    min == min' && max == max' && short == short' && same p q
  | .seq ps, .seq qs => allSame ps qs
  | .alt ps, .alt qs => allSame ps qs
  | _, _ => false

/-- The patterns are written alike, one by one. -/
def allSame : List Reduced → List Reduced → Bool
  | [], [] => true
  | p :: ps, q :: qs => same p q && allSame ps qs
  | _, _ => false

end

/-! ### Classes -/

/-- Inserts a range among ascending ranges. -/
def insertRange (r : Nat × Nat) : List (Nat × Nat) → List (Nat × Nat)
  | [] => [r]
  | s :: rs => if r.1 ≤ s.1 then r :: s :: rs else s :: insertRange r rs

/-- Joins a range with the ascending ranges after it that touch it, and those with each other. -/
def joinTouching (r : Nat × Nat) : List (Nat × Nat) → List (Nat × Nat)
  | [] => [r]
  | s :: rs =>
    if s.1 ≤ r.2 + 1 then joinTouching (r.1, max r.2 s.2) rs else r :: joinTouching s rs

/-- The code points in some ranges as ascending ranges that do not touch. -/
def ascending (ranges : List (Nat × Nat)) : List (Nat × Nat) :=
  match ranges.foldr insertRange [] with
  | [] => []
  | r :: rs => joinTouching r rs

/-- The code points from `low` on that are in none of the ascending ranges. -/
def complementFrom (low : Nat) : List (Nat × Nat) → List (Nat × Nat)
  | [] => if low ≤ 0x10FFFF then [(low, 0x10FFFF)] else []
  | r :: rs => if low < r.1 then (low, r.1 - 1) :: complementFrom (r.2 + 1) rs
    else complementFrom (r.2 + 1) rs

/-- One character from ascending ranges that do not touch. -/
def mkOneOf (ranges : List (Nat × Nat)) : Reduced :=
  match ranges with
  | [(low, high)] => if low = high then .literal [Char.ofNat low] else .oneOf ranges
  | _ => .oneOf ranges

/-- One character from a class. -/
def ofCharSet (s : CharSet) : Reduced :=
  let ranges := ascending (s.ranges.map fun r => (r.1.toNat, r.2.toNat))
  mkOneOf (if s.negated then complementFrom 0 ranges else ranges)

/-! ### Rows, branches and repetitions -/

/-- Puts a part before others; a literal joins a literal. -/
def prepend : Reduced → List Reduced → List Reduced
  | .empty, ps => ps
  | .literal cs, .literal ds :: ps => .literal (cs ++ ds) :: ps
  | p, ps => p :: ps

/-- The parts of a row. -/
def partsOf : Reduced → List Reduced
  | .seq ps => ps
  | p => [p]

def mkSeq (parts : List Reduced) : Reduced :=
  match (parts.flatMap partsOf).foldr prepend [] with
  | [] => .empty
  | [p] => p
  | ps => .seq ps

/-- The branches of a choice. -/
def branchesOf : Reduced → List Reduced
  | .alt ps => ps
  | p => [p]

/-- The character that a pattern is, if it is one. -/
def char? : Reduced → Option Char
  | .literal [c] => some c
  | _ => none

/-- The ranges that a pattern chooses one character from, if it does. -/
def ranges? : Reduced → Option (List (Nat × Nat))
  | .oneOf ranges => some ranges
  | _ => none

/-- The class that branches make together, if all are single characters or all are classes. -/
def classOf? (branches : List Reduced) : Option Reduced :=
  match branches.mapM char?, branches.mapM ranges? with
  | some cs, _ => some (mkOneOf (ascending (cs.map fun c => (c.toNat, c.toNat))))
  | none, some rss => some (mkOneOf (ascending rss.flatten))
  | none, none => none

/-- A choice between branches that do not begin alike. -/
def mkPlainAlt (branches : List Reduced) : Reduced :=
  match branches.flatMap branchesOf with
  | [] => .oneOf []
  | [p] => p
  | branches => (classOf? branches).getD (.alt branches)

/-- The parts of a pattern that is a row. -/
def rowOf? : Reduced → Option (List Reduced)
  | .seq ps => some ps
  | _ => none

/-- How many parts two rows have in common at their front. -/
def commonLength : List Reduced → List Reduced → Nat
  | p :: ps, q :: qs => if same p q then commonLength ps qs + 1 else 0
  | _, _ => 0

/-- A choice between branches.  What all of them begin with is taken out, if all are rows. -/
def mkAlt (branches : List Reduced) : Reduced :=
  match mkPlainAlt branches with
  | .alt branches =>
    match branches.mapM rowOf? with
    | some (row :: rows) =>
      match rows.foldl (fun n other => min n (commonLength row other)) row.length with
      | 0 => .alt branches
      | n + 1 =>
        let rests := (row :: rows).map fun other => mkSeq (other.drop (n + 1))
        mkSeq (row.take (n + 1) ++ [mkPlainAlt rests])
    | _ => .alt branches
  | p => p

/-- A repetition.  To repeat what only the empty text can match is to match it once or not at
all. -/
def mkTimes (p : Reduced) (min : Nat) (max : Option Nat) (short : Bool) : Reduced :=
  let (min, max) :=
    if p.matchesOnlyEmpty then (Nat.min min 1, some (Nat.min (max.getD 1) 1)) else (min, max)
  if max = some 0 then .empty else if min = 1 ∧ max = some 1 then p else .times p min max short

end Reduced

/-! ### Reduction -/

mutual

def reduced : Pattern → Reduced
  | .empty => .empty
  | .char c => .literal [c]
  | .dot => .oneOf [(0, 9), (11, 0x10FFFF)]
  | .inSet set => .ofCharSet set
  | .start => .edge false
  | .finish => .edge true
  | .wordStart => .wordEdge false
  | .wordEnd => .wordEdge true
  | .seq parts => .mkSeq (allReduced parts)
  | .alt branches => .mkAlt (allReduced branches)
  | .times p min max short => .mkTimes (reduced p) min max short
  | .group p counted => if counted then .group (reduced p) else reduced p

def allReduced : List Pattern → List Reduced
  | [] => []
  | p :: ps => reduced p :: allReduced ps

end

end QueryBar.Pattern
