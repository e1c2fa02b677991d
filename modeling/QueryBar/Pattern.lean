/-
Patterns, and whether a text contains a match.

All that is ever asked of a pattern is whether it matches somewhere in a text, so matching
works on sets of positions.  A set is a natural number: position `i` is in it if the bit of
weight `2 ^ i` is set.  A pattern is first laid over the text, which turns every set of
characters into the set of positions at which one of them stands; then `advance` takes the
positions where a match may begin to those where it may end, all of them at once.

A repetition is iterated until nothing changes any more.  That is soon: a round that goes
on from a position either stays there or moves on, and there are only so many positions.
-/
import QueryBar.Text.Alphanumeric

namespace QueryBar

/-- A set of characters as a class spells it: those in one of the ranges, or all others. -/
structure CharSet where
  negated : Bool
  ranges : List (Char × Char)
  deriving DecidableEq

def CharSet.holds (s : CharSet) (c : Char) : Bool :=
  s.ranges.any (fun r => r.1 ≤ c && c ≤ r.2) != s.negated

/-- A pattern. -/
inductive Pattern
  /-- Matches the empty text. -/
  | empty
  | char (c : Char)
  /-- Matches every character except the line feed. -/
  | dot
  | inSet (set : CharSet)
  /-- Matches the empty text at the start of the whole text. -/
  | start
  /-- Matches the empty text at the end of the whole text. -/
  | finish
  /-- Matches the empty text where a word begins. -/
  | wordStart
  /-- Matches the empty text where a word ends. -/
  | wordEnd
  | seq (parts : List Pattern)
  | alt (branches : List Pattern)
  /-- Matches at least `min` times in a row, and at most `max` times if that is given; short
  matches may be asked for, which makes no difference to whether there is one. -/
  | times (p : Pattern) (min : Nat) (max : Option Nat) (short : Bool)
  /-- A pattern in brackets, which may be counted among the groups of the whole. -/
  | group (p : Pattern) (counted : Bool)

/-! ### Positions in a text -/

/-- The set of the places at which something holds. -/
def placesOf (holds : List Bool) : Nat := holds.foldr (fun b n => 2 * n + b.toNat) 0

/-- The set of the places at which something holds, put together from blocks of places. -/
def positionsOf (fuel : Nat) (holds : List Bool) : Nat :=
  match fuel with
  | 0 => 0
  | fuel + 1 =>
    if holds.isEmpty then 0
    else positionsOf fuel (holds.drop 32) * 4294967296 + placesOf (holds.take 32)

/-- A text as its length and, for each character in it, the positions at which it stands. -/
structure Script where
  length : Nat
  letters : List (Char × Nat)

namespace Script

/-- The positions at which the characters of a text stand. -/
def ofText (text : List Char) : Script :=
  ⟨text.length, text.eraseDups.map fun c => (c, positionsOf text.length (text.map (· == c)))⟩

def all (s : Script) : Nat := Nat.pow 2 (s.length + 1) - 1

/-- The positions at which a character stands for which something holds. -/
def positionsWhere (s : Script) (holds : Char → Bool) : Nat :=
  s.letters.foldl (fun ps (c, qs) => if holds c then ps ||| qs else ps) 0

/-- The character belongs to a word. -/
def isWordPart (c : Char) : Bool := c == '_' || Text.isAlphanumeric c

/-- The positions where a word begins, or where one ends. -/
def wordEdges (s : Script) (atEnd : Bool) : Nat :=
  let before := s.positionsWhere isWordPart
  let after := 2 * before
  (if atEnd then after else before) ^^^ (before &&& after)

end Script

/-! ### Laying a pattern over a text -/

/-- What a pattern does to sets of positions in a text. -/
inductive Track
  /-- Keeps the positions in a set. -/
  | keep (positions : Nat)
  /-- Keeps the positions in a set and moves them on by one. -/
  | step (positions : Nat)
  | andThen (first second : Track)
  | either (first second : Track)
  | times (t : Track) (min : Nat) (max : Option Nat)

namespace Pattern

mutual

/-- The pattern laid over a text. -/
def track (s : Script) : Pattern → Track
  | .empty => .keep s.all
  | .char c => .step (s.positionsWhere (· == c))
  | .dot => .step (s.positionsWhere (· != '\n'))
  | .inSet set => .step (s.positionsWhere set.holds)
  | .start => .keep 1
  | .finish => .keep (Nat.pow 2 s.length)
  | .wordStart => .keep (s.wordEdges false)
  | .wordEnd => .keep (s.wordEdges true)
  | .seq parts => trackSeq s parts
  | .alt branches => trackAlt s branches
  | .times p min max _ => .times (track s p) min max
  | .group p _ => track s p

/-- Patterns in a row laid over a text. -/
def trackSeq (s : Script) : List Pattern → Track
  | [] => .keep s.all
  | [p] => track s p
  | p :: ps => .andThen (track s p) (trackSeq s ps)

/-- Patterns to choose from laid over a text. -/
def trackAlt (s : Script) : List Pattern → Track
  | [] => .keep 0
  | [p] => track s p
  | p :: ps => .either (track s p) (trackAlt s ps)

end

end Pattern

/-! ### Matching -/

namespace Track

/-- Applies `f` a number of times, or until nothing changes. -/
def iterate (f : Nat → Nat) : Nat → Nat → Nat
  | 0, ps => ps
  | n + 1, ps =>
    let qs := f ps
    if qs = ps then ps else iterate f n qs

/-- All positions found by applying `f` up to `n` times. -/
def saturate (f : Nat → Nat) : Nat → Nat → Nat := iterate fun ps => ps ||| f ps

/-- Where a match can end that begins at one of the positions.  No repetition brings anything new
after `rounds` rounds. -/
def advance (rounds : Nat) : Track → Nat → Nat
  | .keep positions, ps => ps &&& positions
  | .step positions, ps => 2 * (ps &&& positions)
  | .andThen t u, ps => u.advance rounds (t.advance rounds ps)
  | .either t u, ps => t.advance rounds ps ||| u.advance rounds ps
  | .times t min max, ps =>
    let ps := iterate (t.advance rounds) min ps
    saturate (t.advance rounds) ((max.map (· - min)).getD rounds) ps

end Track

def Pattern.matchesIn (p : Pattern) (text : String) : Bool :=
  let s := Script.ofText text.toList
  (p.track s).advance (s.length + 1) s.all != 0

end QueryBar
