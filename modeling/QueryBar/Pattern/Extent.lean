/-
The space that automata take up.

An automaton is built from states, and every state takes up the same space.  A state that
leads to others by ranges of bytes takes up more for each range, and one that leads to
several others without reading takes up more for each of them.

The automaton of a part of a pattern ends in a state that leads on to what comes next.  If
that state leads to several others already, leading on takes up the space of one more.
-/

namespace QueryBar.Pattern

/-! ### States -/

def stateSize : Nat := 32

/-- The space of a state that leads to others by ranges of bytes. -/
def branchingSize (ranges : Nat) : Nat := stateSize + 8 * ranges

/-- The space of leading to one more state. -/
def linkSize : Nat := 4

/-! ### Automata -/

/-- The size of an automaton, and whether its last state has several places to go. -/
structure Extent where
  size : Nat
  branches : Bool

namespace Extent

/-- The space of leading on from the last state. -/
def onward (e : Extent) : Nat := if e.branches then linkSize else 0

/-- The extent of one state. -/
def state : Extent := ⟨stateSize, false⟩

/-- One automaton after another. -/
def andThen (e f : Extent) : Extent := ⟨e.size + e.onward + f.size, f.branches⟩

/-- An automaton a number of times in a row. -/
def repeated (n : Nat) (e : Extent) : Extent :=
  match n with
  | 0 => state
  | n + 1 => ⟨n * (e.size + e.onward) + e.size, e.branches⟩

/-- The automata of a row in the order in which they are passed. -/
def row : List Extent → Extent
  | [] => state
  | [e] => e
  | e :: es => e.andThen (row es)

/-- A choice between automata: a state before them and one after them. -/
def choice (es : List Extent) : Extent :=
  ⟨es.foldl (fun n e => n + linkSize + e.size + e.onward) (2 * stateSize), false⟩

/-- An automaton that may be passed over. -/
def optional (e : Extent) : Extent :=
  ⟨2 * stateSize + 2 * linkSize + e.size + e.onward, false⟩

/-- An automaton that is passed any number of times; `neverEmpty` says that it cannot be passed
without reading anything. -/
def anyTimes (neverEmpty : Bool) (e : Extent) : Extent :=
  if neverEmpty then ⟨stateSize + linkSize + e.size + e.onward, true⟩
  else ⟨3 * stateSize + 4 * linkSize + e.size + e.onward, false⟩

/-- An automaton that is passed a number of times or more. -/
def atLeast (neverEmpty : Bool) (n : Nat) (e : Extent) : Extent :=
  match n with
  | 0 => anyTimes neverEmpty e
  | 1 => ⟨e.size + e.onward + stateSize + linkSize, true⟩
  | n + 2 =>
    let before := repeated (n + 1) e
    ⟨before.size + before.onward + e.size + e.onward + stateSize + linkSize, true⟩

/-- An automaton that is passed a number of times, and then up to `more` times more. -/
def between (n more : Nat) (e : Extent) : Extent :=
  let before := repeated n e
  let each := stateSize + 2 * linkSize + e.size + e.onward
  ⟨before.size + before.onward + stateSize + more * each, false⟩

end Extent

end QueryBar.Pattern
