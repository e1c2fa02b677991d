/-
Which matcher is open.

Matchers are opened by their place or by going through the row.  A selection goes on to
the trailing box at either end of the row; an edit stops at the ends.
-/
import QueryBar.Bar

namespace QueryBar.Bar

/-- Opens a matcher and takes the focus. -/
def select (b : Bar) (place : Nat) : Bar := { b with hasFocus := true }.openAt (some place)

/-- The place before the active one; the last one before the trailing box. -/
def previousPlace (b : Bar) : Option Nat :=
  match b.active with
  | none => if b.matchers.isEmpty then none else some (b.matchers.length - 1)
  | some a => if 0 < a then some (a - 1) else none

/-- The place after the active one, if both are there. -/
def nextPlace (b : Bar) : Option Nat :=
  b.active.bind fun a => if a + 1 < b.matchers.length then some (a + 1) else none

/-- Opens the previous matcher, the trailing box before the first one. -/
def selectPrevious (b : Bar) : Bar := b.openAt b.previousPlace

/-- Opens the next matcher, the first one after the trailing box. -/
def selectNext (b : Bar) : Bar :=
  b.openAt (if b.active.isNone && !b.matchers.isEmpty then some 0 else b.nextPlace)

def editPrevious (b : Bar) : Bar :=
  match b.previousPlace with
  | some i => b.openAt (some i)
  | none => b

def editNext (b : Bar) : Bar :=
  match b.nextPlace with
  | some i => b.openAt (some i)
  | none => b

def toFirst (b : Bar) : Bar × Bool :=
  if b.matchers.isEmpty then (b, false) else (b.openAt (some 0), true)

def toEnd (b : Bar) : Bar × Bool :=
  if b.matchers.isEmpty then (b, false) else (b.openTrailing, true)

end QueryBar.Bar
