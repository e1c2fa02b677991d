/-
Changes of the row.

A matcher is put in, replaced, taken out or exchanged with another, always by its key.
A change that cannot be made leaves the bar as it is and says so.  The active place moves
along with its matcher where that makes sense, and otherwise the edit is closed.
-/
import QueryBar.Bar
import QueryBar.Error
import QueryBar.Row.Completeness

namespace QueryBar

/-- A row that was handed out. -/
structure Completion where
  matchers : List Matcher
  function : Option String

namespace Bar

/-! ### In and out -/

def add (b : Bar) (m : Matcher) : Bar := { b with matchers := b.matchers ++ [m] }.rowChanged

/-- Replaces the matcher with the same key and closes the edit. -/
def update (b : Bar) (m : Matcher) : Bar × Bool :=
  match b.placeOf? m.key with
  | none => (b, false)
  | some i => ({ b with matchers := b.matchers.set i m }.openTrailing.rowChanged, true)

/-- Removes the matchers with a key.  The edit is closed if asked for, or if its place is gone. -/
def remove (b : Bar) (key : String) (closeEdit : Bool) : Bar × Bool :=
  let rest := b.matchers.filter (·.key != key)
  if rest.length = b.matchers.length then (b, false)
  else
    let left : Bar := { b with matchers := rest }
    let left :=
      if b.active.any fun a => closeEdit || rest.length ≤ a then left.openTrailing else left
    (left.rowChanged, true)

/-- Removes the matcher with a key and closes the edit. -/
def delete (b : Bar) (key : String) : Bar × Bool := b.remove key true

/-- Removes the last matcher, or the active function once there is none. -/
def deleteLast (b : Bar) : Bar :=
  match b.matchers.getLast? with
  | some m => (b.remove m.key false).1
  | none => if b.function.isSome then b.useFunction none else b

def deleteAll (b : Bar) : Bar :=
  { b with matchers := [], function := none }.openTrailing.rowChanged

/-- Puts a matcher before the one with the key `anchor`, or at the end without one.  The active
matcher stays active. -/
def insertBefore (b : Bar) (m : Matcher) (anchor : Option String) : Except BarError Bar :=
  match anchor with
  | none => .ok (b.add m)
  | some key =>
    match b.placeOf? key with
    | none => .error (.noAnchor key)
    | some i =>
      .ok { b with
        matchers := b.matchers.take i ++ m :: b.matchers.drop i
        active := b.active.map fun a => if i ≤ a then a + 1 else a }.rowChanged

/-! ### Exchanges -/

/-- A list with the entries at two places exchanged. -/
def exchange (row : List Matcher) (i j : Nat) : List Matcher :=
  match row[i]?, row[j]? with
  | some m, some n => (row.set i n).set j m
  | _, _ => row

/-- Exchanges two matchers.  The active matcher stays active. -/
def swap (b : Bar) (key other : String) : Bar × Bool :=
  match b.placeOf? key, b.placeOf? other with
  | some i, some j =>
    ({ b with
        matchers := exchange b.matchers i j
        active := b.active.map fun a => if a = i then j else if a = j then i else a }.rowChanged,
      true)
  | _, _ => (b, false)

/-- Exchanges the active matcher with the one beside it, going round. -/
def moveActive (b : Bar) (forward : Bool) : Bar × Bool :=
  let length := b.matchers.length
  match b.active with
  | none => (b, false)
  | some a =>
    if length ≤ 1 then (b, false)
    else
      match b.matchers[a]?, b.matchers[Cycle.go forward length a]? with
      | some m, some n => b.swap m.key n.key
      | _, _ => (b, false)

/-! ### The whole row -/

/-- Takes a row from outside, unless it is the echo of an edit under way. -/
def sync (b : Bar) (matchers : List Matcher) : Bar :=
  if b.echoDue then { b with echoDue := false }
  else
    let b : Bar := { b with matchers }
    let b := if b.active.any (matchers.length ≤ ·) then b.openTrailing else b
    b.flagBrackets.placeBox

/-- Hands out the row, unless the active function finds something missing. -/
def complete (b : Bar) : Bar × Except Refusal Completion :=
  match b.function.bind fun f => Row.refusal? f b.matchers with
  | some refusal => (b, .error refusal)
  | none =>
    let emptied : Bar :=
      { b with matchers := [], function := none, hasFocus := false }.openTrailing
    ({ emptied with box := emptied.box.reset }.rowChanged,
      .ok ⟨b.matchers, b.function.map (·.name)⟩)

end Bar

end QueryBar
