/-
Keys, and what pressing one comes to.
-/

namespace QueryBar

/-- The keys that mean something to a query bar. -/
inductive Key
  | arrowLeft
  | arrowRight
  | arrowUp
  | arrowDown
  | pageUp
  | pageDown
  | home
  | finish
  | enter
  | tab
  | backspace
  | escape
  deriving DecidableEq

/-- A key press, and where the caret stood in characters. -/
structure KeyPress where
  key : Key
  shift : Bool := false
  ctrl : Bool := false
  cursor : Nat := 0
  deriving DecidableEq

def KeyPress.plain (p : KeyPress) : Bool := !p.shift && !p.ctrl

/-- What a key press comes to in an edit box.  What is ignored is left to the owner. -/
inductive Reaction
  | ignored
  | handled
  | committed
  | cancelled
  deriving DecidableEq

end QueryBar
