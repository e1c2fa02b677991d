/-
Typing and keys in a query bar.

Everything that is typed, and every key, goes to the open box first.  The bar then acts
on the notices the box gave, in order, and on the keys that the box left alone.  Which
matcher a notice is about is settled before the first of them is acted on.
-/
import QueryBar.Bar.Row
import QueryBar.Bar.Selection
import QueryBar.EditBox.Keys
import QueryBar.EditBox.Typing

namespace QueryBar

/-- What a key press does to a whole bar. -/
inductive KeyResponse
  | ignored
  /-- The open box took it. -/
  | edit (r : Reaction)
  /-- The bar took it. -/
  | handled
  | completed (c : Completion)
  | incomplete (r : Refusal)

namespace Bar

/-! ### Acting for the box -/

/-- What the open box reads of the bar.  A candidate that joins the row replaces nothing. -/
def surroundings (b : Bar) : Surroundings where
  config := b.config
  matchers := b.matchers
  function := b.function
  objection? m inserting :=
    (Row.objection? b.config m b.matchers (if inserting then none else b.active)).or
      (b.validator.bind fun check => check m)

/-- Tells the observer that a matcher is being edited. -/
def tellChanging (b : Bar) (key : String) : Bar :=
  let row := b.matchers.map fun m => if m.key = key then { m with changing := true } else m
  { b with echoDue := true }.tell row

/-- Acts on one notice of a box that edits the matcher with the key `edited`. -/
def heed (edited : Option String) (b : Bar) : Notice → Bar
  | .changed (some m) => if edited.isSome then (b.update m).1 else b.add m
  | .changed none =>
    match edited with
    | some key => (b.delete key).1
    | none => b
  | .consulted _ _ => b
  | .insert m => (b.insertBefore m edited).toOption.getD b
  | .editPrevious deleting =>
    match deleting, edited with
    | true, some key => (b.delete key).1
    | _, _ => b.editPrevious
  | .editNext => b.editNext
  | .focus => if edited.isNone then b.takeFocus else b
  | .cancel => b.openTrailing
  | .changing =>
    match edited with
    | some key => b.tellChanging key
    | none => b
  | .setFunction f => b.useFunction (some f)
  | .deleteFunction => b.useFunction none

/-- Takes over what a turn of the open box came to, and acts on its notices in order. -/
def takeTurn {α : Type} (b : Bar) (turn : Turn α) : Bar × α :=
  let edited := turn.box.matcher.map (·.key)
  (turn.notices.foldl (heed edited) { b with box := turn.box, keys := turn.keys }, turn.answer)

/-! ### Typing -/

def input (b : Bar) (text : String) : Bar × List LookupRequest :=
  b.takeTurn (b.box.typeText b.surroundings b.keys text)

/-- Picks an operator, a comparison or both for the open box. -/
def compose (b : Bar) (operator : Option Operator) (comparison : Option String) :
    Bar × List LookupRequest :=
  b.takeTurn (b.box.compose b.surroundings b.keys operator comparison)

/-- Commits what stands on a slot, as a click does. -/
def choose (b : Bar) (slot : Nat) (insert : Bool) : Bar × Reaction :=
  b.takeTurn (b.box.select b.surroundings b.keys slot insert)

def highlight (b : Bar) (slot : Nat) : Bar := { b with box := b.box.highlight slot }

def takeAnswer (b : Bar) (answer : LookupAnswer) : Bar × Bool :=
  let (box, changed) := b.box.takeAnswer b.config answer
  ({ b with box }, changed)

def focus (b : Bar) : Bar := (b.takeTurn (b.box.focus b.keys)).1

/-! ### Keys -/

/-- What the bar does with a key that the box left alone. -/
def command (b : Bar) (p : KeyPress) : Bar × KeyResponse :=
  let done (r : Bar × Bool) : Bar × KeyResponse := (r.1, if r.2 then .handled else .ignored)
  match p.key with
  | .arrowLeft =>
    if p.shift then (b.selectPrevious, .handled)
    else if p.ctrl then done (b.moveActive false)
    else (b, .ignored)
  | .arrowRight =>
    if p.shift then (b.selectNext, .handled)
    else if p.ctrl then done (b.moveActive true)
    else (b, .ignored)
  | .backspace =>
    if p.shift then (b.deleteLast, .handled)
    else if p.ctrl then (b.deleteAll, .handled)
    else (b, .ignored)
  | .enter =>
    match b.complete with
    | (b, .ok completion) => (b, .completed completion)
    | (b, .error refusal) => (b, .incomplete refusal)
  | .home => done b.toFirst
  | .finish => done b.toEnd
  | _ => (b, .ignored)

/-- Presses a key: the open box comes first, then the bar. -/
def key (b : Bar) (p : KeyPress) : Bar × KeyResponse :=
  let (b, result) := b.takeTurn (b.box.key b.surroundings b.keys p)
  if result = .ignored then b.command p else (b, .edit result)

end Bar

end QueryBar
