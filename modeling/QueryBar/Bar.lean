/-
A query bar: a row of matchers and the one edit box that is open in it.

The bar owns the row, the active function and the open edit box, which is the trailing
one or edits the matcher at the active place.  Matchers are replaced, never changed.
After each change of the row its brackets are flagged anew, the open box is told its
place, and the observer is told the row.  What the observer has been told so far is part
of the bar, oldest first.

All boxes of a bar share one generation, which is handed on when a box is replaced.  A
lookup of a replaced box therefore stays stale for good.
-/
import QueryBar.EditBox
import QueryBar.Row.Brackets

namespace QueryBar

/-- A row of matchers with its open edit box. -/
structure Bar where
  config : Config
  keys : KeySupply
  matchers : List Matcher
  /-- The place of the matcher that is edited. -/
  active : Option Nat
  function : Option QueryFunction
  /-- The places of brackets without a partner. -/
  unbalanced : List Nat
  /-- The open edit box. -/
  box : EditBox
  hasFocus : Bool
  /-- The owner has been told of an edit and may echo the row back once. -/
  echoDue : Bool
  /-- The owner's own objection to candidates, after all others. -/
  validator : Option (Matcher → Option String)
  /-- What the observer has been told, oldest first. -/
  told : List (List Matcher)

namespace Bar

/-! ### Setting up -/

/-- A bar with nothing in it.  `owner` tells its lookups apart from those of other bars. -/
def new (config : Config) (owner : Nat) : Bar where
  config
  keys := .standard
  matchers := []
  active := none
  function := none
  unbalanced := []
  box := .trailing true true (config.allowsFreeText none) (.fresh owner)
  hasFocus := false
  echoDue := false
  validator := none
  told := []

def generation (b : Bar) : Generation := b.box.generation

/-! ### Reading a bar -/

def matcher? (b : Bar) (key : String) : Option Matcher := b.matchers.find? (·.key == key)

def placeOf? (b : Bar) (key : String) : Option Nat := b.matchers.findIdx? (·.key == key)

/-- A matcher shows no operator at the start of the row or of a group. -/
def isFirst (b : Bar) (place : Nat) : Bool :=
  place == 0 || b.matchers[place - 1]?.any (·.comparison == Bracket.opening.symbol)

def display (b : Bar) (place : Nat) : Option String :=
  b.matchers[place]?.map fun m => m.display (b.isFirst place) (b.config.mode == .simple)

/-- The row as it is copied out, after the name of the active function. -/
def toText (b : Bar) : String :=
  let row := String.intercalate " " (b.matchers.map Matcher.copyText)
  match b.function with
  | some f => f.name ++ " " ++ row
  | none => row

/-! ### Keeping everything in step with the row -/

/-- Functions are offered only while there is neither a matcher nor a function. -/
def offersFunctions (b : Bar) : Bool := b.matchers.isEmpty && b.function.isNone

/-- Free text is allowed by the configuration or by the active function. -/
def allowsFreeText (b : Bar) : Bool := b.config.allowsFreeText b.function

def placeBox (b : Bar) : Bar :=
  { b with
    box := match b.active with
      | none => b.box.place b.matchers.isEmpty b.offersFunctions b.allowsFreeText
      | some i => b.box.place (b.isFirst i) false b.allowsFreeText }

def flagBrackets (b : Bar) : Bar :=
  { b with unbalanced := Row.unbalanced (b.matchers.map (·.comparison)) }

def tell (b : Bar) (row : List Matcher) : Bar := { b with told := b.told ++ [row] }

/-- Everything that follows from a change of the row. -/
def rowChanged (b : Bar) : Bar :=
  let b := b.flagBrackets.placeBox
  b.tell b.matchers

/-- The bar with a row to start from; the observer knows it already. -/
def withMatchers (b : Bar) (matchers : List Matcher) : Bar :=
  { b with matchers }.flagBrackets.placeBox

def withKeys (b : Bar) (keys : KeySupply) : Bar := { b with keys }

/-- The bar with an objection to candidates that is looked at after all others. -/
def withValidator (b : Bar) (validator : Matcher → Option String) : Bar :=
  { b with validator := some validator }

def useFunction (b : Bar) (f : Option QueryFunction) : Bar := { b with function := f }.placeBox

/-! ### Opening boxes -/

/-- Opens a box for a place of the row, or the trailing box.  One that is open already stays. -/
def openAt (b : Bar) (place : Option Nat) : Bar :=
  let target := place.bind fun i => b.matchers[i]?.map fun m => (i, m)
  if target.map Prod.fst = b.active ∧
      target.map (·.2.key) = b.box.matcher.map (·.key) then b
  else
    let generation := b.generation.advance
    { b with
      active := target.map Prod.fst
      box := match target with
        | some (i, m) => .editing m (b.isFirst i) b.config.mode b.allowsFreeText generation
        | none => .trailing b.matchers.isEmpty b.offersFunctions b.allowsFreeText generation }

def openTrailing (b : Bar) : Bar := b.openAt none

/-- Takes the focus; a bar that did not have it starts at the trailing box. -/
def takeFocus (b : Bar) : Bar :=
  if b.hasFocus then b else { b.openTrailing with hasFocus := true }

/-- Gives the focus away: no matcher stays open and the box is emptied. -/
def blur (b : Bar) : Bar :=
  let b := { b with hasFocus := false }.openTrailing
  { b with box := b.box.reset }

end Bar

end QueryBar
