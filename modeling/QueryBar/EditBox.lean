/-
A single edit box.

A box either edits a matcher or is the trailing one, which appends new ones.  Every
change of the text advances the box's generation and finds operator, comparison, search
text and suggestions anew.  A box does not own the row of matchers: what it wants done to
the row is written down as notices, in order, for the owner to act on, and whether a
candidate may be committed is asked of the owner on the spot.

Every operation that may want something of the owner is a function from a box to a
`Turn`: the box after it, the supply of keys after it, the notices it gave, and its
answer.
-/
import QueryBar.Keyboard
import QueryBar.Search

namespace QueryBar

/-- What a box lets its owner know. -/
inductive Notice
  /-- A matcher is confirmed, or the edited one is to go. -/
  | changed (m : Option Matcher)
  /-- The owner was asked about a candidate, which joins the row or replaces the edited matcher. -/
  | consulted (m : Matcher) (inserting : Bool)
  /-- A matcher is to go before the edited one, or to the end of the row. -/
  | insert (m : Matcher)
  | editPrevious (deleting : Bool)
  | editNext
  | focus
  | cancel
  /-- The text of the edited matcher has been touched; said once by a box. -/
  | changing
  | setFunction (f : QueryFunction)
  | deleteFunction

/-- Where a box stands. -/
inductive BoxState
  | idle
  | typing
  | optionsOpen
  | committed
  | cancelled
  deriving DecidableEq

/-- What a box reads of its surroundings. -/
structure Surroundings where
  config : Config
  matchers : List Matcher := []
  function : Option QueryFunction := none
  /-- The owner's objection to a candidate, which joins the row or replaces the edited matcher. -/
  objection? : Matcher → Bool → Option String := fun _ _ => none

/-- A single edit box. -/
structure EditBox where
  /-- The matcher that is edited; the trailing box has none. -/
  matcher : Option Matcher
  first : Bool
  allowFunctions : Bool
  allowFreeText : Bool
  text : String
  operator : Option Operator
  comparison : Option String
  /-- What is searched for; nothing before any text was taken apart. -/
  matchText : Option String
  generation : Generation
  buckets : Buckets
  highlighted : Option Nat
  error : Option String
  /-- The owner knows that the text of the edited matcher has been touched. -/
  touched : Bool
  /-- How the last key press ended, where that settles the state. -/
  outcome : Option BoxState

/-- What an operation comes to. -/
structure Turn (α : Type) where
  box : EditBox
  keys : KeySupply
  notices : List Notice
  answer : α

namespace EditBox

/-! ### Opening a box -/

def trailing (first allowFunctions allowFreeText : Bool) (generation : Generation) : EditBox where
  matcher := none
  first
  allowFunctions
  allowFreeText
  text := ""
  operator := none
  comparison := none
  matchText := none
  generation
  buckets := []
  highlighted := none
  error := none
  touched := false
  outcome := none

def prefillText (m : Matcher) (first : Bool) (mode : OperatorMode) : String :=
  (if first || mode == .simple || m.operator == .none then "" else m.operator.name ++ " ") ++
    m.comparison ++ m.text

def prefill (e : EditBox) (m : Matcher) (mode : OperatorMode) : EditBox :=
  { e with
    text := prefillText m e.first mode
    operator := some m.operator
    comparison := some m.comparison }

/-- A box that edits a matcher in its place. -/
def editing (m : Matcher) (first : Bool) (mode : OperatorMode) (allowFreeText : Bool)
    (generation : Generation) : EditBox :=
  { trailing first false allowFreeText generation with matcher := some m }.prefill m mode

/-! ### Reading a box -/

def isEditing (e : EditBox) : Bool := e.matcher.isSome

/-- How many slots there are to stop on. -/
def total (e : EditBox) : Nat := e.buckets.total

def highlightedSuggestion (e : EditBox) : Option Suggestion :=
  e.highlighted.bind e.buckets.get?

/-- Where the box stands: how the last key press ended, else what there is to see. -/
def state (e : EditBox) : BoxState :=
  match e.outcome with
  | some outcome => outcome
  | none =>
    if e.text.isEmpty then .idle else if e.buckets.isEmpty then .typing else .optionsOpen

/-! ### Changing what is shown -/

/-- Takes note of the box's place in a row that has changed; an error of another place is
forgotten. -/
def place (e : EditBox) (first allowFunctions allowFreeText : Bool) : EditBox :=
  { e with
    error := if first = e.first then e.error else none
    first, allowFunctions, allowFreeText }

def clearError (e : EditBox) : EditBox := { e with error := none }

/-- Highlights a slot, if there is one. -/
def highlight (e : EditBox) (slot : Nat) : EditBox :=
  if slot < e.total then { e with highlighted := some slot } else e

/-- Empties the box; lookups on their way no longer count. -/
def reset (e : EditBox) : EditBox :=
  { e with
    generation := e.generation.advance
    text := ""
    operator := none
    comparison := none
    matchText := none
    buckets := []
    highlighted := none }

/-- Shows the edited matcher as it was; lookups on their way no longer count. -/
def reopen (e : EditBox) (mode : OperatorMode) : EditBox :=
  let e : EditBox :=
    { e with
      generation := e.generation.advance
      buckets := []
      highlighted := none
      matchText := none }
  match e.matcher with
  | some m => e.prefill m mode
  | none => e

/-- Keeps the highlight on a slot that exists: on the first one if there was none, on the last
one if it stood behind it.  There is none without a text. -/
def settleHighlight (e : EditBox) : EditBox :=
  if e.text.isEmpty then { e with highlighted := none }
  else if e.total = 0 then e
  else
    match e.highlighted with
    | none => { e with highlighted := some 0 }
    | some slot =>
      if slot < e.total then e else { e with highlighted := some (e.total - 1) }

def focus (e : EditBox) (keys : KeySupply) : Turn Unit := ⟨e, keys, [.focus], ()⟩

end EditBox

end QueryBar
