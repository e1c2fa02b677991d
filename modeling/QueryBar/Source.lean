/-
Sources and the lookups behind them.

A source is a named category of values.  Each of its definitions is a lookup of one of
two kinds.  A list lookup offers the items that contain what was typed; its items are
known beforehand or come from a service, which answers later.  A test lookup tests what
was typed and makes at most one value of it.

A query function is a named template: while it is active only the sources it requires or
permits are offered, and it can forbid operators and brackets or allow free text.
-/
import QueryBar.Item
import QueryBar.Matcher
import QueryBar.Pattern
import QueryBar.Text.Search

namespace QueryBar

/-- What a service is asked. -/
structure Question where
  text : String
  operator : Option Operator
  matchers : List Matcher

/-- A list that answers later: the items it finds, and how many milliseconds it takes. -/
structure Service where
  answer : Question → List Item
  wait : Question → Nat

/-- Where the items of a list come from. -/
inductive Supply
  | items (items : List Item)
  | service (service : Service)

/-! ### List lookups -/

/-- A list that is searched for what was typed. -/
structure ListLookup where
  supply : Supply
  /-- The text of a record. -/
  textGetter : Option (Json → String) := none
  /-- The value of a record. -/
  valueGetter : Option (Json → Value) := none
  ignoreCase : Bool := false
  itemLimit : Option Nat := none
  startLength : Option Nat := none

namespace ListLookup

/-- How many suggestions the list contributes at most. -/
def limit (l : ListLookup) (standard : Nat) : Nat := l.itemLimit.getD standard

/-- How many characters have to be typed before the list is searched. -/
def minLength (l : ListLookup) : Nat := l.startLength.getD 0

def textOf (l : ListLookup) (item : Item) : String :=
  match item, l.textGetter with
  | .record j, some getter => getter j
  | item, _ => item.plainText

def valueOf (l : ListLookup) (item : Item) : Value :=
  match item, l.valueGetter with
  | .record j, some getter => getter j
  | item, _ => item.plainValue

def accepts (l : ListLookup) (search : String) (item : Item) : Bool :=
  Text.contains l.ignoreCase (l.textOf item) search

end ListLookup

/-! ### Test lookups -/

/-- How what was typed is tested. -/
inductive TextTest
  | pattern (p : Pattern)
  | predicate (holds : String → Bool)

/-- A test, and the value of a text that passes it. -/
structure TestLookup where
  test : TextTest
  derived : String → Value

namespace TestLookup

def isPattern (t : TestLookup) : Bool :=
  match t.test with
  | .pattern _ => true
  | .predicate _ => false

def accepts (t : TestLookup) (search : String) : Bool :=
  match t.test with
  | .pattern p => p.matchesIn search
  | .predicate holds => holds search

end TestLookup

/-- One lookup of a source. -/
inductive Definition
  | list (l : ListLookup)
  | test (t : TestLookup)

/-! ### Query functions -/

/-- A named template for a query. -/
structure QueryFunction where
  name : String
  required : List String := []
  optional : List String := []
  noOperators : Bool := false
  noBrackets : Bool := false
  allowFreeText : Bool := false
  /-- A last check of a whole row: the objection to it, if there is one. -/
  validator : Option (List Matcher → Option String) := none

namespace QueryFunction

def permits (f : QueryFunction) (source : String) : Bool :=
  (f.required ++ f.optional).contains source

/-- What the function's own check objects to. -/
def objection? (f : QueryFunction) (matchers : List Matcher) : Option String :=
  f.validator.bind fun check => check matchers

end QueryFunction

/-! ### Sources -/

/-- A named category of values. -/
structure Source where
  name : String
  title : String
  comparisons : List String
  precedence : Option Int64 := none
  selectionLimit : Option Nat := none
  /-- The source is offered only under a function. -/
  functional : Bool := false
  definitions : List Definition := []

namespace Source

def allows (s : Source) (comparison : String) : Bool := s.comparisons.contains comparison

/-- A source without a precedence has precedence nought. -/
def rank (s : Source) : Int64 := s.precedence.getD 0

def isPatternBacked (s : Source) : Bool :=
  s.definitions.any fun
    | .test t => t.isPattern
    | .list _ => false

/-- Without a function the sources that need none are offered, under one those it permits. -/
def eligible (s : Source) (f : Option QueryFunction) : Bool :=
  match f with
  | none => !s.functional
  | some f => f.permits s.name

end Source

end QueryBar
