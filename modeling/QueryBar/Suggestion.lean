/-
What can be chosen.

A suggestion is a value with its text and the source it comes from.  Two suggestions
agree when their values do, whatever their texts.  Lists of suggestions hold each value
once: what comes first stays, and what agrees with something before it is left out.
-/
import QueryBar.Value

namespace QueryBar

/-- The source that suggestions of function names carry. -/
def functionSource : String := "__function__"

/-- Something that can be chosen. -/
structure Suggestion where
  source : String
  value : Value
  text : String
  deriving DecidableEq

namespace Suggestion

def ofFunction (name : String) : Suggestion := ⟨functionSource, .text name, name⟩

def isFunction (s : Suggestion) : Bool := s.source == functionSource

/-- The two suggestions stand for the same value. -/
def agrees (s t : Suggestion) : Bool := s.value.agrees t.value

/-- Adds a suggestion unless its value is there already. -/
def addDistinct (options : List Suggestion) (s : Suggestion) : List Suggestion :=
  if options.any (·.agrees s) then options else options ++ [s]

/-- The suggestions of both lists, each value once. -/
def joinDistinct (options more : List Suggestion) : List Suggestion :=
  more.foldl addDistinct options

end Suggestion

/-- Cuts a list down to a limit, if there is one. -/
def capped {α : Type} : Option Nat → List α → List α
  | none, options => options
  | some limit, options => options.take limit

end QueryBar
