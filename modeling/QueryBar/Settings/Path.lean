/-
Paths into settings.

A member of a settings file, or a variable, may be named by a path: `sources[0].name` is
the name of the first source.  A path is a word and then steps, each to a member after a
point or to an item in brackets.  Items are counted from nought, and below nought from
the end, so `[-1]` is the last one.

Setting a value at a path always succeeds.  What is missing on the way comes to be, and
what is no object or array there gives way to one.  Only an object that is set does not
take the place of another: its members are set in it one by one.
-/
import QueryBar.Json
import QueryBar.Number.Decimal

namespace QueryBar.Settings

open Json

/-- A step from a value to a part of it. -/
inductive Step
  | member (name : String)
  /-- An item counted from nought, or from the end if the place is below nought. -/
  | item (place : Int)
  deriving DecidableEq

/-! ### Spelling -/

/-- The character may stand in a word of a path. -/
def isWordChar (c : Char) : Bool := c.isAlphanum || c == '_' || c == '-'

/-- The character may stand around the number of an item. -/
def isGap (c : Char) : Bool := c == ' ' || c == '\t'

/-- The place of an item up to the closing bracket, and the rest. -/
def bracketed? (cs : List Char) : Option (Int × List Char) :=
  let cs := cs.dropWhile isGap
  let (negative, cs) := match cs with
    | '-' :: cs => (true, cs)
    | cs => (false, cs)
  match cs.takeWhile Char.isDigit, (cs.dropWhile Char.isDigit).dropWhile isGap with
  | d :: ds, ']' :: rest =>
    let n : Int := digitsValue (d :: ds)
    let place := if negative then -n else n
    if FitsSigned place then some (place, rest) else none
  | _, _ => none

def steps? : Nat → List Char → Option (List Step)
  | _, [] => some []
  | 0, _ => none
  | fuel + 1, '.' :: cs =>
    match cs.takeWhile isWordChar, cs.dropWhile isWordChar with
    | [], _ => none
    | word, rest => (steps? fuel rest).map (.member (String.ofList word) :: ·)
  | fuel + 1, '[' :: cs =>
    match bracketed? cs with
    | some (place, rest) => (steps? fuel rest).map (.item place :: ·)
    | none => none
  | _, _ => none

/-- The path with a name; a name that spells no path is the only step itself. -/
def pathOfName (name : String) : List Step :=
  (steps? (name.length + 1) ('.' :: name.toList)).getD [.member name]

/-! ### Setting -/

/-- Changes the member with a name; a missing member is `null` before the change. -/
def alterMember (name : String) (f : Json → Json) :
    List (String × Json) → List (String × Json)
  | [] => [(name, f .null)]
  | (other, j) :: ms =>
    if other = name then (name, f j) :: ms else (other, j) :: alterMember name f ms

/-- Changes the item at a place; missing items are `null` before the change. -/
def alterItem (place : Int) (f : Json → Json) (items : List Json) : List Json :=
  match place with
  | .ofNat i => (items ++ List.replicate (i + 1 - items.length) Json.null).modify i f
  | .negSucc i =>
    if i < items.length then items.modify (items.length - 1 - i) f
    else f .null :: List.replicate (i - items.length) Json.null ++ items

/-- Changes the part of a value to which a step leads. -/
def Step.alter (f : Json → Json) : Step → Json → Json
  | .member name, .object members => .object (alterMember name f members)
  | .member name, _ => .object (alterMember name f [])
  | .item place, .array items => .array (alterItem place f items)
  | .item place, _ => .array (alterItem place f [])

/-- Changes the part of a value to which a path leads. -/
def alterAt (path : List Step) (f : Json → Json) : Json → Json :=
  path.foldr (fun step g => step.alter g) f

mutual

def setOver : Json → Json → Json
  | .object members, .null => setMembers members (.object [])
  | .object members, there => setMembers members there
  | j, _ => j

def setMembers : List (String × Json) → Json → Json
  | [], there => there
  | (name, j) :: ms, there => setMembers ms ((Step.member name).alter (setOver j) there)

end

def setAt (path : List Step) (j : Json) : Json → Json := alterAt path (setOver j)

end QueryBar.Settings
