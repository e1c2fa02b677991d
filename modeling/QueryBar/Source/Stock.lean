/-
Getters, tests, derivations and services that can be described rather than programmed.

Sources take functions for what varies between them.  Most need nothing special: the
text of a record is one of its members, a test asks whether what was typed is a number,
a service answers from a table.  These are the ones that have a name.
-/
import QueryBar.Source

namespace QueryBar.Stock

/-- The text of a member: of a text itself, of anything else its compact text. -/
def fieldText (name : String) (record : Json) : String :=
  match record.member? name with
  | none => ""
  | some (.string s) => s
  | some j => j.compact

/-- The value of a member: texts and numbers themselves, of anything else its compact text. -/
def fieldValue (name : String) (record : Json) : Value :=
  match record.member? name with
  | none => .blank
  | some (.string s) => .text s
  | some (.integer i) => .number (.ofInt i)
  | some (.number x) => .number x
  | some j => .text j.compact

/-- The date of a member that holds signed 64-bit milliseconds. -/
def fieldDate (name : String) (record : Json) : Value :=
  match record.member? name with
  | some (.integer i) =>
    if FitsSigned i then ((Instant.ofMillis? i).map Value.date).getD .blank else .blank
  | _ => .blank

/-! ### Tests -/

def isNumber (text : String) : Bool := (Number.ofText? text).isSome

def isInteger (text : String) : Bool := (int64OfText? text).isSome

def containing (part text : String) : Bool := Text.occursIn part.toList text.toList

def startingWith (part text : String) : Bool := part.toList.isPrefixOf text.toList

def hasAtLeast (least : Nat) (text : String) : Bool := least ≤ text.length

/-! ### Derivations -/

def upperCase (text : String) : Value := .text (String.ofList (Text.upper text.toList))

/-- The number the text is, and nought if it is none. -/
def parsedNumber (text : String) : Value :=
  .number ((Number.ofText? text).getD (.zero false))

def characterCount (text : String) : Value := .number (.ofInt text.length)

/-- The date that so many milliseconds make, and the text itself if they make none. -/
def parsedDate (text : String) : Value :=
  (((int64OfText? text).bind Instant.ofMillis?).map Value.date).getD (.text text)

/-! ### Services and checks -/

/-- Replaces every occurrence of a mark; `fuel` bounds the length of the text. -/
def replaceAll (mark put : List Char) : Nat → List Char → List Char
  | _, [] => []
  | 0, cs => cs
  | fuel + 1, c :: cs =>
    if mark.isPrefixOf (c :: cs) then put ++ replaceAll mark put fuel ((c :: cs).drop mark.length)
    else c :: replaceAll mark put fuel cs

/-- The text with a mark in it filled out. -/
def fillOut (text mark put : String) : String :=
  String.ofList (replaceAll mark.toList put.toList text.length text.toList)

/-- The item that repeats a query in words: its count of matchers, operator and text. -/
def echo (pattern : String) (q : Question) : Item :=
  let operator := match q.operator with
    | none => "none"
    | some operator => operator.name
  let counted := fillOut pattern "\x7bcount\x7d" (toString q.matchers.length)
  .text (fillOut (fillOut counted "\x7boperator\x7d" operator) "\x7btext\x7d" q.text)

/-- A service that answers from a table by the text of the query, else by repeating the query
if it has words for that, else always with the same items. -/
def tableService (answers : List (String × List Item)) (pattern : Option String)
    (otherwise : List Item) (waits : List (String × Nat)) (standardWait : Nat) : Service where
  answer q :=
    match answers.lookup q.text, pattern with
    | some items, _ => items
    | none, some pattern => [echo pattern q]
    | none, none => otherwise
  wait q := (waits.lookup q.text).getD standardWait

/-- A check that asks for a certain number of matchers. -/
def exactCount (n : Nat) (matchers : List Matcher) : Option String :=
  if matchers.length = n then none
  else some ("need " ++ toString n ++ " matchers, got " ++ toString matchers.length)

end QueryBar.Stock
