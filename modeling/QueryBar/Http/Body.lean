/-
What the bodies of requests ask for.

A body is a record: an object whose members come in any order, or an array of the fields
in order.  Fields that need not be there have a default.
-/
import QueryBar.Matcher.Payload

namespace QueryBar.Http

open Json

/-! ### Suggestions -/

/-- What suggestions are asked for. -/
structure OfferRequest where
  text : String
  matchers : List Matcher
  function : Option String
  allowFunctions : Bool

namespace OfferRequest

/-- The members that have been read so far. -/
structure Partial where
  text : Option String := none
  matchers : Option (List Matcher) := none
  function : Option (Option String) := none
  allowFunctions : Option Bool := none

def row : Draft → Except Fault (List Matcher) :=
  Draft.asList (Matcher.ofDraft (Draft.nestingRoom - 2))

def Partial.take (p : Partial) (name : String) (d : Draft) : Except Fault Partial :=
  match name with
  | "text" => do return { p with text := ← Draft.fill p.text Draft.asText d }
  | "matchers" => do return { p with matchers := ← Draft.fill p.matchers row d }
  | "function" => do
    return { p with function := ← Draft.fill p.function (Draft.asOption Draft.asText) d }
  | "allow_functions" => do
    return { p with allowFunctions := ← Draft.fill p.allowFunctions Draft.asBool d }
  | _ => do d.skip; return p

/-- Reads a request; all but the text may be missing. -/
def ofDraft : Draft → Except Fault OfferRequest
  | .object members ending => do
    let p ← Draft.foldMembers Partial.take ending {} members
    let text ← Draft.filled p.text
    return ⟨text, p.matchers.getD [], p.function.join, p.allowFunctions.getD false⟩
  | .array items ending => do
    let (text, items) ← Draft.nextField Draft.asText none ending items
    let (matchers, items) ← Draft.nextField row (some []) ending items
    let (function, items) ← Draft.nextField (Draft.asOption Draft.asText) (some none) ending items
    let (allowFunctions, items) ← Draft.nextField Draft.asBool (some false) ending items
    Draft.noMoreFields ending items
    return ⟨text, matchers, function, allowFunctions⟩
  | d => .error d.wrongKind

end OfferRequest

/-! ### Checks -/

/-- A candidate that is to be checked. -/
structure CheckRequest where
  candidate : Matcher
  matchers : List Matcher
  activeIndex : Option Nat

namespace CheckRequest

/-- The members that have been read so far. -/
structure Partial where
  candidate : Option Matcher := none
  matchers : Option (List Matcher) := none
  activeIndex : Option (Option Nat) := none

def matcher : Draft → Except Fault Matcher := Matcher.ofDraft (Draft.nestingRoom - 1)

def Partial.take (p : Partial) (name : String) (d : Draft) : Except Fault Partial :=
  match name with
  | "candidate" => do return { p with candidate := ← Draft.fill p.candidate matcher d }
  | "matchers" => do
    return { p with matchers := ← Draft.fill p.matchers OfferRequest.row d }
  | "active_index" => do
    return { p with activeIndex := ← Draft.fill p.activeIndex (Draft.asOption Draft.asNat) d }
  | _ => do d.skip; return p

/-- Reads a request; all but the candidate may be missing. -/
def ofDraft : Draft → Except Fault CheckRequest
  | .object members ending => do
    let p ← Draft.foldMembers Partial.take ending {} members
    let candidate ← Draft.filled p.candidate
    return ⟨candidate, p.matchers.getD [], p.activeIndex.join⟩
  | .array items ending => do
    let (candidate, items) ← Draft.nextField matcher none ending items
    let (matchers, items) ← Draft.nextField OfferRequest.row (some []) ending items
    let (activeIndex, items) ← Draft.nextField (Draft.asOption Draft.asNat) (some none) ending items
    Draft.noMoreFields ending items
    return ⟨candidate, matchers, activeIndex⟩
  | d => .error d.wrongKind

end CheckRequest

/-! ### Brackets -/

/-- Takes in one member of a list of comparisons. -/
def takeComparisons (p : Option (List String)) (name : String) (d : Draft) :
    Except Fault (Option (List String)) :=
  match name with
  | "comparisons" => Draft.fill p (Draft.asList Draft.asText) d
  | _ => do d.skip; return p

/-- Reads the comparisons to be scanned for brackets. -/
def comparisonsOfDraft : Draft → Except Fault (List String)
  | .object members ending => do
    Draft.filled (← Draft.foldMembers takeComparisons ending none members)
  | .array items ending => do
    let (comparisons, items) ← Draft.nextField (Draft.asList Draft.asText) none ending items
    Draft.noMoreFields ending items
    return comparisons
  | d => .error d.wrongKind

end QueryBar.Http
