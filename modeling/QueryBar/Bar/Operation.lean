/-
Everything that can be done to a query bar.

`Bar.perform` carries out one operation and gives the answer to it.  A history of a bar
is a list of operations, and `Bar.run` goes through one; what holds in every reachable
state is a statement about `run`.
-/
import QueryBar.Bar.Drag
import QueryBar.Bar.Keys

namespace QueryBar

/-- One thing that is done to a bar. -/
inductive Operation
  | input (text : String)
  | compose (operator : Option Operator) (comparison : Option String)
  | key (press : KeyPress)
  | choose (slot : Nat) (insert : Bool)
  | highlight (slot : Nat)
  | takeAnswer (answer : LookupAnswer)
  | focus
  | blur
  | add (m : Matcher)
  | update (m : Matcher)
  | delete (key : String)
  | deleteLast
  | deleteAll
  | insertBefore (m : Matcher) (anchor : Option String)
  | swap (key other : String)
  | moveActive (forward : Bool)
  | select (place : Nat)
  | selectPrevious
  | selectNext
  | editPrevious
  | editNext
  | toFirst
  | toEnd
  | sync (matchers : List Matcher)
  | complete
  | drop (target type data : String)

/-- The answer to an operation. -/
inductive Reply
  | nothing
  | flag (b : Bool)
  | requests (rs : List LookupRequest)
  | chosen (r : Reaction)
  | pressed (r : KeyResponse)
  | completion (r : Except Refusal Completion)
  | failure (e : BarError)

namespace Bar

def perform (b : Bar) : Operation → Bar × Reply
  | .input text => (b.input text).map id .requests
  | .compose operator comparison => (b.compose operator comparison).map id .requests
  | .key press => (b.key press).map id .pressed
  | .choose slot insert => (b.choose slot insert).map id .chosen
  | .highlight slot => (b.highlight slot, .nothing)
  | .takeAnswer answer => (b.takeAnswer answer).map id .flag
  | .focus => (b.focus, .nothing)
  | .blur => (b.blur, .nothing)
  | .add m => (b.add m, .nothing)
  | .update m => (b.update m).map id .flag
  | .delete key => (b.delete key).map id .flag
  | .deleteLast => (b.deleteLast, .nothing)
  | .deleteAll => (b.deleteAll, .nothing)
  | .insertBefore m anchor =>
    match b.insertBefore m anchor with
    | .ok b => (b, .nothing)
    | .error e => (b, .failure e)
  | .swap key other => (b.swap key other).map id .flag
  | .moveActive forward => (b.moveActive forward).map id .flag
  | .select place => (b.select place, .nothing)
  | .selectPrevious => (b.selectPrevious, .nothing)
  | .selectNext => (b.selectNext, .nothing)
  | .editPrevious => (b.editPrevious, .nothing)
  | .editNext => (b.editNext, .nothing)
  | .toFirst => b.toFirst.map id .flag
  | .toEnd => b.toEnd.map id .flag
  | .sync matchers => (b.sync matchers, .nothing)
  | .complete => b.complete.map id .completion
  | .drop target type data => (b.drop target type data).map id .flag

def run (b : Bar) (history : List Operation) : Bar :=
  history.foldl (fun b operation => (b.perform operation).1) b

end Bar

end QueryBar
