/-
Reading a draft with a type in mind.

A reader asks for a value of a certain shape and walks the draft from left to right until
the first fault.  Either the text is torn there, or what stands there is of another kind
than was asked for.  Records may be objects, whose members come in any order, or arrays
of the fields in order.
-/
import QueryBar.Json.Draft

namespace QueryBar.Json

/-! ### Faults -/

/-- Why a text does not give a value of the type that was asked for. -/
inductive Fault
  /-- The text is not JSON. -/
  | malformed
  /-- The text is JSON, but of another shape. -/
  | mismatch
  deriving DecidableEq

namespace Draft

/-- The fault of a draft that is of the wrong kind: a damaged scalar counts as damage first. -/
def wrongKind : Draft → Fault
  | .torn => .malformed
  | .text none => .malformed
  | .numeral n => if n.value?.isNone then .malformed else .mismatch
  | _ => .mismatch

/-! ### Scalars and lists -/

def asText : Draft → Except Fault String
  | .text (some s) => .ok s
  | d => .error d.wrongKind

def asBool : Draft → Except Fault Bool
  | .bool b => .ok b
  | d => .error d.wrongKind

/-- A natural number below `2 ^ 64`. -/
def asNat : Draft → Except Fault Nat
  | .numeral n =>
    match n.value? with
    | none => .error .malformed
    | some (.integer (.ofNat i)) => .ok i
    | some _ => .error .mismatch
  | d => .error d.wrongKind

/-- `null` or something else. -/
def asOption {α : Type} (f : Draft → Except Fault α) : Draft → Except Fault (Option α)
  | .null => .ok none
  | d => (f d).map some

/-- The items of an array, one after the other. -/
def asList {α : Type} (f : Draft → Except Fault α) : Draft → Except Fault (List α)
  | .array items ending => do
    let values ← items.mapM f
    if ending = .closed then .ok values else .error .malformed
  | d => .error d.wrongKind

/-! ### Records -/

/-- Passes over a value that nobody asked for. -/
def skip (d : Draft) : Except Fault Unit :=
  if d.isWhole then .ok () else .error .malformed

/-- The members of an object, one after the other, from the left. -/
def foldMembers {σ : Type} (step : σ → String → Draft → Except Fault σ) (ending : Ending) :
    σ → List (Option String × Draft) → Except Fault σ
  | s, [] => if ending = .closed then .ok s else .error .malformed
  | s, (some name, d) :: ms => do foldMembers step ending (← step s name d) ms
  | _, (none, _) :: _ => .error .malformed

/-- Fills a field that is still empty; a field that is named twice is no fault of the text. -/
def fill {α : Type} (field : Option α) (f : Draft → Except Fault α) (d : Draft) :
    Except Fault (Option α) :=
  match field with
  | some _ => .error .mismatch
  | none => (f d).map some

/-- A field that must have been filled. -/
def filled {α : Type} : Option α → Except Fault α
  | some a => .ok a
  | none => .error .mismatch

/-- The next item of an array that holds a record's fields in order, and the items after it;
with `missing`, the field may be left out together with all after it. -/
def nextField {α : Type} (f : Draft → Except Fault α) (missing : Option α) (ending : Ending) :
    List Draft → Except Fault (α × List Draft)
  | d :: ds => do .ok (← f d, ds)
  | [] =>
    if ending = .closed then
      match missing with
      | some a => .ok (a, [])
      | none => .error .mismatch
    else .error .malformed

/-- Nothing may follow the last field of a record. -/
def noMoreFields (ending : Ending) (items : List Draft) : Except Fault Unit :=
  if items.isEmpty ∧ ending = .closed then .ok () else .error .malformed

end Draft

end QueryBar.Json
