/-
Matchers as JSON.

A matcher travels as a JSON object of six members, when it is dragged as well as in
requests.  That it is being edited is not written.  A reader takes the six members in
any order and passes over others, or takes an array of the six in order; each member
has to be there once, and of the right kind.
-/
import QueryBar.Json.Reading
import QueryBar.Matcher

namespace QueryBar

open Json

namespace Operator

/-- An operator is the word for it, or an object whose only member has that name and is `null`. -/
def ofDraft : Draft → Except Fault Operator
  | .text (some s) => named s
  | .object ((some s, d) :: more) ending => do
    let operator ← named s
    match d with
    | .null => if more.isEmpty ∧ ending = .closed then .ok operator else .error .malformed
    | d => .error d.wrongKind
  | _ => .error .malformed
where
  /-- The operator with the given word or symbol. -/
  named (s : String) : Except Fault Operator :=
    match ofName? s with
    | some operator => .ok operator
    | Option.none => .error .mismatch

end Operator

namespace Value

/-- A value is any number or any text.  All of it is read before its kind is looked at; it
stands inside two further levels, or three in a request. -/
def ofDraft (room : Nat) (d : Draft) : Except Fault Value :=
  match d.json? room with
  | some (.integer i) => .ok (.number (.ofInt i))
  | some (.number x) => .ok (.number x)
  | some (.string s) => .ok (.text s)
  | some _ => .error .mismatch
  | none => .error .malformed

end Value

namespace Matcher

def toJson (m : Matcher) : Json :=
  .object [("key", .string m.key), ("operator", .string m.operator.name),
    ("comparison", .string m.comparison), ("source", .string m.source),
    ("value", m.value.toJson), ("text", .string m.text)]

/-- The members of a matcher that have been read so far. -/
structure Partial where
  key : Option String := none
  operator : Option Operator := none
  comparison : Option String := none
  source : Option String := none
  value : Option Value := none
  text : Option String := none

namespace Partial

def take (room : Nat) (p : Partial) (name : String) (d : Draft) : Except Fault Partial :=
  match name with
  | "key" => do return { p with key := ← Draft.fill p.key Draft.asText d }
  | "operator" => do return { p with operator := ← Draft.fill p.operator Operator.ofDraft d }
  | "comparison" => do return { p with comparison := ← Draft.fill p.comparison Draft.asText d }
  | "source" => do return { p with source := ← Draft.fill p.source Draft.asText d }
  | "value" => do return { p with value := ← Draft.fill p.value (Value.ofDraft room) d }
  | "text" => do return { p with text := ← Draft.fill p.text Draft.asText d }
  | _ => do d.skip; return p

/-- The matcher, once all six members are there. -/
def finish (p : Partial) : Except Fault Matcher := do
  return {
    key := ← Draft.filled p.key
    operator := ← Draft.filled p.operator
    comparison := ← Draft.filled p.comparison
    source := ← Draft.filled p.source
    value := ← Draft.filled p.value
    text := ← Draft.filled p.text }

end Partial

/-- Reads a matcher that stands at a place where values may be nested to a depth below `room`. -/
def ofDraft (room : Nat) : Draft → Except Fault Matcher
  | .object members ending => do
    (← Draft.foldMembers (Partial.take (room - 1)) ending {} members).finish
  | .array items ending => do
    let (key, items) ← Draft.nextField Draft.asText none ending items
    let (operator, items) ← Draft.nextField Operator.ofDraft none ending items
    let (comparison, items) ← Draft.nextField Draft.asText none ending items
    let (source, items) ← Draft.nextField Draft.asText none ending items
    let (value, items) ← Draft.nextField (Value.ofDraft (room - 1)) none ending items
    let (text, items) ← Draft.nextField Draft.asText none ending items
    Draft.noMoreFields ending items
    return { key, operator, comparison, source, value, text }
  | d => .error d.wrongKind

def payload (m : Matcher) : String := m.toJson.compact

/-- Reads a dragged matcher back; nothing may follow it. -/
def ofPayload? (data : String) : Option Matcher :=
  match Draft.ofLexemes (Lexeme.scan data.toList) with
  | (d, []) => (ofDraft Draft.nestingRoom d).toOption
  | _ => none

end Matcher

end QueryBar
