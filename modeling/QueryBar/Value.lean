/-
The values that terms and suggestions stand for.

A value is a number, a text or an instant.  Two values agree when they are numerically,
literally or momentarily the same; not-a-number agrees with nothing, so this is not
equality.
-/
import QueryBar.Calendar
import QueryBar.Json

namespace QueryBar

/-- What a term or a suggestion stands for. -/
inductive Value
  | number (x : Number)
  | text (s : String)
  | date (t : Instant)
  deriving DecidableEq

namespace Value

/-- The value of a term that stands for nothing. -/
def blank : Value := .text ""

instance : Inhabited Value := ⟨blank⟩

/-- The two values are the same number, text or instant. -/
def agrees : Value → Value → Bool
  | .number x, .number y => x.same y
  | .text s, .text t => s == t
  | .date s, .date t => s == t
  | _, _ => false

/-- The text of a value that is a text. -/
def asText? : Value → Option String
  | .text s => some s
  | _ => none

def isEmpty (v : Value) : Bool := v.asText? == some ""

def display : Value → String
  | .number x => x.display
  | .text s => s
  | .date t => t.display

/-- The value as JSON: a date becomes a text, and would be read back as one. -/
def toJson : Value → Json
  | .number x => .number x
  | .text s => .string s
  | .date t => .string t.jsonText

end Value

end QueryBar
