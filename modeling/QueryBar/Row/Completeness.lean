/-
Whether a row is complete.

While a function is active, a row can be handed out only if it names every source that the
function requires and passes the function's own check.  `refusal?` says what is missing
or what the check objects to.
-/
import QueryBar.Source

namespace QueryBar

/-- Why a row of matchers is not complete under a function. -/
inductive RefusalCause
  /-- No matcher names these required sources. -/
  | missing (sources : List String)
  /-- The function's own check objects. -/
  | objection (message : String)
  deriving DecidableEq

/-- A row that could not be completed, and the function it was to be completed under. -/
structure Refusal where
  function : String
  cause : RefusalCause
  deriving DecidableEq

namespace Refusal

/-- The required sources that no matcher names. -/
def missing (r : Refusal) : List String :=
  match r.cause with
  | .missing sources => sources
  | .objection _ => []

def text (r : Refusal) : String :=
  match r.cause with
  | .missing sources => "mandatory fields are missing (" ++ String.intercalate ", " sources ++ ")"
  | .objection message => message

/-- What is wrong with the row, and under which function. -/
def message (r : Refusal) : String := r.function ++ ": " ++ r.text

end Refusal

namespace Row

/-- The required sources that no matcher of the row names. -/
def missingSources (f : QueryFunction) (row : List Matcher) : List String :=
  f.required.filter fun name => !row.any (·.source == name)

/-- Why the row is not complete under a function: required sources come first, then the
function's own check. -/
def refusal? (f : QueryFunction) (row : List Matcher) : Option Refusal :=
  let missing := missingSources f row
  if missing.isEmpty then (f.objection? row).map fun message => ⟨f.name, .objection message⟩
  else some ⟨f.name, .missing missing⟩

end Row

end QueryBar
