/-
Lookups that answer later, and which of their answers still count.

An edit box has a generation: a count that goes up whenever its text changes.  A request to
a service carries the count at the time it was made, its token, and is stale as soon as
the count has moved on.  Staleness is looked at three times: before the service is asked,
when it has answered, and when the answer is applied.  A count belongs to one owner; an
answer to a request of another owner never counts, whatever its token.
-/
import QueryBar.Source

namespace QueryBar

/-- A count of changes, and whose it is.  The count is a natural number and never comes round.  An
atomic counter of 64 bits agrees with it for the first `2^64 - 1` changes; at the next it wraps to
nought, and old tokens count once more. -/
structure Generation where
  owner : Nat
  current : Nat
  deriving DecidableEq

namespace Generation

/-- The count of an owner before any change. -/
def fresh (owner : Nat) : Generation := ⟨owner, 0⟩

/-- The count after a change; every token given out before is stale. -/
def advance (g : Generation) : Generation := { g with current := g.current + 1 }

end Generation

/-- A question to a service that has not been put to it yet. -/
structure LookupRequest where
  owner : Nat
  token : Nat
  source : String
  definition : Nat
  query : Question
  /-- Milliseconds to wait before the question is put. -/
  delay : Nat
  service : Service

/-- What a service answered, and to which request. -/
structure LookupAnswer where
  owner : Nat
  token : Nat
  source : String
  definition : Nat
  items : List Item

namespace LookupRequest

def isStale (r : LookupRequest) (g : Generation) : Bool := g.current != r.token

def answered (r : LookupRequest) : LookupAnswer :=
  ⟨r.owner, r.token, r.source, r.definition, r.service.answer r.query⟩

/-- The answer to a request that is run while nothing else happens; a stale one has none, and
its question is never put. -/
def run (r : LookupRequest) (g : Generation) : Option LookupAnswer :=
  if r.isStale g then none else some r.answered

end LookupRequest

/-- The answers to all requests that are run together, in their order. -/
def runTogether (g : Generation) (rs : List LookupRequest) : List LookupAnswer :=
  rs.filterMap (·.run g)

end QueryBar
