/-
Lookups over time.

A timeline holds the requests that have been submitted and what has come of them by now.
Each request first waits out its delay.  If it is still current then, its question is put
to the service, which takes its own time, and if it is still current after that the
answer arrives.  `advance` lets time pass: what falls due happens in order of time, and
of what falls due together, what was submitted first.  What falls due at the very moment
at which the passing ends has not happened yet.  The generation only moves when something
is typed, so it is the same while time passes.
-/
import QueryBar.Lookup

namespace QueryBar

/-- A submitted request: when something happens with it next, and whether it has been put to
the service already. -/
structure Flight where
  request : LookupRequest
  due : Nat
  asked : Bool

/-- The requests that are under way at a moment, and what has come of others. -/
structure Timeline where
  now : Nat := 0
  /-- Under way, in the order of their submission. -/
  flights : List Flight := []
  /-- Answers that have arrived and have not been received, oldest first. -/
  arrived : List LookupAnswer := []
  /-- The questions put to services, oldest first. -/
  calls : List Question := []

namespace Timeline

/-- Takes up requests; each starts to wait now. -/
def takeUp (t : Timeline) (rs : List LookupRequest) : Timeline :=
  { t with flights := t.flights ++ rs.map fun r => ⟨r, t.now + r.delay, false⟩ }

/-- The place of the flight that falls due first, with its time. -/
def earliest : List Flight → Option (Nat × Flight)
  | [] => none
  | f :: fs =>
    match earliest fs with
    | none => some (0, f)
    | some (i, g) => if f.due ≤ g.due then some (0, f) else some (i + 1, g)

/-- Lets the flight at a place do what it is due to do. -/
def happen (t : Timeline) (g : Generation) (place : Nat) (f : Flight) : Timeline :=
  let r := f.request
  if r.isStale g then { t with flights := t.flights.eraseIdx place }
  else if f.asked then
    { t with flights := t.flights.eraseIdx place, arrived := t.arrived ++ [r.answered] }
  else
    { t with
      flights := t.flights.set place ⟨r, f.due + r.service.wait r.query, true⟩
      calls := t.calls ++ [r.query] }

/-- Lets up to `fuel` things happen that fall due before a moment, or whatever falls due at all. -/
def happenUntil (g : Generation) (limit : Option Nat) : Nat → Timeline → Timeline
  | 0, t => t
  | fuel + 1, t =>
    match earliest t.flights with
    | none => t
    | some (place, f) =>
      if limit.all (f.due < ·) then happenUntil g limit fuel (t.happen g place f) else t

/-- Two things happen to each flight at most. -/
def pendingSteps (t : Timeline) : Nat := 2 * t.flights.length

/-- Lets some milliseconds pass. -/
def advance (t : Timeline) (g : Generation) (millis : Nat) : Timeline :=
  { happenUntil g (some (t.now + millis)) t.pendingSteps t with now := t.now + millis }

/-- Lets everything happen that is still under way. -/
def finish (t : Timeline) (g : Generation) : Timeline :=
  happenUntil g none t.pendingSteps t

/-- Hands over what has arrived. -/
def receive (t : Timeline) : List LookupAnswer × Timeline := (t.arrived, { t with arrived := [] })

/-- Lets the oldest of what has arrived go unused. -/
def discardOldest (t : Timeline) : Timeline := { t with arrived := t.arrived.drop 1 }

end Timeline

end QueryBar
