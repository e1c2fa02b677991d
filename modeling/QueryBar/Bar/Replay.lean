/-
Typing while lookups are under way.

A typist enters one text after the other and lets some time pass after each.  The lookups
of each text go onto a timeline, and at the end of a step the typist either takes in
everything that has arrived or glances at the oldest answer and throws it away.  After
the last step the typist waits for whatever is still to come.

The answers arrive over a channel whose receiving end may be gone.  Then lookups cannot
be submitted at all, which is an error as soon as there is one.
-/
import QueryBar.Bar.Keys
import QueryBar.Error
import QueryBar.Lookup.Timeline

namespace QueryBar

/-- One text that is typed, and what is done until the next. -/
structure TypingStep where
  text : String
  /-- Milliseconds that pass. -/
  pause : Nat
  /-- Everything that has arrived by then is taken in. -/
  takeIn : Bool

/-- What a step came to. -/
structure TypingReport where
  submitted : Nat
  error : Option BarError
  /-- What was taken in, and whether it changed the bar. -/
  received : List (LookupAnswer × Bool)
  buckets : Buckets

namespace Bar

/-- Applies answers one after the other, and says which of them changed the bar. -/
def takeAll (b : Bar) : List LookupAnswer → Bar × List (LookupAnswer × Bool)
  | [] => (b, [])
  | r :: rs =>
    let applied := b.takeAnswer r
    let rest := applied.1.takeAll rs
    (rest.1, (r, applied.2) :: rest.2)

/-- The error of submitting requests whose answers nobody would receive. -/
def submissionError : List LookupRequest → Option BarError
  | [] => none
  | r :: _ => some (.receiverGone r.source)

/-- Types one text and lets its pause pass. -/
def typeStep (b : Bar) (t : Timeline) (receiverGone : Bool) (s : TypingStep) :
    Bar × Timeline × TypingReport :=
  let (b, requests) := b.input s.text
  let t := if receiverGone then t else t.takeUp requests
  let t := t.advance b.generation s.pause
  let (arrived, t) := if s.takeIn then t.receive else ([], t.discardOldest)
  let (b, received) := b.takeAll arrived
  (b, t,
    { submitted := requests.length
      error := if receiverGone then submissionError requests else none
      received
      buckets := b.box.buckets })

def typeSteps (b : Bar) (t : Timeline) (receiverGone : Bool) :
    List TypingStep → Bar × Timeline × List TypingReport
  | [] => (b, t, [])
  | s :: ss =>
    let (b, t, report) := b.typeStep t receiverGone s
    let (b, t, reports) := b.typeSteps t receiverGone ss
    (b, t, report :: reports)

/-- Waits for everything that is still to come, and takes it in. -/
def waitForAll (b : Bar) (t : Timeline) :
    Bar × Timeline × List (LookupAnswer × Bool) :=
  let (arrived, t) := (t.finish b.generation).receive
  let (b, received) := b.takeAll arrived
  (b, t, received)

end Bar

end QueryBar
