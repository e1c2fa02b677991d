/-
A bar under observation.

What a bar has handed out, and what was typed last, cannot be read off the bar alone.  A
`Watch` goes along with a bar and takes note of its history: all requests handed out so
far, the search that the last text called for, the requests that it gave back, and the
answers to them that have been delivered since.  The bar itself takes no notice of any of
this.

Of the search that was called for last nothing is left once the box searches for nothing.
That is how a box is that has been reset, that shows its matcher again, or that has been
opened in the place of another (`EditBox.Ends`).

`Reachable` is any run: operations of the bar in any order, and in between, at any time and
any number of times, answers to requests that this bar or another has handed out.
-/
import QueryBar.Bar.Operation
import QueryBar.Proofs.Bar.Typing

namespace QueryBar

/-- The answer is one to the request, whatever its items are. -/
def LookupAnswer.Answers (a : LookupAnswer) (r : LookupRequest) : Prop :=
  a.owner = r.owner ∧ a.token = r.token ∧ a.source = r.source ∧ a.definition = r.definition

instance (a : LookupAnswer) (r : LookupRequest) : Decidable (a.Answers r) :=
  inferInstanceAs (Decidable (_ ∧ _ ∧ _ ∧ _))

/-- The requests that an operation handed out. -/
def Reply.handedOut : Reply → List LookupRequest
  | .requests rs => rs
  | _ => []

/-- A bar, and what has been seen of it. -/
structure Watch where
  bar : Bar
  /-- All requests that the bar has handed out. -/
  handedOut : List LookupRequest
  /-- The search that the last text called for, if it called for one. -/
  asked : Option Inquiry
  /-- The requests that the last text gave back. -/
  given : List LookupRequest
  /-- The answers to these requests that have been delivered in time. -/
  landed : List LookupAnswer

namespace Watch

def start (config : Config) (owner : Nat) : Watch := ⟨.new config owner, [], none, [], []⟩

/-- A bar of which nothing has been seen yet. -/
def on (b : Bar) : Watch := ⟨b, [], none, [], []⟩

/-- The search that was called for last, as long as the box searches for something. -/
def inquiry (w : Watch) : Option Inquiry :=
  if w.bar.box.matchText.isSome then w.asked else none

/-- The requests whose answers still count: those that the last text gave back, as long as the box
searches for something. -/
def live (w : Watch) : List LookupRequest :=
  if w.bar.box.matchText.isSome then w.given else []

/-- What that search found, with the delivered answers put in; nothing if there is none. -/
def buckets (w : Watch) : Buckets :=
  match w.inquiry with
  | some q => q.findings.buckets.withAnswers q.context.config w.landed
  | none => []

/-- Takes note that a text has been typed. -/
def typed (w : Watch) (text : String) : Watch :=
  { bar := (w.bar.input text).1
    handedOut := w.handedOut ++ (w.bar.input text).2
    asked := w.bar.inquiry? text
    given := (w.bar.input text).2
    landed := [] }

/-- Takes note that an answer has been delivered. -/
def delivered (w : Watch) (a : LookupAnswer) : Watch :=
  { w with
    bar := (w.bar.takeAnswer a).1
    landed := if w.live.any (a.Answers ·) then w.landed ++ [a] else w.landed }

/-- Takes note of one operation. -/
def step (w : Watch) : Operation → Watch
  | .input text => w.typed text
  | .compose operator comparison => w.typed (w.bar.box.composedText operator comparison)
  | .takeAnswer a => w.delivered a
  | operation => { w with bar := (w.bar.perform operation).1 }

/-- The bar that is watched is the one that the operations are performed on. -/
theorem bar_step (w : Watch) (operation : Operation) :
    (w.step operation).bar = (w.bar.perform operation).1 := by
  cases operation <;> rfl

/-- All requests that the operations gave back are noted. -/
theorem handedOut_step (w : Watch) (operation : Operation) :
    (w.step operation).handedOut = w.handedOut ++ (w.bar.perform operation).2.handedOut := by
  cases operation with
  | input text => rfl
  | compose operator comparison => rfl
  | insertBefore m anchor =>
      have hnone : (w.bar.perform (.insertBefore m anchor)).2.handedOut = [] := by
        unfold Bar.perform
        dsimp only
        split <;> rfl
      rw [hnone, List.append_nil]
      rfl
  | _ => exact (List.append_nil _).symm

/-- The request is one that the watched bar has handed out, or one of another bar. -/
def Knows (w : Watch) (r : LookupRequest) : Prop :=
  r ∈ w.handedOut ∨ r.owner ≠ w.bar.generation.owner

/-- Answers are delivered to requests that have been handed out; everything else is possible at
any time. -/
def Admits (w : Watch) : Operation → Prop
  | .takeAnswer a => ∃ r, a.Answers r ∧ w.Knows r
  | _ => True

/-- The bar is set up further, which leaves its open box to itself. -/
inductive Equips (b : Bar) : Bar → Prop
  | matchers (ms : List Matcher) : Equips b (b.withMatchers ms)
  | keys (keys : KeySupply) : Equips b (b.withKeys keys)
  | validator (check : Matcher → Option String) : Equips b (b.withValidator check)

/-- What can be seen of a bar after any run of it. -/
inductive Reachable : Watch → Prop
  | start (config : Config) (owner : Nat) : Reachable (start config owner)
  | equip {w : Watch} {b : Bar} (h : Reachable w) (hb : Equips w.bar b) :
      Reachable { w with bar := b }
  | step {w : Watch} (h : Reachable w) (operation : Operation) (hadmits : w.Admits operation) :
      Reachable (w.step operation)

/-! ### Along a history -/

/-- What is true at first, and after each operation of a history. -/
def Throughout (P : Watch → Prop) (w : Watch) : List Operation → Prop
  | [] => P w
  | operation :: rest => P w ∧ Throughout P (w.step operation) rest

/-- What is true of each operation of a history, when it is carried out. -/
def AtEach (P : Watch → Operation → Prop) (w : Watch) : List Operation → Prop
  | [] => True
  | operation :: rest => P w operation ∧ AtEach P (w.step operation) rest

instance decidableAtEach {P : Watch → Operation → Prop} [∀ w operation, Decidable (P w operation)]
    (w : Watch) : (history : List Operation) → Decidable (w.AtEach P history)
  | [] => isTrue trivial
  | operation :: rest =>
      have : Decidable (AtEach P (w.step operation) rest) := decidableAtEach (w.step operation) rest
      inferInstanceAs (Decidable (P w operation ∧ _))

variable {P : Watch → Prop} {w : Watch} {history : List Operation}

theorem Throughout.head (h : w.Throughout P history) : P w := by
  cases history with
  | nil => exact h
  | cons operation rest => exact h.1

end Watch

end QueryBar
