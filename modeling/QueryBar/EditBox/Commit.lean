/-
Committing what is in an edit box.

A choice becomes a matcher.  The box itself objects only to a comparison that the source
does not have; everything else is for the owner to object to.  An objection is shown and
nothing else changes, except that the key that was handed out for the candidate is not
handed out again.
-/
import QueryBar.EditBox
import QueryBar.Row.Objection

namespace QueryBar

/-- What there is to commit. -/
inductive Choice
  | suggestion (s : Suggestion)
  | bracket (b : Bracket)

/-- The objection to a choice's comparison that needs no owner. -/
def Choice.objection? (c : Config) (m : Matcher) : Choice → Option String
  | .bracket _ => none
  | .suggestion o =>
    match c.source? o.source with
    | some s =>
      if s.allows m.comparison then none
      else some (Row.illegalComparison m.comparison s.name)
    | none => none

namespace EditBox

/-- An opening bracket takes the typed operator, or `and`; a closing one takes none. -/
def operatorFor (e : EditBox) : Bracket → Operator
  | .closing => .none
  | .opening => e.operator.getD .and

/-- The key of the next matcher.  One that replaces the edited matcher takes its key over; any
other has a key of its own. -/
def takeKey (e : EditBox) (insert : Bool) (keys : KeySupply) : String × KeySupply :=
  match e.matcher, insert with
  | some m, false => (m.key, keys)
  | _, _ => (keys.next, keys.advance)

def candidate (e : EditBox) (c : Config) (key : String) : Choice → Matcher
  | .bracket b => .bracket key b (e.operatorFor b)
  | .suggestion o =>
    { key
      operator := e.operator.getD .and
      comparison := e.comparison.getD c.defaultComparison
      source := o.source
      value := o.value
      text := o.text }

/-- Commits a choice unless there is an objection, which is shown.  A choice that joins the row
leaves the box as it is, any other empties it. -/
def commit (e : EditBox) (around : Surroundings) (keys : KeySupply) (choice : Choice)
    (insert : Bool) : Turn Reaction :=
  let (key, keys) := e.takeKey insert keys
  let m := e.candidate around.config key choice
  match choice.objection? around.config m with
  | some objection => ⟨{ e with error := some objection }, keys, [], .handled⟩
  | none =>
    let consulted := Notice.consulted m insert
    match around.objection? m insert with
    | some objection => ⟨{ e with error := some objection }, keys, [consulted], .handled⟩
    | none =>
      if insert then ⟨e, keys, [consulted, .insert m], .committed⟩
      else ⟨e.reset, keys, [consulted, .changed (some m)], .committed⟩

/-- Takes a bracket that was typed.  A bracket other than the one that is edited goes before the
edited matcher, which is then shown as it was; any other bracket is committed. -/
def takeBracket (e : EditBox) (around : Surroundings) (keys : KeySupply) (b : Bracket) :
    Turn Reaction :=
  if e.matcher.any (·.comparison != b.symbol) then
    let m := Matcher.bracket keys.next b (e.operatorFor b)
    ⟨e.reopen around.config.mode, keys.advance, [.insert m], .committed⟩
  else e.commit around keys (.bracket b) false

/-- Commits what stands on a slot: a function becomes active, a suggestion becomes a matcher. -/
def select (e : EditBox) (around : Surroundings) (keys : KeySupply) (slot : Nat)
    (insert : Bool) : Turn Reaction :=
  match e.buckets.get? slot with
  | none => ⟨e, keys, [], .ignored⟩
  | some option =>
    if option.isFunction then
      match around.config.function? option.text with
      | some f => ⟨e.reset, keys, [.setFunction f], .handled⟩
      | none => ⟨e, keys, [], .ignored⟩
    else e.commit around keys (.suggestion option) insert

/-- Commits what follows the quote as free text, where that is allowed. -/
def commitFreeText (e : EditBox) (keys : KeySupply) : Turn Reaction :=
  if e.allowFreeText then
    let (key, keys) := e.takeKey false keys
    let m := Matcher.freeText key (String.ofList (e.text.toList.drop freeTextMark.length))
    ⟨e.reset, keys, [.changed (some m)], .committed⟩
  else ⟨e, keys, [], .ignored⟩

end EditBox

end QueryBar
