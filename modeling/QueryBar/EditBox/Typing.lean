/-
Typing into an edit box.

A new text is taken apart and searched for.  A bracket is not searched for but taken at
once, and free text is left alone until it is confirmed.  Answers of services come in
later; only those that belong to the current text change anything.
-/
import QueryBar.EditBox.Commit

namespace QueryBar.EditBox

/-- Takes a new text.  The answer is the lookups to run for it. -/
def typeText (e : EditBox) (around : Surroundings) (keys : KeySupply) (text : String) :
    Turn (List LookupRequest) :=
  let touches := !e.touched && e.isEditing && text != e.text
  let notices := if touches then [Notice.changing] else []
  let e : EditBox :=
    { e with
      outcome := none
      operator := none
      comparison := none
      matchText := none
      touched := e.touched || touches
      generation := e.generation.advance
      text
      buckets := [] }
  let tokens := Tokens.ofText around.config around.function text
  if tokens.freeText || tokens.isEmpty then ⟨e.settleHighlight, keys, notices, []⟩
  else
    let e : EditBox := { e with operator := tokens.operator, comparison := tokens.comparison }
    match tokens.bracket with
    | some b =>
      let turn := e.settleHighlight.takeBracket around keys b
      ⟨turn.box, turn.keys, notices ++ turn.notices, []⟩
    | none =>
      let ctx : SearchContext :=
        { config := around.config, function := around.function, matchers := around.matchers
          allowFunctions := e.allowFunctions }
      let found := ctx.find tokens.remainder tokens.operator e.generation
      let e : EditBox := { e with buckets := found.buckets, matchText := some tokens.remainder }
      ⟨e.settleHighlight, keys, notices, found.pending⟩

/-- The text for a picked operator and comparison in front of the search text; what is not
picked stays. -/
def composedText (e : EditBox) (operator : Option Operator) (comparison : Option String) :
    String :=
  let operator := match operator.or e.operator with
    | none | some .none => ""
    | some operator => operator.name ++ " "
  let comparison := match comparison.or e.comparison with
    | none => ""
    | some comparison => comparison ++ " "
  operator ++ comparison ++ e.matchText.getD ""

def compose (e : EditBox) (around : Surroundings) (keys : KeySupply)
    (operator : Option Operator) (comparison : Option String) : Turn (List LookupRequest) :=
  e.typeText around keys (e.composedText operator comparison)

/-- Takes an answer, unless newer text or another owner makes it void.  Says whether anything
changed. -/
def takeAnswer (e : EditBox) (c : Config) (answer : LookupAnswer) : EditBox × Bool :=
  if answer.owner = e.generation.owner ∧ answer.token = e.generation.current then
    match e.buckets.withAnswer? c answer with
    | some buckets => ({ e with buckets }.settleHighlight, true)
    | none => (e, false)
  else (e, false)

end QueryBar.EditBox
