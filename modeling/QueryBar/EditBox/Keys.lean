/-
Keys in an edit box.

The arrows and page keys move the highlight, enter and tab confirm, escape leaves, and
backspace in an empty box reaches out to the matcher before.  What a box does not use it
leaves to its owner.  Every key press clears the error.
-/
import QueryBar.EditBox.Commit

namespace QueryBar.EditBox

/-! ### Moving the highlight -/

/-- Moves the highlight by one slot, going round. -/
def stepHighlight (e : EditBox) (forward : Bool) : EditBox × Reaction :=
  let total := e.total
  if total = 0 then (e, .ignored)
  else
    let slot := match e.highlighted with
      | none => if forward then 0 else total - 1
      | some slot => Cycle.go forward total slot
    ({ e with highlighted := some slot }, .handled)

/-- Moves the highlight to the start of another category, going round. -/
def pageHighlight (e : EditBox) (forward : Bool) : EditBox × Reaction :=
  let total := e.total
  if total = 0 then (e, .ignored)
  else
    let slot := e.highlighted.getD (if forward then total - 1 else 0)
    ({ e with highlighted := some (e.buckets.turnPage slot forward) }, .handled)

/-- Moves the highlight to the first or the last slot. -/
def jumpHighlight (e : EditBox) (toEnd : Bool) : EditBox × Reaction :=
  let total := e.total
  if total = 0 then (e, .ignored)
  else ({ e with highlighted := some (if toEnd then total - 1 else 0) }, .handled)

/-! ### Confirming and leaving -/

/-- Leaves the edit of a matcher: an emptied one is to go, any other stays as it was. -/
def leave (e : EditBox) (keys : KeySupply) : Turn Reaction :=
  if e.isEditing then
    if e.text.isEmpty then ⟨e.reset, keys, [.changed none], .cancelled⟩
    else ⟨e, keys, [.cancel], .cancelled⟩
  else ⟨e, keys, [], .ignored⟩

/-- Enter and tab: free text is committed, a highlighted slot is committed, and otherwise the
edit of a matcher is left.  A slot that only says that a lookup is under way takes the key in. -/
def onEnter (e : EditBox) (around : Surroundings) (keys : KeySupply) (shift : Bool) :
    Turn Reaction :=
  if freeTextMark.toList.isPrefixOf e.text.toList then e.commitFreeText keys
  else
    match e.buckets, e.highlighted with
    | _ :: _, some slot =>
      let turn := e.select around keys slot shift
      if turn.answer = .ignored then { turn with answer := .handled } else turn
    | _, _ => e.leave keys

def onBackspace (e : EditBox) (keys : KeySupply) (p : KeyPress) : Turn Reaction :=
  if p.plain then
    ⟨e, keys, [if !e.isEditing && e.first then .deleteFunction else .editPrevious true], .handled⟩
  else if e.isEditing then ⟨e.reset, keys, [.changed none], .cancelled⟩
  else ⟨e, keys, [], .ignored⟩

/-- Escape: leaves the edit of a matcher, or empties the trailing box. -/
def onEscape (e : EditBox) (keys : KeySupply) : Turn Reaction :=
  if e.isEditing then ⟨e, keys, [.cancel], .cancelled⟩
  else if e.text.isEmpty then ⟨e, keys, [], .ignored⟩
  else ⟨e.reset, keys, [], .cancelled⟩

/-! ### All keys -/

/-- What a key does, before it is noted how it ended. -/
def react (e : EditBox) (around : Surroundings) (keys : KeySupply) (p : KeyPress) :
    Turn Reaction :=
  let ignored : Turn Reaction := ⟨e, keys, [], .ignored⟩
  let moved (r : EditBox × Reaction) : Turn Reaction := ⟨r.1, keys, [], r.2⟩
  match p.key with
  | .arrowLeft =>
    if p.plain && p.cursor == 0 then ⟨e, keys, [.editPrevious false], .handled⟩ else ignored
  | .arrowRight =>
    if p.plain && e.text.length ≤ p.cursor then ⟨e, keys, [.editNext], .handled⟩ else ignored
  | .arrowUp => moved (e.stepHighlight false)
  | .arrowDown => moved (e.stepHighlight true)
  | .pageUp => moved (e.pageHighlight false)
  | .pageDown => moved (e.pageHighlight true)
  | .home => moved (e.jumpHighlight false)
  | .finish => moved (e.jumpHighlight true)
  | .enter | .tab => e.onEnter around keys p.shift
  | .backspace => if e.text.isEmpty then e.onBackspace keys p else ignored
  | .escape => e.onEscape keys

/-- The state that a key's result leaves the box in, if it settles that. -/
def outcomeOf : Reaction → Option BoxState
  | .committed => some .committed
  | .cancelled => some .cancelled
  | .ignored | .handled => none

def key (e : EditBox) (around : Surroundings) (keys : KeySupply) (p : KeyPress) :
    Turn Reaction :=
  let turn := { e with error := none, outcome := none }.react around keys p
  match outcomeOf turn.answer with
  | some outcome => { turn with box := { turn.box with outcome := some outcome } }
  | none => turn

end QueryBar.EditBox
