/-
Dragging matchers.

A matcher travels as JSON under a type that names its key.  Dropped onto another matcher,
the two change places.
-/
import QueryBar.Bar.Row
import QueryBar.Matcher.Payload

namespace QueryBar

/-- A matcher on its way. -/
structure Dragged where
  type : String
  data : String

namespace Bar

/-- What the type of every dragged matcher starts with; its key follows. -/
def dragMark : String := "querybox/"

/-- Picks a matcher up. -/
def drag (b : Bar) (key : String) : Except BarError Dragged :=
  match b.matcher? key with
  | some m => .ok ⟨dragMark ++ key, m.payload⟩
  | none => .error (.noDragged key)

def isDragType (type : String) : Bool := dragMark.toList.isPrefixOf type.toList

/-- A matcher takes a drag of any other matcher, never of itself. -/
def acceptsDrop (b : Bar) (target : String) (offered : List String) : Bool :=
  (b.placeOf? target).isSome && offered.any isDragType && !offered.contains (dragMark ++ target)

/-- Drops a matcher onto another, which exchanges the two.  What cannot be read is ignored. -/
def drop (b : Bar) (target type data : String) : Bar × Bool :=
  if isDragType type then
    match Matcher.ofPayload? data with
    | some m => b.swap target m.key
    | none => (b, false)
  else (b, false)

end Bar

end QueryBar
