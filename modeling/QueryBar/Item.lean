/-
What lists are made of.

A list offers texts, numbers, or records of any JSON.  Without getters a record stands
for its own compact text.
-/
import QueryBar.Value

namespace QueryBar

/-- One entry of a list. -/
inductive Item
  | text (s : String)
  | number (x : Number)
  | record (j : Json)

namespace Item

/-- The text of an item for which there is no getter. -/
def plainText : Item → String
  | .text s => s
  | .number x => x.display
  | .record j => j.compact

/-- The value of an item for which there is no getter. -/
def plainValue : Item → Value
  | .text s => .text s
  | .number x => .number x
  | .record j => .text j.compact

end Item

end QueryBar
