/-
One text inside another.

An item answers a search when the typed text occurs somewhere in the item's text, either
exactly or with the case of both ignored.
-/
import QueryBar.Text.Upper

namespace QueryBar.Text

/-- The sought text occurs in the other, from some character on. -/
def occursIn (sought : List Char) : List Char → Bool
  | [] => sought.isEmpty
  | c :: cs => sought.isPrefixOf (c :: cs) || occursIn sought cs

/-- `text` contains `sought`; with `ignoreCase`, the upper case of one contains that of the
other. -/
def contains (ignoreCase : Bool) (text sought : String) : Bool :=
  if ignoreCase then occursIn (upper sought.toList) (upper text.toList)
  else occursIn sought.toList text.toList

end QueryBar.Text
