/-
Blank characters, and texts without them at the ends.

What is typed into a query bar is read with the blanks at its ends removed, and each
part that is read off its front takes the blanks after it along.  Blank is Unicode's
White_Space: twenty-five characters, of which six are ASCII.
-/

namespace QueryBar.Text

/-- Unicode's White_Space characters as closed ranges of code points, ascending. -/
def blankRanges : List (Nat × Nat) :=
  [(0x9, 0xD), (0x20, 0x20), (0x85, 0x85), (0xA0, 0xA0), (0x1680, 0x1680), (0x2000, 0x200A),
   (0x2028, 0x2029), (0x202F, 0x202F), (0x205F, 0x205F), (0x3000, 0x3000)]

def isBlank (c : Char) : Bool :=
  blankRanges.any fun r => r.1 ≤ c.toNat && c.toNat ≤ r.2

def trimStart (cs : List Char) : List Char :=
  cs.dropWhile isBlank

def trimEnd (cs : List Char) : List Char :=
  (cs.reverse.dropWhile isBlank).reverse

def trim (cs : List Char) : List Char :=
  trimEnd (trimStart cs)

end QueryBar.Text
