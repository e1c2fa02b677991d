/-
Characters as bytes.

A character is written in UTF-8 as one to four bytes, the first of which says how many.  A
range of code points becomes a few rows of byte ranges: a row stands for all code points
whose bytes lie in its ranges, place by place.  Rows come in ascending order, so rows that
begin alike stand together.
-/

namespace QueryBar.Text

/-- The bytes of a code point. -/
def utf8 (n : Nat) : List Nat :=
  if n < 0x80 then [n]
  else if n < 0x800 then [0xC0 + n / 64, 0x80 + n % 64]
  else if n < 0x10000 then [0xE0 + n / 4096, 0x80 + n / 64 % 64, 0x80 + n % 64]
  else [0xF0 + n / 262144, 0x80 + n / 4096 % 64, 0x80 + n / 64 % 64, 0x80 + n % 64]

/-- A range of bytes, both ends included. -/
abbrev ByteRange := Nat × Nat

/-- The first place at which a range has to be cut, so that the part before it ends there: at the
surrogates, where the number of bytes changes, and where a byte that is not the last changes
while those after it do not run through all their values. -/
def cut? (low high : Nat) : Option Nat :=
  if low < 0xE000 ∧ 0xD7FF < high then some 0xD7FF
  else
    match [0x7F, 0x7FF, 0xFFFF].find? fun last => low ≤ last ∧ last < high with
    | some last => some last
    | none =>
      if high ≤ 0x7F then none
      else [64, 4096, 262144].findSome? fun block =>
        if low / block = high / block then none
        else if low % block ≠ 0 then some (low - low % block + block - 1)
        else if high % block ≠ block - 1 then some (high - high % block - 1)
        else none

/-- The rows of byte ranges for the code points from `low` to `high`.  Surrogates have none. -/
def byteRows : Nat → Nat → Nat → List (List ByteRange)
  | 0, _, _ => []
  | fuel + 1, low, high =>
    if high < low then []
    else
      match cut? low high with
      | some last =>
        byteRows fuel low last ++ byteRows fuel (if last = 0xD7FF then 0xE000 else last + 1) high
      | none => [List.zip (utf8 low) (utf8 high)]

/-- The rows of byte ranges for ranges of code points.  A range is cut a dozen times at most. -/
def byteRowsOf (ranges : List (Nat × Nat)) : List (List ByteRange) :=
  ranges.flatMap fun r => byteRows 32 r.1 r.2

end QueryBar.Text
