/-
Numbers written in decimal.

A decimal is a natural number times a power of ten, which is how a number looks when it
has just been read and just before it is written.  `Number.ofDecimal` is the closest
number to a decimal.  `Number.ofText?` reads the spelling that predicates and values
use: a sign, then digits with a point and an exponent, or the words for infinity and
not-a-number in any case.

Exponents can be written with any number of digits, so the two cases that need no
arithmetic are decided first: a decimal that is certainly too large is infinite, one that
is certainly too small is nought, and only the rest is multiplied out.
-/
import QueryBar.Number

namespace QueryBar

/-- The decimal `digits · 10 ^ exponent`. -/
structure Decimal where
  digits : Nat
  exponent : Int
  deriving DecidableEq

namespace Decimal

/-- The decimal is `num / den` for natural numbers. -/
def num (d : Decimal) : Nat := d.digits * Nat.pow 10 d.exponent.toNat

/-- The denominator that goes with `num`; it is never nought. -/
def den (d : Decimal) : Nat := Nat.pow 10 (-d.exponent).toNat

end Decimal

/-- How many decimal digits a number has; nought has one. -/
def digitCount (n : Nat) : Nat := (Nat.toDigits 10 n).length

/-- The number closest to a decimal. -/
def Number.ofDecimal (negative : Bool) (d : Decimal) : Number :=
  if d.digits = 0 then .zero negative
  else if 310 < d.exponent then .infinite negative
  else if digitCount d.digits + d.exponent < -325 then .zero negative
  else .nearest negative d.num d.den

/-! ### Reading a spelling

A spelling is cut from the front, one part at a time; whatever the last part leaves over
makes it no number.
-/

/-- An optional sign: whether the number is negative, and the rest. -/
def readSign : List Char → Bool × List Char
  | '-' :: cs => (true, cs)
  | '+' :: cs => (false, cs)
  | cs => (false, cs)

/-- The digits at the front of a text, and the rest. -/
def spanDigits (cs : List Char) : List Char × List Char :=
  (cs.takeWhile Char.isDigit, cs.dropWhile Char.isDigit)

def digitsValue (cs : List Char) : Nat := Nat.ofDigitChars 10 cs 0

/-- An exponent part that takes up the whole text; no text at all is the exponent nought. -/
def readExponent? : List Char → Option Int
  | [] => some 0
  | c :: cs =>
    if c = 'e' ∨ c = 'E' then
      let (negative, cs) := readSign cs
      if cs.isEmpty || !cs.all Char.isDigit then none
      else some (if negative then -digitsValue cs else digitsValue cs)
    else none

/-- Digits with an optional point, at least one digit on either side, and an exponent part. -/
def Decimal.ofText? (cs : List Char) : Option Decimal :=
  let (whole, cs) := spanDigits cs
  let (fraction, cs) := match cs with
    | '.' :: cs => spanDigits cs
    | cs => ([], cs)
  if whole.isEmpty && fraction.isEmpty then none
  else (readExponent? cs).map fun e =>
    ⟨digitsValue (whole ++ fraction), e - fraction.length⟩

/-- The number a text spells, if it spells one from end to end. -/
def Number.ofText? (text : String) : Option Number :=
  let (negative, cs) := readSign text.toList
  let word := String.ofList (cs.map Char.toLower)
  if word = "inf" ∨ word = "infinity" then some (.infinite negative)
  else if word = "nan" then some .nan
  else (Decimal.ofText? cs).map (.ofDecimal negative)

/-- The integer a text spells with an optional sign and digits only, if it fits in 64 bits. -/
def int64OfText? (text : String) : Option Int :=
  let (negative, cs) := readSign text.toList
  if cs.isEmpty || !cs.all Char.isDigit then none
  else
    let i : Int := if negative then -digitsValue cs else digitsValue cs
    if FitsSigned i then some i else none

end QueryBar
