/-
How a number is laid out as text.

The digits come from `Magnitude.shortest`; a layout says where the point goes, when the
number is written with an exponent, and what the special values are called.  There are
two layouts.  A value shown to the reader is written out in full, however many noughts
that takes.  Inside JSON a number keeps a point, and turns to an exponent when it would
start with many noughts or end in them; what is not finite has no spelling there.
-/
import QueryBar.Number.Shortest

namespace QueryBar

/-- The decisions that make up one way of writing finite numbers. -/
structure NumberLayout where
  /-- Which of two equally close digit rows is written. -/
  tie : Tie
  /-- The decimal exponents of the leading digit that are written without an exponent part. -/
  positional : Int → Bool
  /-- A number without fraction ends in `.0`. -/
  pointZero : Bool

namespace NumberLayout

/-- Numbers shown to the reader: never an exponent, no point without a fraction. -/
def plain : NumberLayout := ⟨.up, fun _ => true, false⟩

/-- Numbers inside JSON: an exponent below -5 and from 16 on, and `.0` where nothing follows. -/
def json : NumberLayout := ⟨.toEven, fun e => -5 ≤ e && e < 16, true⟩

/-- The digits with the point after the first `place` of them, padded with noughts. -/
def positionalText (pointZero : Bool) (digits : List Char) (place : Int) : List Char :=
  if place ≤ 0 then '0' :: '.' :: List.replicate (-place).toNat '0' ++ digits
  else if digits.length ≤ place.toNat then
    digits ++ List.replicate (place.toNat - digits.length) '0' ++
      (if pointZero then ['.', '0'] else [])
  else digits.take place.toNat ++ '.' :: digits.drop place.toNat

/-- One digit, the others after a point, and the exponent with a sign. -/
def exponentText (digits : List Char) (exponent : Int) : List Char :=
  let rest := digits.drop 1
  digits.take 1 ++ (if rest.isEmpty then [] else '.' :: rest) ++
    'e' :: (if exponent < 0 then '-' else '+') :: Nat.toDigits 10 exponent.natAbs

/-- A magnitude in the layout.  Noughts at the end of the digits carry no information. -/
def magnitudeText (l : NumberLayout) (m : Magnitude) : List Char :=
  if m.significand = 0 then positionalText l.pointZero ['0'] 1
  else
    let d := m.shortest l.tie
    let row := Nat.toDigits 10 d.digits
    let digits := (row.reverse.dropWhile (· == '0')).reverse
    let place := row.length + d.exponent
    if l.positional (place - 1) then positionalText l.pointZero digits place
    else exponentText digits (place - 1)

/-- A finite number in the layout. -/
def finiteText (l : NumberLayout) (negative : Bool) (m : Magnitude) : String :=
  String.ofList (if negative then '-' :: l.magnitudeText m else l.magnitudeText m)

end NumberLayout

namespace Number

/-- The number written out in full. -/
def plainText : Number → String
  | .nan => "NaN"
  | .infinite negative => if negative then "-inf" else "inf"
  | .finite negative m => NumberLayout.plain.finiteText negative m

/-- The number as it is shown: small integral ones like integers, so that the sign of nought
is dropped, and all others written out in full. -/
def display : Number → String
  | .finite negative m =>
    if m.isIntegral && m.floor < Nat.pow 10 15 then
      toString (if negative then -(m.floor : Int) else (m.floor : Int))
    else plainText (.finite negative m)
  | x => plainText x

end Number

end QueryBar
