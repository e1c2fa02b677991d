/-
Binary floating-point numbers of 64 bits, held exactly.

A finite number is a sign and a magnitude `significand · 2 ^ exponent` in the one form
the format has for it, so two magnitudes are equal exactly when their fields are.  All
arithmetic goes through `nearest`: it takes a quotient of natural numbers, which is
exact, and picks the number closest to it, the even neighbour on a tie.  Nothing here
touches the processor's floating point, so every value can be computed inside a proof.
-/

namespace QueryBar

/-- The one way the format writes a finite magnitude: 53 bits at most, no exponent below
-1074 or above 971, and the full 53 bits unless the exponent is the least one. -/
def Canonical (significand : Nat) (exponent : Int) : Prop :=
  significand < Nat.pow 2 53 ∧ -1074 ≤ exponent ∧ exponent ≤ 971 ∧
    (exponent = -1074 ∨ Nat.pow 2 52 ≤ significand)

instance (significand : Nat) (exponent : Int) : Decidable (Canonical significand exponent) :=
  inferInstanceAs (Decidable (_ ∧ _))

/-- The absolute value of a finite number, `significand · 2 ^ exponent`. -/
structure Magnitude where
  significand : Nat
  exponent : Int
  canonical : Canonical significand exponent
  deriving DecidableEq

/-- A floating-point number. -/
inductive Number
  | nan
  | infinite (negative : Bool)
  | finite (negative : Bool) (magnitude : Magnitude)
  deriving DecidableEq

namespace Magnitude

def zero : Magnitude := ⟨0, -1074, by decide⟩

/-- The magnitude is `num / den` for natural numbers. -/
def num (m : Magnitude) : Nat := m.significand * Nat.pow 2 m.exponent.toNat

/-- The denominator that goes with `num`; it is never nought. -/
def den (m : Magnitude) : Nat := Nat.pow 2 (-m.exponent).toNat

def isIntegral (m : Magnitude) : Bool := m.num % m.den == 0

/-- The magnitude cut down to a natural number. -/
def floor (m : Magnitude) : Nat := m.num / m.den

end Magnitude

/-! ### Integers of 64 bits -/

/-- The integer fits in 64 bits one of which is the sign. -/
abbrev FitsSigned (i : Int) : Prop := -9223372036854775808 ≤ i ∧ i ≤ 9223372036854775807

/-- The integer fits in 64 bits without a sign. -/
abbrev FitsUnsigned (i : Int) : Prop := 0 ≤ i ∧ i ≤ 18446744073709551615

/-! ### Rounding a quotient -/

/-- `num / den` rounded to the nearest natural number, a half to the even neighbour. -/
def roundHalfEven (num den : Nat) : Nat :=
  let floor := num / den
  let twice := 2 * (num % den)
  if twice < den then floor else if den < twice then floor + 1 else floor + floor % 2

/-- The greatest `k` with `2 ^ k ≤ num / den`, for terms that are not nought. -/
def floorLog2 (num den : Nat) : Int :=
  let k : Int := (Nat.log2 num : Int) - (Nat.log2 den : Int)
  if den * Nat.pow 2 k.toNat ≤ num * Nat.pow 2 (-k).toNat then k else k - 1

namespace Number

def zero (negative : Bool) : Number := .finite negative .zero

/-- The number `significand · 2 ^ exponent`, infinite when that is no finite number's form. -/
def ofParts (negative : Bool) (significand : Nat) (exponent : Int) : Number :=
  if h : Canonical significand exponent then .finite negative ⟨significand, exponent, h⟩
  else .infinite negative

/-- The number closest to `num / den`.  The exponent is the one that gives 53 bits, or the
least one; a significand that rounds up to 54 bits moves to the next exponent. -/
def nearest (negative : Bool) (num den : Nat) : Number :=
  if num = 0 then zero negative
  else
    let exponent := max (-1074) (floorLog2 num den - 52)
    let significand :=
      roundHalfEven (num * Nat.pow 2 (-exponent).toNat) (den * Nat.pow 2 exponent.toNat)
    if significand < Nat.pow 2 53 then ofParts negative significand exponent
    else ofParts negative (Nat.pow 2 52) (exponent + 1)

/-- The number closest to an integer. -/
def ofInt (i : Int) : Number := nearest (i < 0) i.natAbs 1

/-- Numeric equality: nothing equals not-a-number, and the two noughts are equal. -/
def same : Number → Number → Bool
  | .infinite s, .infinite t => s == t
  | .finite s m, .finite t n => m == n && (s == t || m.significand == 0)
  | _, _ => false

def negate : Number → Number
  | .nan => .nan
  | .infinite s => .infinite !s
  | .finite s m => .finite (!s) m

def isInfinite : Number → Bool
  | .infinite _ => true
  | _ => false

end Number

end QueryBar
