/-
The fewest digits that read back.

A number is written with as few digits as tell it apart from every other.  With `n`
digits the candidates are the points of a decimal grid whose step is `10 ^ (k - n)`,
where `10 ^ (k - 1) ≤ value < 10 ^ k`.  Rounding is monotone, so if any point of that
grid reads back as the value, one of the value's two neighbours on it does.  `shortest`
tries one digit, two digits and so on, and takes the first grid with a neighbour that
reads back; of two such neighbours it takes the closer, and a tie goes by the rule it is
given.  Seventeen digits always suffice for 64 bits; the exact binary value, which has a
finite decimal form, stands behind them so that the search has an answer in any case.
-/
import QueryBar.Number.Decimal

namespace QueryBar

/-- Which of two equally close candidates is written. -/
inductive Tie
  | up
  | toEven
  deriving DecidableEq

/-- The least `k` with `num / den < 10 ^ k`, for terms that are not nought. -/
def decimalPoint (num den : Nat) : Int :=
  if den ≤ num then digitCount (num / den)
  else
    let d := digitCount (den / num)
    if den ≤ num * Nat.pow 10 (d - 1) then 2 - (d : Int) else 1 - (d : Int)

namespace Magnitude

/-- The decimal is read as this magnitude. -/
def reads (m : Magnitude) (d : Decimal) : Bool :=
  Number.ofDecimal false d == .finite false m

/-- The neighbour of the magnitude that is written on the grid of step `10 ^ exponent`. -/
def neighbour? (tie : Tie) (m : Magnitude) (exponent : Int) : Option Decimal :=
  let num := m.num * Nat.pow 10 (-exponent).toNat
  let den := m.den * Nat.pow 10 exponent.toNat
  let low : Decimal := ⟨num / den, exponent⟩
  let high : Decimal := ⟨num / den + 1, exponent⟩
  match m.reads low, m.reads high with
  | false, false => none
  | true, false => some low
  | false, true => some high
  | true, true =>
    let twice := 2 * (num % den)
    if twice < den then some low
    else if den < twice then some high
    else match tie with
      | .up => some high
      | .toEven => some (if low.digits % 2 = 0 then low else high)

/-- The magnitude itself in decimal: a power of five clears the denominator. -/
def exact (m : Magnitude) : Decimal :=
  ⟨m.significand * Nat.pow 2 m.exponent.toNat * Nat.pow 5 (-m.exponent).toNat, min m.exponent 0⟩

/-- The decimal with the fewest digits that reads back as the magnitude. -/
def shortest (tie : Tie) (m : Magnitude) : Decimal :=
  if m.significand = 0 then ⟨0, 0⟩
  else
    let k := decimalPoint m.num m.den
    ((List.range 17).findSome? fun n => m.neighbour? tie (k - (n + 1 : Nat))).getD m.exact

end Magnitude

end QueryBar
