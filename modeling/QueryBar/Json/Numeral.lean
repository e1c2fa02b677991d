/-
Numbers as JSON spells them.

A numeral is a minus sign or none, digits, a fraction and an exponent.  `Numeral.scan`
cuts one off the front of a text, and `Numeral.value?` says what it stands for.  The two
are apart because a numeral can be sound and still stand for nothing: it may be too
large for a number.
-/
import QueryBar.Json
import QueryBar.Number.Decimal

namespace QueryBar.Json

/-- A number as JSON spells it. -/
structure Numeral where
  negative : Bool
  whole : List Char
  /-- The digits after the point; a numeral with a point has at least one. -/
  fraction : List Char
  /-- The exponent, if there is one. -/
  exponent : Option Int

namespace Numeral

/-! ### Reading the spelling -/

/-- A point with at least one digit, or nothing. -/
def scanFraction : List Char → Option (List Char × List Char)
  | '.' :: cs =>
    match spanDigits cs with
    | ([], _) => none
    | (digits, rest) => some (digits, rest)
  | cs => some ([], cs)

/-- An exponent mark with at least one digit, or nothing. -/
def scanExponent : List Char → Option (Option Int × List Char)
  | [] => some (none, [])
  | c :: cs =>
    if c = 'e' ∨ c = 'E' then
      match spanDigits (readSign cs).2 with
      | ([], _) => none
      | (digits, rest) =>
        let value : Int := digitsValue digits
        some (some (if (readSign cs).1 then -value else value), rest)
    else some (none, c :: cs)

/-- The digits before the point: at least one, and no nought in front of another digit. -/
def scanWhole (cs : List Char) : Option (List Char × List Char) :=
  match spanDigits cs with
  | ([], _) => none
  | ('0' :: _ :: _, _) => none
  | (digits, rest) => some (digits, rest)

/-- The numeral at the front of a text that has no sign, and the rest. -/
def scan (negative : Bool) (cs : List Char) : Option (Numeral × List Char) :=
  match scanWhole cs with
  | none => none
  | some (whole, cs) =>
    match scanFraction cs with
    | none => none
    | some (fraction, cs) =>
      match scanExponent cs with
      | none => none
      | some (exponent, cs) => some (⟨negative, whole, fraction, exponent⟩, cs)

theorem length_spanDigits (cs : List Char) :
    (spanDigits cs).1.length + (spanDigits cs).2.length = cs.length := by
  rw [← List.length_append]
  exact congrArg List.length (List.takeWhile_append_dropWhile)

theorem length_of_scanWhole {cs whole rest : List Char}
    (h : scanWhole cs = some (whole, rest)) : rest.length < cs.length := by
  have hlen := length_spanDigits cs
  unfold scanWhole at h
  split at h
  · simp at h
  · simp at h
  · rename_i digits left hne _ heq
    rw [heq] at hlen
    cases digits with
    | nil => exact absurd rfl hne
    | cons d ds =>
      simp at h hlen
      rw [← h.2]
      omega

theorem length_of_scanFraction {cs fraction rest : List Char}
    (h : scanFraction cs = some (fraction, rest)) : rest.length ≤ cs.length := by
  unfold scanFraction at h
  split at h
  · rename_i cs
    have hlen := length_spanDigits cs
    split at h
    · simp at h
    · rename_i heq
      rw [heq] at hlen
      simp at h hlen
      rw [← h.2, List.length_cons]
      omega
  · simp at h
    simp [h.2]

theorem length_readSign (cs : List Char) : (readSign cs).2.length ≤ cs.length := by
  unfold readSign
  split <;> simp

theorem length_of_scanExponent {cs rest : List Char} {exponent : Option Int}
    (h : scanExponent cs = some (exponent, rest)) : rest.length ≤ cs.length := by
  unfold scanExponent at h
  split at h
  · simp at h
    simp [h.2]
  · rename_i c cs
    split at h
    · have hlen := length_spanDigits (readSign cs).2
      have hsign := length_readSign cs
      split at h
      · simp at h
      · rename_i heq
        rw [heq] at hlen
        simp at h hlen
        rw [← h.2, List.length_cons]
        omega
    · simp at h
      simp [← h.2]

/-- A numeral takes at least one character off the text. -/
theorem length_of_scan {negative : Bool} {cs rest : List Char} {n : Numeral}
    (h : scan negative cs = some (n, rest)) : rest.length < cs.length := by
  unfold scan at h
  split at h
  · simp at h
  · rename_i hwhole
    split at h
    · simp at h
    · rename_i hfraction
      split at h
      · simp at h
      · rename_i hexponent
        simp at h
        have := length_of_scanWhole hwhole
        have := length_of_scanFraction hfraction
        have := length_of_scanExponent hexponent
        rw [← h.2]
        omega

/-! ### The value

An integer that fits in 64 bits, signed or unsigned, stays an integer, except that `-0`
is the number with that sign.  Every other numeral is a floating-point number, found in
two steps: the digits are gathered as far as they fit in 64 bits and rounded, and the
result is scaled by a power of ten and rounded again.
-/

/-- The digits gathered into a 64-bit number as far as they fit, and those left over. -/
def gather (sum : Nat) : List Char → Nat × List Char
  | [] => (sum, [])
  | c :: cs =>
    let next := sum * 10 + digitsValue [c]
    if FitsUnsigned next then gather next cs else (sum, c :: cs)

/-- The number closest to a power of ten. -/
def power (k : Nat) : Number := Number.ofDecimal false ⟨1, k⟩

/-- The product of two finite numbers, rounded; their signs are those of magnitudes. -/
def times : Number → Number → Number
  | .finite _ m, .finite _ n => .nearest false (m.num * n.num) (m.den * n.den)
  | x, _ => x

/-- The quotient of two finite numbers, rounded; the divisor is not nought. -/
def dividedBy : Number → Number → Number
  | .finite _ m, .finite _ n => .nearest false (m.num * n.den) (m.den * n.num)
  | x, _ => x

/-- A gathered number scaled by a power of ten; nothing if the result is too large.  Below
the powers that a number can hold, two divisions take the place of one. -/
def scale (sum : Nat) (exponent : Int) : Option Number :=
  let x := Number.nearest false sum 1
  if sum = 0 then some x
  else if 308 < exponent then none
  else if 0 ≤ exponent then
    let y := times x (power exponent.toNat)
    if y.isInfinite then none else some y
  else if -308 ≤ exponent then some (dividedBy x (power (-exponent).toNat))
  else if -616 ≤ exponent then
    some (dividedBy (dividedBy x (power 308)) (power (-exponent - 308).toNat))
  else some (.zero false)

/-- The value of a numeral; nothing if it is too large for a number. -/
def value? (n : Numeral) : Option Json :=
  let (sum, left) := gather 0 n.whole
  if n.fraction.isEmpty && n.exponent.isNone && left.isEmpty &&
      (!n.negative || (0 < sum && FitsSigned (-(sum : Int)))) then
    some (.integer (if n.negative then -(sum : Int) else sum))
  else
    let (sum, dropped) := gather sum n.fraction
    let exponent : Int :=
      left.length - (n.fraction.length - dropped.length : Nat) + n.exponent.getD 0
    (scale sum exponent).map fun x => .number (if n.negative then x.negate else x)

end Numeral

end QueryBar.Json
