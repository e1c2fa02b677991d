/-
Integers of 64 bits, written and read again.

An integer is written with all its digits.  A reader gathers digits until the next one would no
longer fit in 64 bits, and as a number is never smaller than what its first digits spell, one that
fits is gathered whole (`gather_of_fits`).  So every integer that fits, with a sign or without, is
read as itself (`value?_ofInt`).
-/
import QueryBar.Proofs.Json.Compact
import QueryBar.Proofs.Json.Scaling

namespace QueryBar.Json.Numeral

variable {digits : List Char} {sum : Nat} {i : Int}

/-- Digits that spell a number of 64 bits are gathered to the last. -/
theorem gather_of_fits (h : FitsUnsigned (Nat.ofDigitChars 10 digits sum)) :
    gather sum digits = (Nat.ofDigitChars 10 digits sum, []) := by
  induction digits generalizing sum with
  | nil => rfl
  | cons c cs ih =>
      rw [ofDigitChars_cons_eq] at h ⊢
      have hgrows : sum * 10 + digitsValue [c] ≤
          Nat.ofDigitChars 10 cs (sum * 10 + digitsValue [c]) :=
        Nat.le_trans (Nat.le_mul_of_pos_right _ (Nat.pow_pos (by decide))) (ofDigitChars_le cs _)
      have hnext : FitsUnsigned (sum * 10 + digitsValue [c] : Nat) := by
        constructor <;> omega
      unfold gather
      dsimp only
      rw [if_pos hnext, ih h]

/-- The digits of an integer spell its absolute value. -/
theorem gather_toDigits {k : Nat} (h : FitsUnsigned k) :
    gather 0 (Nat.toDigits 10 k) = (k, []) := by
  have hvalue : Nat.ofDigitChars 10 (Nat.toDigits 10 k) 0 = k :=
    Nat.ofDigitChars_toDigits (by decide) (by decide)
  rw [gather_of_fits (by rwa [hvalue]), hvalue]

/-- **An integer of 64 bits is read as it was written**, whether a sign takes up one of them or
not. -/
theorem value?_ofInt (h : FitsSigned i ∨ FitsUnsigned i) :
    (ofInt i).value? = some (.integer i) := by
  unfold value? ofInt
  dsimp only
  rw [gather_toDigits (by omega)]
  by_cases hnegative : i < 0
  · obtain ⟨k, rfl⟩ : ∃ k : Nat, i = -(k : Int) := ⟨i.natAbs, by omega⟩
    have hpositive : 0 < k := by omega
    have hsigned : FitsSigned (-(k : Int)) := by omega
    simp [hpositive, hsigned]
  · obtain ⟨k, rfl⟩ : ∃ k : Nat, i = k := ⟨i.natAbs, by omega⟩
    simp [hnegative]

end QueryBar.Json.Numeral
