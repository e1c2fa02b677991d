/-
What is written for a number is next to it.

The digits that are written read back as the number, so that what they stand for is at most half a
step away from it.  The exact decimal value, which stands behind the search for them, is no
exception.
-/
import QueryBar.Number.Shortest
import QueryBar.Proofs.Number.Rounding

namespace QueryBar.Magnitude

variable {m : Magnitude} {d : Decimal}

/-- A decimal that is read as the magnitude is next to it. -/
theorem near_of_reads (hm : m.significand ≠ 0) (h : m.reads d = true) :
    0 < d.digits ∧ m.Near d.value := by
  have hread : Number.ofDecimal false d = .finite false m := eq_of_beq h
  have hnonzero : Number.zero false ≠ .finite false m := by
    intro hzero
    obtain rfl := (Number.finite.inj hzero).2
    exact hm rfl
  unfold Number.ofDecimal at hread
  split at hread
  · exact absurd hread hnonzero
  rename_i hdigits
  split at hread
  · contradiction
  split at hread
  · exact absurd hread hnonzero
  have hdigits' : 0 < d.digits := Nat.pos_of_ne_zero hdigits
  have hnum : 0 < d.num := Nat.mul_pos hdigits' (Nat.pow_pos (by decide))
  refine ⟨hdigits', ?_⟩
  obtain ⟨m', hfinite, hnear⟩ | ⟨hinfinite, -⟩ := Number.nearest_cases false hnum d.den_pos
  · obtain rfl := (Number.finite.inj (hfinite.symm.trans hread)).2
    rw [d.num_div_den] at hnear
    exact hnear
  · rw [hinfinite] at hread
    contradiction

/-- Of its two neighbours on a grid only one that is read as the magnitude is written. -/
theorem reads_of_neighbour {tie : Tie} {exponent : Int} (h : m.neighbour? tie exponent = some d) :
    m.reads d = true := by
  unfold neighbour? at h
  dsimp only at h
  split at h
  · contradiction
  · rename_i hlow _
    exact Option.some.inj h ▸ hlow
  · rename_i _ hhigh
    exact Option.some.inj h ▸ hhigh
  · rename_i hlow hhigh
    split at h
    · exact Option.some.inj h ▸ hlow
    split at h
    · exact Option.some.inj h ▸ hhigh
    cases tie with
    | up => exact Option.some.inj h ▸ hhigh
    | toEven =>
        obtain rfl := Option.some.inj h
        split
        · exact hlow
        · exact hhigh

/-- A power of five clears the denominator. -/
theorem value_exact (m : Magnitude) : m.exact.value = m.value := by
  unfold exact Decimal.value value
  dsimp only
  push_cast [Nat.pow_eq]
  rcases le_total 0 m.exponent with hwhole | hpart
  · rw [min_eq_right hwhole, show (-m.exponent).toNat = 0 by omega, pow_zero, zpow_zero, mul_one,
      mul_one, ← zpow_natCast, Int.toNat_of_nonneg hwhole]
  · rw [min_eq_left hpart, show m.exponent.toNat = 0 by omega, pow_zero, mul_one, ← zpow_natCast,
      Int.toNat_of_nonneg (by omega), mul_assoc, zpow_neg, ← div_eq_inv_mul, ← div_zpow]
    norm_num

theorem near_exact (hm : m.significand ≠ 0) : 0 < m.exact.digits ∧ m.Near m.exact.value := by
  have hstep : (0 : ℚ) < 2 ^ m.exponent := by positivity
  refine ⟨?_, ?_⟩
  · exact Nat.mul_pos (Nat.mul_pos (Nat.pos_of_ne_zero hm) (Nat.pow_pos (by decide)))
      (Nat.pow_pos (by decide))
  · rw [value_exact]
    unfold Near value
    constructor <;> nlinarith

/-- **What is written for a magnitude is next to it.** -/
theorem near_shortest (tie : Tie) (hm : m.significand ≠ 0) :
    0 < (m.shortest tie).digits ∧ m.Near (m.shortest tie).value := by
  unfold shortest
  rw [if_neg hm]
  dsimp only
  cases hfound : (List.range 17).findSome?
      fun n => m.neighbour? tie (decimalPoint m.num m.den - (n + 1 : Nat)) with
  | none => exact near_exact hm
  | some d =>
      obtain ⟨n, -, hn⟩ := List.exists_of_findSome?_eq_some hfound
      exact near_of_reads hm (reads_of_neighbour hn)

end QueryBar.Magnitude
