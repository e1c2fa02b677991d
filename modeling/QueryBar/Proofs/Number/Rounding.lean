/-
How far rounding moves a number.

Rounding is judged in rationals.  A quotient becomes a finite number at most half a step away from
it, or it was at least half a step above the largest finite number (`Number.nearest_cases`).  For a
quotient of one or more, half a step is at most one part in `2 ^ 53` (`Number.nearest_le`).
-/
import Mathlib.Algebra.Order.Field.Power
import Mathlib.Data.Rat.Cast.Order
import Mathlib.Tactic.FieldSimp
import Mathlib.Tactic.Linarith
import Mathlib.Tactic.Positivity
import QueryBar.Number.Decimal

namespace QueryBar

def Magnitude.value (m : Magnitude) : ℚ := m.significand * 2 ^ m.exponent

def Decimal.value (d : Decimal) : ℚ := d.digits * 10 ^ d.exponent

theorem Magnitude.value_nonneg (m : Magnitude) : 0 ≤ m.value := by
  unfold value
  positivity

/-- A power with its exponent's sign split off. -/
theorem pow_toNat_div_pow_toNat {b : ℚ} (hb : b ≠ 0) (e : Int) :
    b ^ e.toNat / b ^ (-e).toNat = b ^ e := by
  rw [← zpow_natCast, ← zpow_natCast, ← zpow_sub₀ hb]
  congr 1
  omega

theorem Magnitude.num_div_den (m : Magnitude) : (m.num : ℚ) / m.den = m.value := by
  unfold num den value
  rw [← pow_toNat_div_pow_toNat (by norm_num) m.exponent]
  push_cast [Nat.pow_eq]
  rw [mul_div_assoc]

theorem Decimal.num_div_den (d : Decimal) : (d.num : ℚ) / d.den = d.value := by
  unfold num den value
  rw [← pow_toNat_div_pow_toNat (by norm_num) d.exponent]
  push_cast [Nat.pow_eq]
  rw [mul_div_assoc]

theorem Magnitude.den_pos (m : Magnitude) : 0 < m.den := Nat.pow_pos (by decide)

theorem Decimal.den_pos (d : Decimal) : 0 < d.den := Nat.pow_pos (by decide)

/-! ### To the nearest natural number -/

theorem roundHalfEven_mul_bounds (num : Nat) {den : Nat} (h : 0 < den) :
    2 * (roundHalfEven num den * den) ≤ 2 * num + den ∧
      2 * num ≤ 2 * (roundHalfEven num den * den) + den := by
  have hsplit := Nat.div_add_mod' num den
  have hlt := Nat.mod_lt num h
  unfold roundHalfEven
  dsimp only
  split
  · omega
  split
  · rw [Nat.add_mul, Nat.one_mul]
    omega
  · rcases Nat.mod_two_eq_zero_or_one (num / den) with heven | hodd
    · rw [heven, Nat.add_zero]
      omega
    · rw [hodd, Nat.add_mul, Nat.one_mul]
      omega

/-- A natural number is at most half away from the quotient it was rounded from. -/
theorem roundHalfEven_bounds (num : Nat) {den : Nat} (h : 0 < den) :
    (roundHalfEven num den : ℚ) - 1 / 2 ≤ num / den ∧
      (num : ℚ) / den ≤ roundHalfEven num den + 1 / 2 := by
  obtain ⟨hlow, hhigh⟩ := roundHalfEven_mul_bounds num h
  have hden : (0 : ℚ) < den := Nat.cast_pos.mpr h
  have hlow' : 2 * ((roundHalfEven num den : ℚ) * den) ≤ 2 * num + den := by exact_mod_cast hlow
  have hhigh' : 2 * (num : ℚ) ≤ 2 * (roundHalfEven num den * den) + den := by exact_mod_cast hhigh
  constructor
  · rw [le_div_iff₀ hden]
    linarith
  · rw [div_le_iff₀ hden]
    linarith

/-! ### The size of a quotient -/

theorem log2_bounds {n : Nat} (h : 0 < n) :
    (2 : ℚ) ^ (Nat.log2 n : ℤ) ≤ n ∧ (n : ℚ) < 2 ^ ((Nat.log2 n : ℤ) + 1) := by
  constructor
  · rw [zpow_natCast]
    exact_mod_cast Nat.log2_self_le h.ne'
  · rw [← Nat.cast_succ, zpow_natCast]
    exact_mod_cast Nat.lt_log2_self

/-- The quotient lies between the power and the next one. -/
theorem floorLog2_bounds {num den : Nat} (hnum : 0 < num) (hden : 0 < den) :
    (2 : ℚ) ^ floorLog2 num den ≤ num / den ∧ (num : ℚ) / den < 2 ^ (floorLog2 num den + 1) := by
  have hden' : (0 : ℚ) < den := Nat.cast_pos.mpr hden
  obtain ⟨hnumlow, hnumhigh⟩ := log2_bounds hnum
  obtain ⟨hdenlow, hdenhigh⟩ := log2_bounds hden
  have htwo : (2 : ℚ) ≠ 0 := by norm_num
  -- The quotient of the two leading powers is off by less than a factor of two either way.
  have hhigh : (num : ℚ) / den < 2 ^ ((Nat.log2 num : ℤ) - Nat.log2 den + 1) := by
    rw [div_lt_iff₀ hden']
    calc (num : ℚ) < 2 ^ ((Nat.log2 num : ℤ) + 1) := hnumhigh
      _ = 2 ^ ((Nat.log2 num : ℤ) - Nat.log2 den + 1) * 2 ^ (Nat.log2 den : ℤ) := by
        rw [← zpow_add₀ htwo]
        congr 1
        omega
      _ ≤ 2 ^ ((Nat.log2 num : ℤ) - Nat.log2 den + 1) * den :=
        mul_le_mul_of_nonneg_left hdenlow (by positivity)
  have hlow : (2 : ℚ) ^ ((Nat.log2 num : ℤ) - Nat.log2 den - 1) ≤ num / den := by
    rw [le_div_iff₀ hden']
    calc (2 : ℚ) ^ ((Nat.log2 num : ℤ) - Nat.log2 den - 1) * den
        ≤ 2 ^ ((Nat.log2 num : ℤ) - Nat.log2 den - 1) * 2 ^ ((Nat.log2 den : ℤ) + 1) :=
          mul_le_mul_of_nonneg_left hdenhigh.le (by positivity)
      _ = 2 ^ (Nat.log2 num : ℤ) := by
        rw [← zpow_add₀ htwo]
        congr 1
        omega
      _ ≤ num := hnumlow
  unfold floorLog2
  dsimp only
  generalize (Nat.log2 num : ℤ) - Nat.log2 den = k at hlow hhigh
  have htest : den * Nat.pow 2 k.toNat ≤ num * Nat.pow 2 (-k).toNat ↔ (2 : ℚ) ^ k ≤ num / den := by
    rw [← pow_toNat_div_pow_toNat htwo k, div_le_div_iff₀ (by positivity) hden', mul_comm]
    exact_mod_cast Iff.rfl
  split
  · rename_i h
    exact ⟨htest.mp h, hhigh⟩
  · rename_i h
    rw [htest, not_le] at h
    rw [sub_add_cancel]
    exact ⟨hlow, h⟩

/-- In steps of the exponent that is picked for it a quotient takes 53 bits, unless the exponent is
the least one. -/
theorem picked_exponent_bounds {num den : Nat} (hnum : 0 < num) (hden : 0 < den) {e : Int}
    (he : max (-1074) (floorLog2 num den - 52) = e) :
    (num : ℚ) / den < 2 ^ 53 * 2 ^ e ∧ (e ≠ -1074 → 2 ^ 52 * 2 ^ e ≤ (num : ℚ) / den) := by
  obtain ⟨hlow, hhigh⟩ := floorLog2_bounds hnum hden
  have htwo : (2 : ℚ) ≠ 0 := by norm_num
  constructor
  · refine hhigh.trans_le ?_
    rw [← zpow_natCast, ← zpow_add₀ htwo]
    refine zpow_le_zpow_right₀ (by norm_num) ?_
    push_cast
    omega
  · intro hhigher
    refine le_trans (le_of_eq ?_) hlow
    rw [← zpow_natCast, ← zpow_add₀ htwo]
    congr 1
    push_cast
    omega

/-! ### To the nearest number -/

/-- Half a step above the largest finite number; from here on numbers are infinite. -/
def overflow : ℚ := (2 ^ 54 - 1) * 2 ^ (970 : Int)

theorem overflow_pos : 0 < overflow := by
  have hpower : (0 : ℚ) < 2 ^ (970 : Int) := by positivity
  exact mul_pos (by norm_num) hpower

/-- What is too large in small steps is too large in larger ones. -/
theorem overflow_le_of_le {k q : ℚ} {d e : Int} (hde : d ≤ e) (hk : 0 ≤ k)
    (hlarge : overflow ≤ k * 2 ^ d) (hq : k * 2 ^ e ≤ q) : overflow ≤ q := by
  have hpower : (2 : ℚ) ^ d ≤ 2 ^ e := zpow_le_zpow_right₀ (by norm_num) hde
  exact hlarge.trans ((mul_le_mul_of_nonneg_left hpower hk).trans hq)

/-- The quotient is at most half a step away from the magnitude. -/
def Magnitude.Near (m : Magnitude) (q : ℚ) : Prop :=
  (m.significand - 1 / 2 : ℚ) * 2 ^ m.exponent ≤ q ∧
    q ≤ (m.significand + 1 / 2 : ℚ) * 2 ^ m.exponent

namespace Number

/-- What is put together is the magnitude next to the quotient, or the quotient is too large. -/
theorem ofParts_cases (negative : Bool) {s : Nat} {e : Int} {q : ℚ} (hs : s < 2 ^ 53)
    (hleast : -1074 ≤ e) (hfull : e = -1074 ∨ 2 ^ 52 ≤ s) (hlarge : 971 < e → overflow ≤ q)
    (hlow : (s - 1 / 2 : ℚ) * 2 ^ e ≤ q) (hhigh : q ≤ (s + 1 / 2 : ℚ) * 2 ^ e) :
    (∃ m, ofParts negative s e = .finite negative m ∧ m.Near q) ∨
      ofParts negative s e = .infinite negative ∧ overflow ≤ q := by
  unfold ofParts
  split
  · exact Or.inl ⟨_, rfl, hlow, hhigh⟩
  · rename_i hform
    refine Or.inr ⟨rfl, hlarge ?_⟩
    by_contra hsmall
    exact hform ⟨hs, hleast, by omega, hfull⟩

/-- A significand that has been rounded up to 54 bits is halved, and the exponent raised. -/
theorem ofParts_carried (negative : Bool) {e : Int} {q : ℚ} (hleast : -1074 ≤ e)
    (hlow : (2 ^ 53 - 1 / 2 : ℚ) * 2 ^ e ≤ q) (hhigh : q ≤ (2 ^ 53 + 1 / 2 : ℚ) * 2 ^ e) :
    (∃ m, ofParts negative (Nat.pow 2 52) (e + 1) = .finite negative m ∧ m.Near q) ∨
      ofParts negative (Nat.pow 2 52) (e + 1) = .infinite negative ∧ overflow ≤ q := by
  have htwo : (2 : ℚ) ≠ 0 := by norm_num
  have hstep : (0 : ℚ) < 2 ^ e := by positivity
  refine ofParts_cases negative (by decide) (by omega) (Or.inr (le_refl _)) ?_ ?_ ?_
  · intro he
    refine overflow_le_of_le (d := 970 + 1) (by omega) (by norm_num) ?_ hlow
    rw [zpow_add₀ htwo, overflow]
    linarith
  · rw [zpow_add_one₀ htwo]
    refine le_trans ?_ hlow
    push_cast [Nat.pow_eq]
    linarith
  · rw [zpow_add_one₀ htwo]
    refine hhigh.trans ?_
    push_cast [Nat.pow_eq]
    linarith

/-- **Rounding moves a quotient by half a step at most**, or it is too large for a number. -/
theorem nearest_cases (negative : Bool) {num den : Nat} (hnum : 0 < num) (hden : 0 < den) :
    (∃ m, nearest negative num den = .finite negative m ∧ m.Near ((num : ℚ) / den)) ∨
      nearest negative num den = .infinite negative ∧ overflow ≤ (num : ℚ) / den := by
  have htwo : (2 : ℚ) ≠ 0 := by norm_num
  unfold nearest
  rw [if_neg hnum.ne']
  dsimp only
  generalize hexponent : max (-1074) (floorLog2 num den - 52) = e
  have hleast : -1074 ≤ e := hexponent ▸ le_max_left ..
  obtain ⟨hmost, hfull⟩ := picked_exponent_bounds hnum hden hexponent
  -- What is rounded to the significand is the quotient in steps of the exponent.
  have hscaled : ((num * Nat.pow 2 (-e).toNat : Nat) : ℚ) / (den * Nat.pow 2 e.toNat : Nat) =
      num / den / 2 ^ e := by
    rw [← pow_toNat_div_pow_toNat htwo e]
    push_cast [Nat.pow_eq]
    field_simp
  have hpositive : 0 < den * Nat.pow 2 e.toNat := Nat.mul_pos hden (Nat.pow_pos (by decide))
  obtain ⟨hlow, hhigh⟩ := roundHalfEven_bounds (num * Nat.pow 2 (-e).toNat) hpositive
  have hstep : (0 : ℚ) < 2 ^ e := by positivity
  rw [hscaled, le_div_iff₀ hstep] at hlow
  rw [hscaled, div_le_iff₀ hstep] at hhigh
  generalize roundHalfEven (num * Nat.pow 2 (-e).toNat) (den * Nat.pow 2 e.toNat) = s at *
  generalize (num : ℚ) / den = q at *
  split
  · rename_i hs
    refine ofParts_cases negative hs hleast ?_ ?_ hlow hhigh
    · by_contra hnone
      obtain ⟨hhigher, hshort⟩ := not_or.mp hnone
      have hless : (2 : ℚ) ^ 52 ≤ s + 1 / 2 :=
        le_of_mul_le_mul_right ((hfull hhigher).trans hhigh) hstep
      have hcast : (s : ℚ) + 1 ≤ 2 ^ 52 := by exact_mod_cast Nat.lt_of_not_le hshort
      linarith
    · intro he
      refine overflow_le_of_le (k := 2 ^ 52) (d := 970 + 2) (by omega) (by positivity) ?_
        (hfull (by omega))
      have hpower : (0 : ℚ) < 2 ^ (970 : Int) := by positivity
      have hfour : (2 : ℚ) ^ (2 : Int) = 4 := by norm_num
      rw [zpow_add₀ htwo, hfour, overflow]
      generalize (2 : ℚ) ^ (970 : Int) = p at hpower
      linarith
  · rename_i hs
    -- The significand can only have been rounded up to the next power of two.
    have hround : s = 2 ^ 53 := by
      have hless : (s : ℚ) - 1 / 2 < 2 ^ 53 := lt_of_mul_lt_mul_right (hlow.trans_lt hmost) hstep.le
      have hcast : (s : ℚ) < 2 ^ 53 + 1 := by linarith
      have hle : s < 2 ^ 53 + 1 := by exact_mod_cast hcast
      have hge : ¬ s < 2 ^ 53 := hs
      omega
    have hlow' : (2 ^ 53 - 1 / 2 : ℚ) * 2 ^ e ≤ q := by
      rw [hround] at hlow
      exact_mod_cast hlow
    have hhigh' : q ≤ (2 ^ 53 + 1 / 2 : ℚ) * 2 ^ e := by
      rw [hround] at hhigh
      exact_mod_cast hhigh
    exact ofParts_carried negative hleast hlow' hhigh'

/-- **Of a quotient of one or more, rounding adds at most one part in `2 ^ 53`.** -/
theorem nearest_le (negative : Bool) {num den : Nat} (hden : 0 < den) (hone : den ≤ num)
    {m : Magnitude} (h : nearest negative num den = .finite negative m) :
    m.value * (2 ^ 53 - 1) ≤ num / den * 2 ^ 53 := by
  have hden' : (0 : ℚ) < den := Nat.cast_pos.mpr hden
  have hquotient : (1 : ℚ) ≤ num / den := by
    rw [one_le_div₀ hden']
    exact_mod_cast hone
  obtain ⟨m', hfinite, hlow, hhigh⟩ | ⟨hinfinite, -⟩ :=
    nearest_cases negative (hden.trans_le hone) hden
  · obtain rfl : m' = m := (Number.finite.inj (hfinite.symm.trans h)).2
    generalize (num : ℚ) / den = q at *
    have hfull : (2 : ℚ) ^ 52 ≤ m'.significand := by
      rcases m'.canonical.2.2.2 with hleast | hfull
      · -- At the least exponent no magnitude comes near one.
        have hpower : (2 : ℚ) ^ m'.exponent ≤ 1 / 2 ^ 54 := by
          rw [hleast, one_div, ← zpow_natCast, ← zpow_neg]
          exact zpow_le_zpow_right₀ (by norm_num) (by norm_num)
        have hbits : (m'.significand : ℚ) + 1 ≤ 2 ^ 53 := by exact_mod_cast m'.canonical.1
        have hsmall : (m'.significand + 1 / 2 : ℚ) * 2 ^ m'.exponent ≤ 2 ^ 53 * (1 / 2 ^ 54) :=
          mul_le_mul (by linarith) hpower (by positivity) (by positivity)
        norm_num at hsmall
        linarith
      · exact_mod_cast hfull
    have hstep : (0 : ℚ) < 2 ^ m'.exponent := by positivity
    unfold Magnitude.value
    nlinarith
  · rw [hinfinite] at h
    contradiction

/-- A quotient of one or more becomes a finite number, unless it is too large for one. -/
theorem exists_nearest_eq (negative : Bool) {num den : Nat} (hden : 0 < den) (hone : den ≤ num)
    (hsmall : (num : ℚ) / den < overflow) :
    ∃ m, nearest negative num den = .finite negative m ∧
      m.value * (2 ^ 53 - 1) ≤ num / den * 2 ^ 53 := by
  obtain ⟨m, hfinite, -⟩ | ⟨-, hlarge⟩ := nearest_cases negative (hden.trans_le hone) hden
  · exact ⟨m, hfinite, nearest_le negative hden hone hfinite⟩
  · exact absurd hsmall (not_lt.mpr hlarge)

end Number

end QueryBar
