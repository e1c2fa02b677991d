/-
Every finite number that is written is read as a number.

The reader gathers as many digits as fit in 64 bits, rounds what it has, multiplies by a power of
ten that is itself rounded, and rounds the product.  So it can come out above the number that was
written, and there is a bound beyond which it gives up.  Two parts in `2 ^ 53` are all that the
first two roundings add (`Numeral.scale_isSome`); that is less than what is left up to the bound for
all magnitudes but the three largest (`Numeral.below_of_near`), and these are tried out.
-/
import QueryBar.Proofs.Json.Written

namespace QueryBar.Json.Numeral

variable {digits : List Char} {n : Numeral} {m : Magnitude}

/-! ### Gathering digits -/

theorem ofDigitChars_cons_eq (sum : Nat) (c : Char) (cs : List Char) :
    Nat.ofDigitChars 10 (c :: cs) sum = Nat.ofDigitChars 10 cs (sum * 10 + digitsValue [c]) := by
  unfold digitsValue
  rw [Nat.ofDigitChars_cons, Nat.ofDigitChars_cons, Nat.ofDigitChars_nil, Nat.mul_zero,
    Nat.zero_add, Nat.mul_comm]

/-- Digits are gathered from the front. -/
theorem exists_gather_eq (sum : Nat) (digits : List Char) : ∃ done left,
    digits = done ++ left ∧ gather sum digits = (Nat.ofDigitChars 10 done sum, left) := by
  induction digits generalizing sum with
  | nil => exact ⟨[], [], rfl, rfl⟩
  | cons c cs ih =>
      unfold gather
      dsimp only
      split
      · obtain ⟨done, left, rfl, hgather⟩ := ih (sum * 10 + digitsValue [c])
        refine ⟨c :: done, left, rfl, ?_⟩
        rw [hgather, ofDigitChars_cons_eq]
      · exact ⟨[], c :: cs, rfl, rfl⟩

/-- Nineteen digits always fit. -/
theorem gather_of_short {sum k : Nat} (hdigits : ∀ c ∈ digits, c.isDigit = true)
    (hsum : sum < 10 ^ k) (hshort : digits.length + k ≤ 19) :
    gather sum digits = (Nat.ofDigitChars 10 digits sum, []) := by
  induction digits generalizing sum k with
  | nil => rfl
  | cons c cs ih =>
      rw [List.length_cons] at hshort
      have hvalue : digitsValue [c] ≤ 9 := by
        have hrange : 48 ≤ c.val.toNat ∧ c.val.toNat ≤ 57 := by
          simpa [Char.isDigit, UInt32.le_iff_toNat_le] using hdigits c (by simp)
        show 10 * 0 + (c.val.toNat - 48) ≤ 9
        omega
      have hnext : sum * 10 + digitsValue [c] < 10 ^ (k + 1) := by
        rw [Nat.pow_succ]
        omega
      have hroom : (10 : Nat) ^ (k + 1) ≤ 10 ^ 19 := Nat.pow_le_pow_right (by decide) (by omega)
      unfold gather
      dsimp only
      rw [if_pos ⟨by omega, by omega⟩,
        ih (fun c hc => hdigits c (List.mem_cons_of_mem _ hc)) hnext (by omega),
        ofDigitChars_cons_eq]

/-- What is left out can only make a row of digits smaller. -/
theorem ofDigitChars_le (digits : List Char) (sum : Nat) :
    sum * 10 ^ digits.length ≤ Nat.ofDigitChars 10 digits sum := by
  rw [Nat.ofDigitChars_eq_ofDigitChars_zero, Nat.mul_comm]
  exact Nat.le_add_right ..

/-! ### Scaling by a power of ten -/

theorem power_eq {k : Nat} (hk : k ≤ 308) : power k = .nearest false (10 ^ k) 1 := by
  have hden : (-(k : Int)).toNat = 0 := by omega
  unfold power Number.ofDecimal Decimal.num Decimal.den
  dsimp only
  rw [if_neg (by decide), if_neg (by omega), if_neg (by unfold digitCount; omega), hden,
    Nat.one_mul, Int.toNat_natCast]
  rfl

/-- Two roundings of numbers from one on add two parts in `2 ^ 53`. -/
theorem isInfinite_times {x y : Magnitude} {p q : ℚ} (hx : x.value * (2 ^ 53 - 1) ≤ p * 2 ^ 53)
    (hy : y.value * (2 ^ 53 - 1) ≤ q * 2 ^ 53)
    (hsmall : p * q * 2 ^ 106 < overflow * (2 ^ 53 - 1) ^ 2) :
    (times (.finite false x) (.finite false y)).isInfinite = false := by
  unfold times
  dsimp only
  by_cases hnum : x.num * y.num = 0
  · rw [hnum]
    rfl
  obtain ⟨m, hfinite, -⟩ | ⟨-, hlarge⟩ := Number.nearest_cases false (Nat.pos_of_ne_zero hnum)
    (Nat.mul_pos x.den_pos y.den_pos)
  · rw [hfinite]
    rfl
  · push_cast at hlarge
    rw [← div_mul_div_comm, x.num_div_den, y.num_div_den] at hlarge
    have hy' : 0 ≤ y.value * (2 ^ 53 - 1) := mul_nonneg y.value_nonneg (by norm_num)
    have hp : 0 ≤ p * 2 ^ 53 := le_trans (mul_nonneg x.value_nonneg (by norm_num)) hx
    have hproduct := mul_le_mul hx hy hy' hp
    have hbelow := mul_le_mul_of_nonneg_right hlarge (show (0 : ℚ) ≤ (2 ^ 53 - 1) ^ 2 by norm_num)
    exfalso
    linarith

/-- No number has a power of ten beyond the last one that is scaled by. -/
theorem overflow_lt : overflow < 10 ^ (309 : Int) := by
  have hlt : (2 ^ 54 - 1) * 2 ^ 970 < 10 ^ 309 := by decide +kernel
  have hcast : (((2 ^ 54 - 1) * 2 ^ 970 : Nat) : ℚ) < (10 ^ 309 : Nat) := Nat.cast_lt.mpr hlt
  have hfront : ((2 ^ 54 - 1 : Nat) : ℚ) = 2 ^ 54 - 1 := by norm_num
  rw [Nat.cast_mul, hfront, Nat.cast_pow, Nat.cast_pow, ← zpow_natCast, ← zpow_natCast] at hcast
  exact hcast

/-- **Scaling succeeds below the bound**, less what the roundings may add. -/
theorem scale_isSome {sum : Nat} {exponent : Int}
    (hsmall : (sum : ℚ) * 10 ^ exponent * 2 ^ 106 < overflow * (2 ^ 53 - 1) ^ 2) :
    (scale sum exponent).isSome = true := by
  unfold scale
  dsimp only
  split
  · rfl
  rename_i hsum
  have hone : (1 : ℚ) ≤ sum := by exact_mod_cast Nat.pos_of_ne_zero hsum
  have hpower : (0 : ℚ) < 10 ^ exponent := by positivity
  have hbelow : (sum : ℚ) * 10 ^ exponent < overflow := by
    have hloss := mul_le_mul_of_nonneg_left (show ((2 : ℚ) ^ 53 - 1) ^ 2 ≤ 2 ^ 106 by norm_num)
      overflow_pos.le
    exact lt_of_mul_lt_mul_right (hsmall.trans_le hloss) (by positivity)
  have hsecond : (10 : ℚ) ^ exponent ≤ sum * 10 ^ exponent := le_mul_of_one_le_left hpower.le hone
  split
  · rename_i hlarge
    have hten : (10 : ℚ) ^ (309 : Int) ≤ 10 ^ exponent :=
      zpow_le_zpow_right₀ (by norm_num) (by omega)
    exact absurd ((hten.trans hsecond).trans_lt hbelow) (not_lt.mpr overflow_lt.le)
  split
  · rename_i hmost hwhole
    obtain ⟨k, rfl⟩ := Int.eq_ofNat_of_zero_le hwhole
    rw [zpow_natCast] at *
    have hten : (1 : ℚ) ≤ 10 ^ k := one_le_pow₀ (by norm_num)
    have hfirst : (sum : ℚ) ≤ sum * 10 ^ k := le_mul_of_one_le_right (by positivity) hten
    obtain ⟨x, hx, hxle⟩ := Number.exists_nearest_eq false one_pos (Nat.pos_of_ne_zero hsum)
      (by rw [Nat.cast_one, div_one]; linarith)
    obtain ⟨y, hy, hyle⟩ := Number.exists_nearest_eq false one_pos
      (Nat.pow_pos (by decide : 0 < 10))
      (show ((10 ^ k : Nat) : ℚ) / (1 : Nat) < overflow by push_cast; rw [div_one]; linarith)
    rw [Int.toNat_natCast, power_eq (by omega), hx, hy, isInfinite_times hxle hyle ?_]
    · rfl
    · push_cast
      rw [div_one, div_one]
      exact hsmall
  · split
    · rfl
    · split <;> rfl

/-! ### Numerals that are read as numbers -/

/-- A sound numeral with few digits in front of its point is read as a number below the bound. -/
theorem value?_isSome (h : n.Sound) (hshort : n.whole.length ≤ 19)
    (hsmall : n.magnitude * 2 ^ 106 < overflow * (2 ^ 53 - 1) ^ 2) :
    n.value?.isSome = true := by
  have hwhole := gather_of_short h.whole (show 0 < 10 ^ 0 by decide) hshort
  obtain ⟨done, left, hfraction, hgather⟩ :=
    exists_gather_eq (Nat.ofDigitChars 10 n.whole 0) n.fraction
  unfold value?
  rw [hwhole]
  dsimp only
  rw [hgather]
  dsimp only
  split
  · rfl
  · rw [Option.isSome_map]
    refine scale_isSome (lt_of_le_of_lt ?_ hsmall)
    refine mul_le_mul_of_nonneg_right ?_ (by positivity)
    -- The digits that were dropped would only have made it larger.
    have hten : (10 : ℚ) ≠ 0 := by norm_num
    have hdigits : Nat.ofDigitChars 10 done (Nat.ofDigitChars 10 n.whole 0) * 10 ^ left.length ≤
        digitsValue (n.whole ++ n.fraction) := by
      unfold digitsValue
      rw [hfraction, Nat.ofDigitChars_append, Nat.ofDigitChars_append]
      exact ofDigitChars_le left _
    have hexponent : ((List.length ([] : List Char) : Int) -
        (n.fraction.length - left.length : Nat) + n.exponent.getD 0) =
          n.exponent.getD 0 - n.fraction.length + left.length := by
      have hlength : left.length ≤ n.fraction.length := by
        rw [hfraction, List.length_append]
        omega
      push_cast [hlength]
      simp only [List.length_nil]
      omega
    have hdigits' : (Nat.ofDigitChars 10 done (Nat.ofDigitChars 10 n.whole 0) : ℚ) *
        10 ^ left.length ≤ digitsValue (n.whole ++ n.fraction) := by exact_mod_cast hdigits
    unfold magnitude
    rw [hexponent, zpow_add₀ hten, mul_left_comm, mul_comm, zpow_natCast]
    exact mul_le_mul_of_nonneg_right hdigits' (by positivity)

/-- All magnitudes but the three largest stay below the bound when they are written. -/
theorem below_of_near {q : ℚ} (hother : m.exponent < 971 ∨ m.significand + 4 ≤ 2 ^ 53)
    (hnear : m.Near q) : q * 2 ^ 106 < overflow * (2 ^ 53 - 1) ^ 2 := by
  have htwo : (2 : ℚ) ≠ 0 := by norm_num
  have hstep : (0 : ℚ) < 2 ^ (970 : Int) := by positivity
  have hq : q ≤ (2 ^ 53 - 7 / 2) * (2 ^ (970 : Int) * 2) := by
    refine hnear.2.trans ?_
    rcases hother with hlower | hsmall
    · have hpower : (2 : ℚ) ^ m.exponent ≤ 2 ^ (970 : Int) :=
        zpow_le_zpow_right₀ (by norm_num) (by omega)
      have hbits : (m.significand : ℚ) + 1 ≤ 2 ^ 53 := by exact_mod_cast m.canonical.1
      have hproduct : (m.significand + 1 / 2 : ℚ) * 2 ^ m.exponent ≤ 2 ^ 53 * 2 ^ (970 : Int) :=
        mul_le_mul (by linarith) hpower (by positivity) (by positivity)
      refine hproduct.trans ?_
      generalize (2 : ℚ) ^ (970 : Int) = p at hstep
      linarith
    · have hpower : (2 : ℚ) ^ m.exponent ≤ 2 ^ (970 : Int) * 2 := by
        rw [← zpow_add_one₀ htwo]
        exact zpow_le_zpow_right₀ (by norm_num) m.canonical.2.2.1
      have hbits : (m.significand : ℚ) + 4 ≤ 2 ^ 53 := by exact_mod_cast hsmall
      exact mul_le_mul (by linarith) hpower (by positivity) (by norm_num)
  unfold overflow
  generalize (2 : ℚ) ^ (970 : Int) = p at hstep hq
  linarith

/-- The three largest magnitudes. -/
def largest : List Magnitude :=
  [⟨2 ^ 53 - 1, 971, by decide⟩, ⟨2 ^ 53 - 2, 971, by decide⟩, ⟨2 ^ 53 - 3, 971, by decide⟩]

theorem mem_largest (h : ¬ (m.exponent < 971 ∨ m.significand + 4 ≤ 2 ^ 53)) : m ∈ largest := by
  obtain ⟨s, e, hform⟩ := m
  obtain ⟨hexponent, hbits⟩ := not_or.mp h
  dsimp only at hexponent hbits
  have hmost : e ≤ 971 := hform.2.2.1
  have hless : s < 2 ^ 53 := hform.1
  obtain rfl : e = 971 := by omega
  obtain rfl | rfl | rfl : s = 2 ^ 53 - 1 ∨ s = 2 ^ 53 - 2 ∨ s = 2 ^ 53 - 3 := by omega
  · exact List.mem_cons_self
  · exact List.mem_cons_of_mem _ List.mem_cons_self
  · exact List.mem_cons_of_mem _ (List.mem_cons_of_mem _ List.mem_cons_self)

/-- The three largest magnitudes are written as numerals that are read in spite of the roundings. -/
theorem value?_largest : ∀ m ∈ largest, (ofMagnitude false m).value?.isSome = true ∧
    (ofMagnitude true m).value?.isSome = true := by decide +kernel

/-- **Every finite number that is written is read as a number.** -/
theorem value?_ofMagnitude (negative : Bool) (m : Magnitude) :
    (ofMagnitude negative m).value?.isSome = true := by
  by_cases hm : m.significand = 0
  · unfold ofMagnitude
    rw [if_pos hm]
    cases negative <;> rfl
  by_cases hother : m.exponent < 971 ∨ m.significand + 4 ≤ 2 ^ 53
  · refine value?_isSome (sound_ofMagnitude negative m) ?_ ?_
    · exact (length_whole_ofMagnitude negative m).trans (by decide)
    · rw [magnitude_ofMagnitude negative hm]
      exact below_of_near hother (Magnitude.near_shortest .toEven hm).2
  · have htried := value?_largest m (mem_largest hother)
    cases negative with
    | false => exact htried.1
    | true => exact htried.2

end QueryBar.Json.Numeral
