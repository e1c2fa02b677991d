/-
What JSON's layout writes for a finite number.

The layout spells out a numeral (`Numeral.ofMagnitude`) that can be read again, and that stands for
the decimal which was picked for the number, wherever the layout puts the point.
-/
import Mathlib.Tactic.Ring
import QueryBar.Proofs.Json.Numerals
import QueryBar.Proofs.Number.Shortest

namespace QueryBar

/-! ### The digits that are written -/

/-- The digits of a natural number begin with no nought, unless it is nought. -/
theorem head_toDigits {k : Nat} (h : 0 < k) : ∀ d ∈ (Nat.toDigits 10 k).head?, d ≠ '0' := by
  induction k using Nat.strong_induction_on with
  | _ k ih =>
      by_cases hsmall : k < 10
      · have hdigit : ∀ k < 10, 0 < k → Nat.digitChar k ≠ '0' := by decide
        rw [Nat.toDigits_of_lt_base hsmall]
        rintro d hd
        obtain rfl := Option.some.inj hd
        exact hdigit k hsmall h
      · rw [Nat.toDigits_of_base_le (by decide) (by omega),
          List.head?_append_of_ne_nil _ Nat.toDigits_ne_nil]
        exact ih (k / 10) (by omega) (by omega)

theorem digitsValue_replicate_append (k : Nat) (digits : List Char) :
    digitsValue (List.replicate k '0' ++ digits) = digitsValue digits := by
  unfold digitsValue
  rw [Nat.ofDigitChars_append, Nat.ofDigitChars_replicate_zero, Nat.mul_zero]

theorem digitsValue_append_replicate (digits : List Char) (k : Nat) :
    digitsValue (digits ++ List.replicate k '0') = 10 ^ k * digitsValue digits := by
  unfold digitsValue
  rw [Nat.ofDigitChars_append, Nat.ofDigitChars_replicate_zero]

namespace Magnitude

/-- The digits that are picked for the magnitude, with the noughts at their end. -/
def row (m : Magnitude) : List Char := Nat.toDigits 10 (m.shortest .toEven).digits

/-- The digits that are written for the magnitude. -/
def digits (m : Magnitude) : List Char := (m.row.reverse.dropWhile (· == '0')).reverse

/-- Where the point stands, counted from the front of the digits. -/
def place (m : Magnitude) : Int := m.row.length + (m.shortest .toEven).exponent

variable {m : Magnitude}

/-- Only noughts are left out. -/
theorem exists_row_eq (m : Magnitude) : ∃ k, m.row = m.digits ++ List.replicate k '0' := by
  have hsplit := List.takeWhile_append_dropWhile (p := (· == '0')) (l := m.row.reverse)
  have hnoughts : m.row.reverse.takeWhile (· == '0') =
      List.replicate (m.row.reverse.takeWhile (· == '0')).length '0' := by
    refine List.eq_replicate_of_mem fun c hc => ?_
    have hnought := List.all_takeWhile (p := (· == '0')) (l := m.row.reverse)
    exact eq_of_beq (List.all_eq_true.mp hnought c hc)
  refine ⟨(m.row.reverse.takeWhile (· == '0')).length, ?_⟩
  have hrow := congrArg List.reverse hsplit
  rw [List.reverse_append, List.reverse_reverse, hnoughts, List.reverse_replicate] at hrow
  exact hrow.symm

theorem isDigit_of_mem_digits : ∀ c ∈ m.digits, c.isDigit = true := by
  obtain ⟨k, hrow⟩ := m.exists_row_eq
  intro c hc
  have hmem : c ∈ m.row := hrow ▸ List.mem_append_left _ hc
  exact Json.Numeral.isDigit_of_mem_toDigits c hmem

/-- What is written for a magnitude begins with a digit that is no nought. -/
theorem head_digits (hm : m.significand ≠ 0) :
    m.digits ≠ [] ∧ ∀ d ∈ m.digits.head?, d ≠ '0' := by
  obtain ⟨k, hrow⟩ := m.exists_row_eq
  have hpositive := (near_shortest .toEven hm).1
  have hhead : ∀ d ∈ m.row.head?, d ≠ '0' := head_toDigits hpositive
  have hne : m.digits ≠ [] := by
    intro hnil
    rw [hnil, List.nil_append] at hrow
    cases k with
    | zero => exact Nat.toDigits_ne_nil hrow
    | succ k => exact hhead '0' (by rw [hrow]; rfl) rfl
  refine ⟨hne, ?_⟩
  rw [hrow, List.head?_append_of_ne_nil _ hne] at hhead
  exact hhead

/-- The digits and the place of the point stand for the decimal that was picked. -/
theorem value_digits (m : Magnitude) :
    (digitsValue m.digits : ℚ) * 10 ^ (m.place - m.digits.length) = (m.shortest .toEven).value := by
  obtain ⟨k, hrow⟩ := m.exists_row_eq
  have hdigits : digitsValue m.row = (m.shortest .toEven).digits :=
    Nat.ofDigitChars_toDigits (by decide) (by decide)
  have hten : (10 : ℚ) ≠ 0 := by norm_num
  rw [hrow, digitsValue_append_replicate] at hdigits
  have hplace : m.place - m.digits.length = k + (m.shortest .toEven).exponent := by
    unfold place
    rw [hrow, List.length_append, List.length_replicate]
    push_cast
    omega
  unfold Decimal.value
  rw [← hdigits, hplace, zpow_add₀ hten, zpow_natCast]
  push_cast
  ring

end Magnitude

/-! ### The numeral that is written -/

namespace Json.Numeral

/-- The number that the numeral stands for, without its sign. -/
def magnitude (n : Numeral) : ℚ :=
  digitsValue (n.whole ++ n.fraction) * 10 ^ (n.exponent.getD 0 - n.fraction.length)

/-- Digits with the point in its place. -/
def positional (negative : Bool) (digits : List Char) (place : Int) : Numeral :=
  if place ≤ 0 then ⟨negative, ['0'], List.replicate (-place).toNat '0' ++ digits, none⟩
  else if digits.length ≤ place.toNat then
    ⟨negative, digits ++ List.replicate (place.toNat - digits.length) '0', ['0'], none⟩
  else ⟨negative, digits.take place.toNat, digits.drop place.toNat, none⟩

/-- One digit, the others behind the point, and an exponent. -/
def scientific (negative : Bool) (digits : List Char) (exponent : Int) : Numeral :=
  ⟨negative, digits.take 1, digits.drop 1, some exponent⟩

/-- The numeral that is written for a finite number. -/
def ofMagnitude (negative : Bool) (m : Magnitude) : Numeral :=
  if m.significand = 0 then ⟨negative, ['0'], ['0'], none⟩
  else if NumberLayout.json.positional (m.place - 1) then positional negative m.digits m.place
  else scientific negative m.digits (m.place - 1)

variable {negative : Bool} {digits : List Char} {place : Int} {m : Magnitude}

/-! ### Its spelling -/

theorem unsigned_positional (hne : digits ≠ []) :
    (positional negative digits place).unsigned =
      NumberLayout.positionalText true digits place := by
  have hfraction : ∀ {front : List Char}, fractionChars (front ++ digits) =
      '.' :: (front ++ digits) := by
    intro front
    unfold fractionChars
    rw [if_neg (by simp [hne])]
  unfold positional NumberLayout.positionalText
  split
  · unfold unsigned
    dsimp only
    rw [hfraction]
    simp [exponentChars]
  split
  · simp [unsigned, fractionChars, exponentChars]
  · rename_i hlong
    have hrest : (digits.drop place.toNat).isEmpty = false := by
      simp [List.isEmpty_eq_false_iff]
      omega
    unfold unsigned fractionChars
    dsimp only
    rw [hrest]
    simp [exponentChars]

theorem unsigned_scientific (exponent : Int) :
    (scientific negative digits exponent).unsigned =
      NumberLayout.exponentText digits exponent := by
  unfold scientific unsigned fractionChars NumberLayout.exponentText
  dsimp only
  simp [exponentChars]

/-- **What the layout writes is the spelling of the numeral.** -/
theorem unsigned_ofMagnitude (negative : Bool) (m : Magnitude) :
    (ofMagnitude negative m).unsigned = NumberLayout.json.magnitudeText m := by
  unfold ofMagnitude NumberLayout.magnitudeText
  split
  · rfl
  · rename_i hm
    dsimp only
    show (ite _ _ _ : Numeral).unsigned = ite (NumberLayout.json.positional (m.place - 1) = true)
      (NumberLayout.positionalText true m.digits m.place)
      (NumberLayout.exponentText m.digits (m.place - 1))
    split
    · exact unsigned_positional (Magnitude.head_digits hm).1
    · exact unsigned_scientific _

theorem isDigit_of_mem_replicate {k : Nat} : ∀ c ∈ List.replicate k '0', c.isDigit = true := by
  intro c hc
  rw [List.eq_of_mem_replicate hc]
  rfl

theorem sound_positional (hdigits : ∀ c ∈ digits, c.isDigit = true) (hne : digits ≠ [])
    (hfirst : ∀ d ∈ digits.head?, d ≠ '0') : (positional negative digits place).Sound := by
  have hnought : digits.head? ≠ some '0' := fun h => hfirst '0' h rfl
  unfold positional
  split
  · refine ⟨by simp, by simp, fun _ => rfl, fun c hc => ?_⟩
    rcases List.mem_append.mp hc with hfront | hback
    · exact isDigit_of_mem_replicate c hfront
    · exact hdigits c hback
  split
  · refine ⟨fun c hc => ?_, by simp [hne], fun h => ?_, by simp⟩
    · rcases List.mem_append.mp hc with hfront | hback
      · exact hdigits c hfront
      · exact isDigit_of_mem_replicate c hback
    · rw [List.head?_append_of_ne_nil _ hne] at h
      exact absurd h hnought
  · rename_i hplace _
    have hsome : place.toNat ≠ 0 := by omega
    refine ⟨fun c hc => hdigits c (List.mem_of_mem_take hc), ?_, fun h => ?_,
      fun c hc => hdigits c (List.mem_of_mem_drop hc)⟩
    · rw [ne_eq, List.take_eq_nil_iff, not_or]
      exact ⟨hsome, hne⟩
    · rw [List.head?_take, if_neg hsome] at h
      exact absurd h hnought

theorem sound_scientific (hdigits : ∀ c ∈ digits, c.isDigit = true) (hne : digits ≠ [])
    (exponent : Int) : (scientific negative digits exponent).Sound := by
  obtain ⟨d, ds, rfl⟩ := List.exists_cons_of_ne_nil hne
  refine ⟨fun c hc => hdigits c (List.mem_of_mem_take hc), by simp [scientific], fun h => ?_,
    fun c hc => hdigits c (List.mem_of_mem_drop hc)⟩
  obtain rfl := Option.some.inj h
  rfl

/-- **The numeral that is written can be read again.** -/
theorem sound_ofMagnitude (negative : Bool) (m : Magnitude) : (ofMagnitude negative m).Sound := by
  unfold ofMagnitude
  split
  · exact ⟨by simp, by simp, fun _ => rfl, by simp⟩
  · rename_i hm
    obtain ⟨hne, hfirst⟩ := Magnitude.head_digits hm
    split
    · exact sound_positional Magnitude.isDigit_of_mem_digits hne hfirst
    · exact sound_scientific Magnitude.isDigit_of_mem_digits hne _

/-- Not many digits stand in front of the point. -/
theorem length_whole_ofMagnitude (negative : Bool) (m : Magnitude) :
    (ofMagnitude negative m).whole.length ≤ 16 := by
  unfold ofMagnitude
  split
  · simp
  split
  · rename_i hplace
    have hfew : m.place ≤ 16 := by
      unfold NumberLayout.json at hplace
      simp only [Bool.and_eq_true, decide_eq_true_eq] at hplace
      omega
    unfold positional
    split
    · simp
    split
    · simp
      omega
    · simp
      omega
  · simp [scientific]

/-! ### What it stands for -/

theorem magnitude_positional (negative : Bool) (digits : List Char) (place : Int) :
    (positional negative digits place).magnitude =
      digitsValue digits * 10 ^ (place - digits.length) := by
  have hten : (10 : ℚ) ≠ 0 := by norm_num
  unfold positional magnitude
  split
  · rename_i hplace
    dsimp only
    rw [show ['0'] ++ (List.replicate (-place).toNat '0' ++ digits) =
      List.replicate ((-place).toNat + 1) '0' ++ digits from rfl, digitsValue_replicate_append]
    congr 2
    simp
    omega
  split
  · rename_i hplace hlong
    dsimp only
    rw [show ['0'] = List.replicate 1 '0' from rfl, List.append_assoc, ← List.replicate_add,
      digitsValue_append_replicate]
    have hexponent : place - digits.length =
        ((place.toNat - digits.length + 1 : Nat) : Int) + (0 - 1) := by omega
    rw [hexponent, zpow_add₀ hten, zpow_natCast]
    push_cast
    simp only [Option.getD_none, List.length_cons, List.length_nil]
    ring
  · rename_i hplace hlong
    dsimp only
    rw [List.take_append_drop]
    congr 2
    simp
    omega

theorem magnitude_scientific (negative : Bool) (hne : digits ≠ []) (exponent : Int) :
    (scientific negative digits exponent).magnitude =
      digitsValue digits * 10 ^ (exponent + 1 - digits.length) := by
  unfold scientific magnitude
  dsimp only
  rw [List.take_append_drop]
  have hlength := List.length_pos_iff.mpr hne
  congr 2
  simp
  omega

/-- **The numeral that is written stands for the decimal that was picked.** -/
theorem magnitude_ofMagnitude (negative : Bool) (hm : m.significand ≠ 0) :
    (ofMagnitude negative m).magnitude = (m.shortest .toEven).value := by
  unfold ofMagnitude
  rw [if_neg hm, ← m.value_digits]
  split
  · exact magnitude_positional ..
  · rw [magnitude_scientific negative (Magnitude.head_digits hm).1, sub_add_cancel]

end Json.Numeral

end QueryBar
