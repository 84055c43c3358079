import Mathlib.Data.Rat.Floor
import Mathlib.Tactic.LinearCombination
import Feel.Eval.Denote
import Feel.Proofs.ExactArithmetic

/-!
# Remainders of floored division

A remainder is first taken toward zero and then moved by the divisor where its sign is another. What
comes of it is the remainder of the division that rounds down, for every pair of signs and scales:
digits at one scale have such remainders as integers, and a common scale changes no quotient.

* `Decimal.normalized_eq_of_value`: decimals that denote the same have one normal form.
* `fmod_eq_ite_tmod`: the correction of a truncated remainder.
* `Decimal.value_floorRemainder`: what a floored remainder denotes.
* `Number.modulo_floored`: the function on numbers.
-/

namespace Feel

/-! ### Normal forms -/

namespace Decimal

variable {a b d : Decimal}

/-- All zeros at the end are counted where there is fuel for every digit. -/
theorem not_dvd_of_trailingZeros {fuel n : Nat} (hn : n ≠ 0) (hfuel : n < pow10 fuel) :
    ¬ 10 ∣ n / pow10 (trailingZeros fuel n) := by
  induction fuel generalizing n with
  | zero => exact absurd (Nat.lt_one_iff.mp hfuel) hn
  | succ fuel ih =>
    rw [trailingZeros]
    split
    · next h =>
      have hten : pow10 1 = 10 := rfl
      have hsmall : n / 10 < pow10 fuel := by
        rw [pow10_add, hten] at hfuel
        omega
      rw [pow10_add, hten, Nat.mul_comm, ← Nat.div_div_eq_div_mul]
      exact ih (by omega) hsmall
    · next h =>
      rw [pow10_zero, Nat.div_one]
      exact fun hdvd => h (Nat.mod_eq_zero_of_dvd hdvd)

/-- The digits of a normal form do not end with a zero. -/
theorem not_dvd_digits_normalized (h : d.digits ≠ 0) : ¬ (10 : Int) ∣ d.normalized.digits := by
  have hn : d.digits.natAbs ≠ 0 := Int.natAbs_ne_zero.mpr h
  rw [← Int.natAbs_dvd_natAbs, normalized, if_neg h, Int.natAbs_mul, Int.natAbs_sign_of_ne_zero h,
    Nat.one_mul, Int.natAbs_natCast]
  exact not_dvd_of_trailingZeros hn (lt_pow10_digitCount _)

theorem value_eq_zero_iff : d.value = 0 ↔ d.digits = 0 := by
  rw [value, mul_eq_zero, or_iff_left (ten_zpow_pos _).ne', Int.cast_eq_zero]

/-- Of two equal numbers without zeros at the end neither has more places. -/
theorem scale_le_of_value (h : a.value = b.value) (ha : ¬ (10 : Int) ∣ a.digits) :
    a.scale ≤ b.scale := by
  by_contra hlt
  obtain ⟨k, hk⟩ : ∃ k : Nat, a.scale = b.scale + (k + 1) :=
    ⟨(a.scale - b.scale - 1).toNat, by omega⟩
  refine ha ⟨b.digits * 10 ^ k, ?_⟩
  have hpos := ten_zpow_pos (-a.scale)
  have hdigits : (a.digits : ℚ) * 10 ^ (-a.scale) = b.digits * 10 ^ (k + 1) * 10 ^ (-a.scale) := by
    have hexponent : -b.scale = ((k + 1 : Nat) : Int) + -a.scale := by omega
    rw [value, value, hexponent, zpow_add₀ (by norm_num), zpow_natCast, ← mul_assoc] at h
    exact h
  have hint : (a.digits : ℚ) = b.digits * 10 ^ (k + 1) := mul_right_cancel₀ hpos.ne' hdigits
  have hexact : a.digits = b.digits * 10 ^ (k + 1) := by exact_mod_cast hint
  rw [hexact, pow_succ]
  ring

/-- **Decimals that denote the same number have one normal form.** -/
theorem normalized_eq_of_value (h : a.value = b.value) : a.normalized = b.normalized := by
  by_cases hzero : a.digits = 0
  · have hb : b.digits = 0 := by rwa [← value_eq_zero_iff, ← h, value_eq_zero_iff]
    rw [normalized, if_pos hzero, normalized, if_pos hb]
  have hb : b.digits ≠ 0 := by rwa [ne_eq, ← value_eq_zero_iff, ← h, value_eq_zero_iff]
  have hvalue : a.normalized.value = b.normalized.value := by
    rw [value_normalized, value_normalized, h]
  have hscale : a.normalized.scale = b.normalized.scale :=
    le_antisymm (scale_le_of_value hvalue (not_dvd_digits_normalized hzero))
      (scale_le_of_value hvalue.symm (not_dvd_digits_normalized hb))
  rw [value, value, hscale] at hvalue
  have hdigits : a.normalized.digits = b.normalized.digits := by
    exact_mod_cast mul_right_cancel₀ (ten_zpow_pos _).ne' hvalue
  cases hna : a.normalized
  cases hnb : b.normalized
  simp_all

end Decimal

/-! ### Remainders of integers -/

section Integers

variable {n : Int}

/-- A truncated remainder whose sign is not that of the divisor is moved by the divisor. -/
theorem fmod_eq_ite_tmod (m : Int) (hn : n ≠ 0) :
    m.fmod n = if m.tmod n ≠ 0 ∧ (m.tmod n < 0) ≠ (n < 0) then m.tmod n + n else m.tmod n := by
  have hnonneg := m.emod_nonneg hn
  have hlt := m.emod_lt hn
  rw [Int.tmod_eq_emod, Int.fmod_eq_emod]
  simp only [Int.dvd_iff_emod_eq_zero, eq_iff_iff, ne_eq]
  rcases Int.lt_or_lt_of_ne hn with hneg | hpos
  · have habs : (n.natAbs : Int) = -n := by omega
    grind
  · have habs : (n.natAbs : Int) = n := by omega
    grind

/-- The remainder of floored division is less than the divisor and on its side of zero. -/
theorem fmod_div_bounds (m : Int) (hn : n ≠ 0) :
    0 ≤ (m.fmod n : ℚ) / n ∧ (m.fmod n : ℚ) / n < 1 := by
  rcases Int.lt_or_lt_of_ne hn with hneg | hpos
  · have hneg' : (n : ℚ) < 0 := by exact_mod_cast hneg
    have hbounds : n < m.fmod n ∧ m.fmod n ≤ 0 := by
      have hnonneg := Int.fmod_nonneg_of_pos (-m) (b := -n) (by omega)
      have hlt := Int.fmod_lt_of_pos (-m) (b := -n) (by omega)
      rw [Int.neg_fmod_neg] at hnonneg hlt
      omega
    refine ⟨div_nonneg_of_nonpos (by exact_mod_cast hbounds.2) hneg'.le, ?_⟩
    rw [div_lt_one_of_neg hneg']
    exact_mod_cast hbounds.1
  · have hpos' : (0 : ℚ) < n := by exact_mod_cast hpos
    refine ⟨div_nonneg (by exact_mod_cast Int.fmod_nonneg_of_pos m hpos) hpos'.le, ?_⟩
    rw [div_lt_one hpos']
    exact_mod_cast Int.fmod_lt_of_pos m hpos

/-- A quotient of integers, rounded down. -/
theorem floor_div_eq_fdiv (m : Int) (hn : n ≠ 0) : ⌊(m : ℚ) / n⌋ = m.fdiv n := by
  obtain ⟨hnonneg, hlt⟩ := fmod_div_bounds m hn
  have hn' : (n : ℚ) ≠ 0 := by exact_mod_cast hn
  have hm : (m : ℚ) = n * m.fdiv n + m.fmod n := by
    exact_mod_cast (Int.mul_fdiv_add_fmod m n).symm
  have hquotient : (m : ℚ) / n = m.fdiv n + (m.fmod n : ℚ) / n := by
    conv_lhs => rw [hm]
    rw [add_div, mul_div_cancel_left₀ _ hn']
  rw [Int.floor_eq_iff, hquotient]
  exact ⟨by linarith, by linarith⟩

end Integers

/-! ### Remainders of fractions -/

section Fractions

variable {a b : ℚ}

/-- The remainder that a quotient rounded down leaves. -/
theorem sub_mul_floor_bounds (hb : b ≠ 0) :
    0 ≤ (a - b * ⌊a / b⌋) / b ∧ (a - b * ⌊a / b⌋) / b < 1 := by
  have hquotient : (a - b * ⌊a / b⌋) / b = Int.fract (a / b) := by
    rw [sub_div, mul_div_cancel_left₀ _ hb]
    rfl
  rw [hquotient]
  exact ⟨Int.fract_nonneg _, Int.fract_lt_one _⟩

/-- Numbers with a positive quotient are on one side of zero. -/
theorem signs_of_div_pos (h : 0 < a / b) : (0 < a ↔ 0 < b) ∧ (a < 0 ↔ b < 0) := by
  rcases div_pos_iff.mp h with ⟨ha, hb⟩ | ⟨ha, hb⟩
  · exact ⟨iff_of_true ha hb, iff_of_false ha.le.not_gt hb.le.not_gt⟩
  · exact ⟨iff_of_false ha.le.not_gt hb.le.not_gt, iff_of_true ha hb⟩

end Fractions

/-! ### Remainders of decimals -/

namespace Decimal

/-- The correction is that of the remainder of the digits at a common scale. -/
theorem floorRemainder_value_eq (a : Decimal) {b : Decimal} (hb : b.digits ≠ 0) :
    let s := max a.scale b.scale
    (Builtin.floorRemainder a b).value =
      value ⟨(a.digitsAt s).fmod (b.digitsAt s), s⟩ := by
  intro s
  have hsign : b.digits < 0 ↔ b.digitsAt s < 0 := by
    rw [← Int.sign_neg_iff, ← sign_digitsAt b s, Int.sign_neg_iff]
  have hn : b.digitsAt s ≠ 0 := by
    rwa [ne_eq, ← Int.sign_eq_zero_iff_zero, sign_digitsAt, Int.sign_eq_zero_iff_zero]
  have hrem : a.rem b = ⟨(a.digitsAt s).tmod (b.digitsAt s), s⟩ := rfl
  unfold Builtin.floorRemainder
  rw [fmod_eq_ite_tmod _ hn, hrem]
  dsimp only
  simp only [hsign]
  split
  · rw [value_add, value_add_digits, value_digitsAt (Int.le_max_right ..)]
  · rfl

/-- **A corrected remainder is that of floored division.** -/
theorem value_floorRemainder (a : Decimal) {b : Decimal} (hb : b.value ≠ 0) :
    (Builtin.floorRemainder a b).value = a.value - b.value * ⌊a.value / b.value⌋ := by
  have hdigits : b.digits ≠ 0 := by rwa [ne_eq, ← value_eq_zero_iff]
  rw [floorRemainder_value_eq a hdigits]
  set s := max a.scale b.scale
  have ha : a.value = value ⟨a.digitsAt s, s⟩ := (value_digitsAt (Int.le_max_left ..)).symm
  have hb' : b.value = value ⟨b.digitsAt s, s⟩ := (value_digitsAt (Int.le_max_right ..)).symm
  have hn : b.digitsAt s ≠ 0 := by
    rw [hb', ne_eq, value_eq_zero_iff] at hb
    exact hb
  have hunit := (ten_zpow_pos (-s)).ne'
  have hfloor : ⌊a.value / b.value⌋ = (a.digitsAt s).fdiv (b.digitsAt s) := by
    rw [ha, hb', value, value, mul_div_mul_right _ _ hunit, floor_div_eq_fdiv _ hn]
  rw [hfloor, ha, hb', value, value, value, Int.fmod_def]
  push_cast
  ring

end Decimal

/-! ### The function on numbers -/

namespace Number

variable {x y : Number} {a b : ℚ}

/-- A remainder by a divisor that is not zero is that of the decimals. -/
theorem remainder_numbers (hx : x.value? = some a) (hy : y.value? = some b) (hb : b ≠ 0) :
    ∃ r : Decimal, Builtin.remainder (.number x) (.number y) = Builtin.ofDecimal r ∧
      r.value = a - b * ⌊a / b⌋ := by
  have ha' : x.toDecimal.value = a := value_toDecimal hx
  have hb' : y.toDecimal.value = b := value_toDecimal hy
  have hzero : y.toDecimal.isZero = false := by
    rw [Decimal.isZero, beq_eq_false_iff_ne, ne_eq, ← Decimal.value_eq_zero_iff, hb']
    exact hb
  refine ⟨Builtin.floorRemainder x.toDecimal y.toDecimal, ?_, ?_⟩
  · simp [Builtin.remainder, Args.decimal?, Datum.asNumber?, hzero]
  · rw [Decimal.value_floorRemainder _ (by rwa [hb']), ha', hb']

/-- **The remainder of numbers is that of floored division.** For a dividend and a divisor that are
no binary64 numbers, and a divisor that is not zero, it is exact: zero or of the sign of the
divisor, of a lesser magnitude than the divisor, and away from the dividend by a multiple of the
divisor. Operands of other representations that denote the same numbers have the same remainder. -/
theorem modulo_floored (hx : x.value? = some a) (hy : y.value? = some b) (hb : b ≠ 0) :
    ∃ r : Decimal,
      (∀ x' y' : Number, x'.value? = some a → y'.value? = some b → ∀ precision invoke,
        Action.callBuiltin "modulo" [.number x', .number y'] precision invoke =
          .ok (.number (.decimal r))) ∧
      r.value = a - b * ⌊a / b⌋ ∧
      (r.value = 0 ∨ (0 < r.value ↔ 0 < b) ∧ (r.value < 0 ↔ b < 0)) ∧
      |r.value| < |b| ∧ ∃ k : ℤ, a - r.value = k * b := by
  obtain ⟨r, -, hr⟩ := remainder_numbers hx hy hb
  have hvalue : r.normalized.value = a - b * ⌊a / b⌋ := by rw [Decimal.value_normalized, hr]
  obtain ⟨hnonneg, hlt⟩ := sub_mul_floor_bounds (a := a) hb
  rw [← hvalue] at hnonneg hlt
  refine ⟨r.normalized, fun x' y' hx' hy' precision invoke => ?_, hvalue, ?_, ?_, ⌊a / b⌋, ?_⟩
  · obtain ⟨r', hremainder, hr'⟩ := remainder_numbers hx' hy' hb
    change Except.ok (Builtin.remainder (.number x') (.number y')) = _
    rw [hremainder, Builtin.ofDecimal, Decimal.normalized_eq_of_value (hr'.trans hr.symm)]
  · rcases eq_or_ne r.normalized.value 0 with hzero | hne
    · exact .inl hzero
    · exact .inr (signs_of_div_pos (hnonneg.lt_of_ne (div_ne_zero hne hb).symm))
  · rwa [← div_lt_one (abs_pos.mpr hb), ← abs_div, abs_of_nonneg hnonneg]
  · rw [hvalue]
    ring

/-- With five, minus twelve and a half leaves two and a half, at any scale of its digits. -/
theorem modulo_floored_fraction :
    let a := decimal ⟨-125, 1⟩
    let b := integer 5
    a.value? = some (-25 / 2) ∧ b.value? = some 5 ∧ (5 : ℚ) ≠ 0 ∧
      ∃ r : Decimal, r.value = 5 / 2 ∧ ∀ precision invoke,
        Action.callBuiltin "modulo" [.number a, .number b] precision invoke =
          .ok (.number (.decimal r)) ∧
        Action.callBuiltin "modulo" [.number (decimal ⟨-1250, 2⟩), .number (long 5)] precision
          invoke = .ok (.number (.decimal r)) := by
  intro a b
  have hfive : (5 : Int32).toInt = 5 ∧ (5 : Int64).toInt = 5 := by decide
  have ha : a.value? = some (-25 / 2) := by norm_num [a, value?, Decimal.value]
  have hb : b.value? = some 5 := by simp [b, value?, hfive]
  have ha' : (decimal ⟨-1250, 2⟩).value? = some (-25 / 2) := by norm_num [value?, Decimal.value]
  have hb' : (long 5).value? = some 5 := by simp [value?, hfive]
  obtain ⟨r, hr, hvalue, -⟩ := modulo_floored ha hb (by norm_num)
  refine ⟨ha, hb, by norm_num, r, ?_, fun precision invoke =>
    ⟨hr a b ha hb precision invoke, hr _ _ ha' hb' precision invoke⟩⟩
  have hfloor : ⌊(-25 / 2 : ℚ) / 5⌋ = -3 := by norm_num [Int.floor_eq_iff]
  rw [hvalue, hfloor]
  norm_num

end Number

end Feel
