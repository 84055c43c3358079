import Mathlib.RingTheory.Multiplicity
import Mathlib.RingTheory.Coprime.Basic
import Mathlib.Data.Nat.Prime.Int
import Feel.Proofs.SignificantDigits

/-!
# Exact powers

A power is computed by squaring, and every product on the way is rounded. Where the power itself has
few digits none of the products that it is made of is changed: a lower power of the base never has
more significant digits than a higher one. Only squares beyond the exponent are rounded, and these
are not used.

* `Decimal.digits_pow_of_le`: lower powers have no more significant digits.
* `Number.value_powDecimal`: a power of few digits is computed exactly.
* `Number.narrowest`: the narrowest representation of an integer.
* `Number.pow?_exact`: powers of few digits are exact, in the narrowest representation.
-/

namespace Feel

namespace Rounding

variable {p : ℕ} {x : ℚ}

/-- Without a factor of ten a number has no powers with one. -/
theorem not_ten_dvd_pow {m : ℤ} (h : ¬ (10 : ℤ) ∣ m) (n : ℕ) : ¬ (10 : ℤ) ∣ m ^ n := by
  have hten : (10 : ℤ) = 2 * 5 := rfl
  have hcoprime : IsCoprime (2 : ℤ) 5 := ⟨-2, 1, by norm_num⟩
  rw [hten] at h ⊢
  intro hpow
  exact h (hcoprime.mul_dvd (Int.prime_two.dvd_of_dvd_pow (dvd_of_mul_right_dvd hpow))
    ((Nat.prime_iff_prime_int.mp Nat.prime_five).dvd_of_dvd_pow (dvd_of_mul_left_dvd hpow)))

/-- The digits of a number without zeros at its end are its significant digits. -/
theorem abs_lt_of_digits {m e : ℤ} (hnot : ¬ (10 : ℤ) ∣ m) (h : Digits p (m * 10 ^ e)) :
    |m| < 10 ^ p := by
  obtain ⟨n, s, hn, heq⟩ := h
  have hshift {a b i j : ℤ} (hij : i ≤ j) (h : (a : ℚ) * 10 ^ i = b * 10 ^ j) :
      a = b * 10 ^ (j - i).toNat := by
    have hexponent : j = ((j - i).toNat : ℤ) + i := by omega
    rw [hexponent, zpow_add₀ (by norm_num), ← mul_assoc, zpow_natCast] at h
    exact_mod_cast mul_right_cancel₀ (Decimal.ten_zpow_pos i).ne' h
  rcases lt_or_ge e s with hlt | hle
  · -- the other form would leave a factor of ten
    refine absurd ?_ hnot
    rw [hshift hlt.le heq]
    exact (dvd_pow_self 10 (by omega)).mul_left n
  · rw [hshift hle heq.symm, abs_mul] at hn
    exact (le_mul_of_one_le_right (abs_nonneg m)
      (Int.one_le_abs (pow_ne_zero _ (by norm_num)))).trans_lt hn

end Rounding

namespace Decimal

open Rounding

variable {d : Decimal} {p : ℕ}

/-- A decimal that is not zero has a form without zeros at its end. -/
theorem exists_trimmed (hd : d.digits ≠ 0) :
    ∃ m e : ℤ, ¬ (10 : ℤ) ∣ m ∧ d.value = m * 10 ^ e := by
  have hfinite : FiniteMultiplicity (10 : ℤ) d.digits :=
    Int.finiteMultiplicity_iff.mpr ⟨by decide, hd⟩
  obtain ⟨m, hm, hnot⟩ := hfinite.exists_eq_pow_mul_and_not_dvd
  refine ⟨m, multiplicity 10 d.digits + -d.scale, hnot, ?_⟩
  rw [value, zpow_add₀ (by norm_num), zpow_natCast, ← mul_assoc]
  congr 1
  conv_lhs => rw [hm]
  push_cast
  ring

theorem digits_one (hp : p ≠ 0) : Digits p 1 :=
  ⟨1, 0, by simpa using one_lt_pow₀ (by norm_num : (1 : ℤ) < 10) hp, by norm_num⟩

/-- **Lower powers have no more significant digits.** -/
theorem digits_pow_of_le {n k : ℕ} (hp : p ≠ 0) (h : Digits p (d.value ^ n)) (hk : k ≤ n) :
    Digits p (d.value ^ k) := by
  rcases Nat.eq_zero_or_pos k with rfl | hpos
  · rw [pow_zero]
    exact digits_one hp
  by_cases hd : d.digits = 0
  · have hzero : d.value = 0 := value_of_isZero (beq_iff_eq.mpr hd)
    rw [hzero, zero_pow hpos.ne']
    exact ⟨0, 0, by simp, by simp⟩
  · obtain ⟨m, e, hnot, hvalue⟩ := exists_trimmed hd
    have hpow (j : ℕ) : d.value ^ j = ((m ^ j : ℤ) : ℚ) * 10 ^ (e * j) := by
      rw [hvalue, mul_pow, Int.cast_pow, zpow_mul, zpow_natCast]
    have hm : 1 ≤ |m| := Int.one_le_abs (by rintro rfl; exact hnot (dvd_zero 10))
    rw [hpow] at h ⊢
    refine ⟨m ^ k, e * k, ?_, rfl⟩
    calc |m ^ k| = |m| ^ k := abs_pow m k
      _ ≤ |m| ^ n := pow_le_pow_right₀ hm hk
      _ = |m ^ n| := (abs_pow m n).symm
      _ < 10 ^ p := abs_lt_of_digits (not_ten_dvd_pow hnot n) h

end Decimal

/-! ### Squaring -/

namespace Number

open Rounding

/-- **A power of few digits is computed exactly.** The base stands for the power `j` of a number and
the product so far for the power `i`, and they do so until no digit of the exponent is left. -/
theorem value_powDecimal {x : Decimal} {fuel n i j : ℕ} {b r : Decimal} (hfuel : n < 2 ^ fuel)
    (hb : n ≠ 0 → b.value = x.value ^ j) (hr : r.value = x.value ^ i)
    (h : Digits defaultPrecision (x.value ^ (i + j * n))) :
    (powDecimal fuel b n r).value = x.value ^ (i + j * n) := by
  induction fuel generalizing n i j b r with
  | zero =>
    obtain rfl : n = 0 := by simpa using hfuel
    rw [powDecimal, hr, mul_zero, add_zero]
  | succ fuel ih =>
    rw [powDecimal]
    split
    · next hn => rw [hn, hr, mul_zero, add_zero]
    · next hn =>
      have hrounded {c : Decimal} {k : ℕ} (hc : c.value = x.value ^ k) (hk : k ≤ i + j * n) :
          (c.roundTo defaultPrecision).value = x.value ^ k := by
        rw [← hc]
        exact Decimal.value_roundTo (by decide)
          (hc ▸ Decimal.digits_pow_of_le (by decide) h hk)
      have hsquare (hn' : n / 2 ≠ 0) :
          ((b.mul b).roundTo defaultPrecision).value = x.value ^ (j + j) := by
        refine hrounded (by rw [Decimal.value_mul, hb hn, pow_add]) ?_
        nlinarith [show 2 ≤ n by omega]
      have hhalf := Nat.div_add_mod n 2
      split
      · next hodd =>
        have hexponent : i + j + (j + j) * (n / 2) = i + j * n := by
          calc i + j + (j + j) * (n / 2) = i + j * (2 * (n / 2) + 1) := by ring
            _ = i + j * n := by rw [← hodd, hhalf]
        have hproduct : ((r.mul b).roundTo defaultPrecision).value = x.value ^ (i + j) :=
          hrounded (by rw [Decimal.value_mul, hr, hb hn, pow_add]) (hexponent ▸ Nat.le_add_right ..)
        rw [← hexponent] at h ⊢
        exact ih (by omega) hsquare hproduct h
      · next heven =>
        have hexponent : i + (j + j) * (n / 2) = i + j * n := by
          calc i + (j + j) * (n / 2) = i + j * (2 * (n / 2) + 0) := by ring
            _ = i + j * n := by rw [← Nat.mod_two_ne_one.mp heven, hhalf]
        rw [← hexponent] at h ⊢
        exact ih (by omega) hsquare hr h

end Number

/-! ### Integers in the narrowest representation -/

namespace Decimal

variable {d : Decimal} {v : ℤ}

/-- Places behind the point that are all zero leave no more digits than an integer has before it. -/
theorem cutter_of_value (hscale : 0 < d.scale) (hd : d.digits ≠ 0) (h : d.value = v) :
    d.digits = v * d.cutter d.scale := by
  have hdigits : d.digits = v * pow10 d.scale.toNat := by
    have hexponent : -d.scale = -(d.scale.toNat : ℤ) := by omega
    rw [value, hexponent, zpow_neg, zpow_natCast, ← natCast_pow10, ← div_eq_mul_inv,
      div_eq_iff (Nat.cast_ne_zero.mpr (pow10_pos _).ne')] at h
    exact_mod_cast h
  have hv : v ≠ 0 := by
    rintro rfl
    exact hd (by rw [hdigits, zero_mul])
  have hlarge : pow10 d.scale.toNat < pow10 (digitCount d.digits.natAbs) := by
    refine lt_of_le_of_lt ?_ (lt_pow10_digitCount _)
    rw [hdigits, Int.natAbs_mul, Int.natAbs_natCast]
    exact Nat.le_mul_of_pos_left _ (Int.natAbs_pos.mpr hv)
  have hplaces : d.scale.toNat < digitCount d.digits.natAbs :=
    (Nat.pow_lt_pow_iff_right (by decide : 1 < 10)).mp hlarge
  rw [cutter, min_eq_left (by omega)]
  exact hdigits

/-- A decimal that denotes an integer is integral, and cut to that integer. -/
theorem truncate_of_value (h : d.value = v) : d.isIntegral = true ∧ d.truncate = v := by
  rw [isIntegral, truncate]
  by_cases hscale : d.scale ≤ 0
  · have hdigits : ((d.digitsAt 0 : ℤ) : ℚ) = v := by
      rw [← h, ← value_digitsAt hscale, value, neg_zero, zpow_zero, mul_one]
    rw [if_pos hscale, decide_eq_true hscale, Bool.true_or]
    exact ⟨rfl, by exact_mod_cast hdigits⟩
  · rw [if_neg hscale, decide_eq_false hscale, Bool.false_or, beq_iff_eq]
    by_cases hd : d.digits = 0
    · rw [value_of_isZero (beq_iff_eq.mpr hd)] at h
      obtain rfl : v = 0 := by exact_mod_cast h.symm
      rw [hd]
      exact ⟨Int.zero_emod _, Int.zero_tdiv _⟩
    · have hcut := cutter_of_value (not_le.mp hscale) hd h
      have hne : (d.cutter d.scale : ℤ) ≠ 0 := Int.natCast_ne_zero.mpr (pow10_pos _).ne'
      constructor
      · conv_lhs => rw [hcut]
        exact Int.mul_emod_left _ _
      · conv_lhs => rw [hcut]
        exact Int.mul_tdiv_cancel _ hne

end Decimal

namespace Number

open Rounding

variable {a b : Number} {x : ℚ} {n : ℕ}

/-- The narrowest representation of an integer. -/
def narrowest (v : ℤ) : NumberKind :=
  if -2 ^ 31 ≤ v ∧ v < 2 ^ 31 then .integer
  else if -2 ^ 63 ≤ v ∧ v < 2 ^ 63 then .long
  else .decimal

/-- A number that is a natural number. One of binary64 is so if it has no fraction and that natural
number as its integer. -/
def IsNat (b : Number) (n : ℕ) : Prop :=
  b.value? = some (n : ℚ) ∨ ∃ x l, b = double x ∧ b.toInt64? = some l ∧ l.toInt = n

theorem int64?_of_range {v : ℤ} (h : -2 ^ 63 ≤ v ∧ v < 2 ^ 63) :
    ∃ l, int64? v = some l ∧ l.toInt = v := by
  have hsome : int64? v = some (Int64.ofInt v) := if_pos (by omega)
  exact ⟨_, hsome, toInt_of_int64? hsome⟩

theorem IsNat.toInt64? (h : b.IsNat n) (hn : n < 2 ^ 63) :
    ∃ l, b.toInt64? = some l ∧ l.toInt = n := by
  rcases h with h | ⟨x, l, rfl, hl, hvalue⟩
  · cases b with
    | double x => cases h
    | integer i =>
      refine ⟨i.toInt64, rfl, ?_⟩
      rw [Int32.toInt_toInt64]
      exact_mod_cast Option.some.inj h
    | long l => exact ⟨l, rfl, by exact_mod_cast Option.some.inj h⟩
    | decimal d =>
      obtain ⟨hintegral, htruncate⟩ := Decimal.truncate_of_value (v := n) (Option.some.inj h)
      rw [Number.toInt64?, if_pos hintegral, htruncate]
      exact int64?_of_range (by omega)
  · exact ⟨l, hl, hvalue⟩

/-- An integral decimal is brought to the narrowest representation of its integer. -/
theorem narrowed_of_value {d : Decimal} {v : ℤ} (h : d.value = v) :
    (narrowed d).value? = some (v : ℚ) ∧ (narrowed d).kind = narrowest v := by
  obtain ⟨hintegral, htruncate⟩ := Decimal.truncate_of_value h
  rw [narrowed, if_pos hintegral, htruncate, narrowest]
  by_cases hlong : -2 ^ 63 ≤ v ∧ v < 2 ^ 63
  · obtain ⟨l, hl, hvalue⟩ := int64?_of_range hlong
    simp only [hl, hvalue, value_ofInt, true_and]
    by_cases hint : -2 ^ 31 ≤ v ∧ v < 2 ^ 31
    · have hsome : int32? v = some (Int32.ofInt v) := if_pos (by omega)
      rw [ofInt, hsome, if_pos hint]
      rfl
    · have hnone : int32? v = none := if_neg (by omega)
      rw [ofInt, hnone, if_neg hint, if_pos hlong]
      simp only [ofIntLong, hl, kind]
  · have hnone : int64? v = none := if_neg (by omega)
    rw [hnone, if_neg (by omega), if_neg hlong]
    exact ⟨congrArg some h, rfl⟩

theorem exists_int_of_value (ha : a.value? = some x) (h : a.kind ≠ .decimal) :
    ∃ m : ℤ, x = m := by
  cases a with
  | integer i => exact ⟨_, (Option.some.inj ha).symm⟩
  | long l => exact ⟨_, (Option.some.inj ha).symm⟩
  | double _ => cases ha
  | decimal d => exact absurd rfl h

/-- What is computed for an exponent that is a natural number. -/
theorem pow?_of_isNat (ha : a.kind ≠ .double) (hb : b.IsNat n) (hn : n ≤ maxExactExponent) :
    let d := (powDecimal (n.log2 + 1) a.toDecimal n .one).normalized
    a.pow? b = some (if a.kind = .decimal then decimal d else narrowed d) := by
  intro d
  obtain ⟨l, hl, hvalue⟩ := hb.toInt64? (hn.trans_lt (by decide))
  have hnot : ¬ (n : ℤ) < 0 := by omega
  cases a with
  | double x => exact absurd rfl ha
  | _ => simp [pow?, hl, hvalue, hn, hnot, kind, d]

/-- **Powers of few digits are exact.** The base is an integer or a decimal and the exponent a
natural number up to 9999. If the power has no more than 34 significant digits, that is the number
which is computed: as an integer in the narrowest representation if the base is an integer, and as a
decimal if the base is one. -/
theorem pow?_exact (ha : a.value? = some x) (hb : b.IsNat n) (hn : n ≤ 9999)
    (hdigits : Digits 34 (x ^ n)) :
    ∃ r, a.pow? b = some r ∧ r.value? = some (x ^ n) ∧
      (a.kind = .decimal → r.kind = .decimal) ∧
      (a.kind ≠ .decimal → ∃ v : ℤ, x ^ n = v ∧ r.kind = narrowest v) := by
  have hkind : a.kind ≠ .double := by
    intro h
    cases a <;> cases h
    cases ha
  have hbase : a.toDecimal.value = x := value_toDecimal ha
  set d := (powDecimal (n.log2 + 1) a.toDecimal n .one).normalized with hd
  have hvalue : d.value = x ^ n := by
    have hone : Decimal.one.value = a.toDecimal.value ^ 0 := by
      rw [pow_zero]
      exact Decimal.value_ofInt 1
    have hexponent : 0 + 1 * n = n := by omega
    rw [hd, Decimal.value_normalized, value_powDecimal (j := 1) Nat.lt_log2_self
      (fun _ => (pow_one _).symm) hone (by rwa [hexponent, hbase]), hexponent, hbase]
  refine ⟨_, pow?_of_isNat hkind hb hn, ?_⟩
  split
  · next hdecimal =>
    exact ⟨congrArg some hvalue, fun _ => rfl, fun h => absurd hdecimal h⟩
  · next hinteger =>
    obtain ⟨m, rfl⟩ := exists_int_of_value ha hinteger
    have hpow : d.value = (m ^ n : ℤ) := by rw [hvalue, Int.cast_pow]
    obtain ⟨hnarrowed, hnarrowest⟩ := narrowed_of_value hpow
    refine ⟨by rw [hnarrowed, Int.cast_pow], fun h => absurd h hinteger, fun _ => ?_⟩
    exact ⟨m ^ n, (Int.cast_pow m n).symm, hnarrowest⟩

/-- The least 64-bit integer is a power of an integer, and so still an integer. The third power of
`1.5` is a decimal, also for an exponent that is written `3.00`. -/
theorem pow?_exact_least :
    let a := integer (-2)
    let b := decimal ⟨15, 1⟩
    let c := decimal ⟨300, 2⟩
    (a.value? = some (-2) ∧ (integer 63).IsNat 63 ∧ Digits 34 ((-2) ^ 63) ∧
      ∃ r, a.pow? (integer 63) = some r ∧ r.value? = some (-9223372036854775808) ∧
        r.kind = .long) ∧
    b.value? = some (3 / 2) ∧ c.IsNat 3 ∧ Digits 34 ((3 / 2) ^ 3) ∧
      ∃ r, b.pow? c = some r ∧ r.value? = some (27 / 8) ∧ r.kind = .decimal := by
  intro a b c
  have hinteger {i : Int32} {m : ℤ} (h : i.toInt = m) : (integer i).value? = some (m : ℚ) :=
    congrArg (fun m : ℤ => some (m : ℚ)) h
  have ha : a.value? = some (-2) := hinteger (m := -2) (by decide)
  have hn : (integer 63).IsNat 63 := .inl (hinteger (m := 63) (by decide))
  have hpower : Digits 34 ((-2) ^ 63) := ⟨-9223372036854775808, 0, by norm_num, by norm_num⟩
  have hb : b.value? = some (3 / 2) := congrArg some (by norm_num [Decimal.value])
  have hc : c.IsNat 3 := .inl (congrArg some (by norm_num [Decimal.value]))
  have hcube : Digits 34 ((3 / 2) ^ 3) := ⟨3375, -3, by norm_num, by norm_num⟩
  obtain ⟨r, hr, hvalue, -, hkind⟩ := pow?_exact ha hn (by decide) hpower
  obtain ⟨v, hv, hnarrowest⟩ := hkind (by decide)
  obtain ⟨s, hs, hvalue', hkind', -⟩ := pow?_exact hb hc (by decide) hcube
  refine ⟨⟨ha, hn, hpower, r, hr, by rw [hvalue]; norm_num, ?_⟩, hb, hc, hcube, s, hs,
    by rw [hvalue']; norm_num, hkind' rfl⟩
  obtain rfl : v = -9223372036854775808 := by
    norm_num at hv
    exact_mod_cast hv.symm
  exact hnarrowest

end Number

end Feel
