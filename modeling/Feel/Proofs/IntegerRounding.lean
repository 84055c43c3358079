import Mathlib
import Feel.Value.Operators

/-!
# Integers as binary64 numbers

A binary64 number keeps 53 binary digits. An integer of no more digits is kept as it is; of a longer
one the first 53 digits are kept, rounded to the nearest and to even digits half way. Rounding keeps
the order of integers but not their differences: two integers can become one number.

* `Binary64.nearest`: the integer that a number keeps of an integer.
* `Binary64.nearest_mono`, `Binary64.nearest_of_natAbs_le`: rounding is monotone, and exact up to
  `2 ^ 53`.
* `Binary64.Denotes`: an unpacked number has the value of an integer.
* `Binary64.order?_ofInt`: the numbers of two integers are ordered as what they keep.
* `Number.IsInteger`: integers of the machine.
* `Datum.compareAs_double`, `Datum.compareAs_natural`: how they are compared.
-/

namespace Feel

namespace Binary64

/-! ### Rounding on natural numbers -/

/-- The quotient of `m` by `2 ^ k`, rounded to the nearest and half way to even. -/
def nearestQuotient (m k : Nat) : Nat :=
  if 2 * (m % 2 ^ k) < 2 ^ k then m / 2 ^ k
  else if 2 * (m % 2 ^ k) = 2 ^ k then m / 2 ^ k + m / 2 ^ k % 2
  else m / 2 ^ k + 1

/-- The first 53 binary digits of a number, rounded, with zeros for the others. -/
def nearestNat (n : Nat) : Nat := nearestQuotient n (n.log2 - 52) * 2 ^ (n.log2 - 52)

@[simp] theorem nearestQuotient_zero (m : Nat) : nearestQuotient m 0 = m := by
  simp [nearestQuotient, Nat.mod_one]

/-- The rounded quotient is the quotient or one more. -/
theorem div_le_nearestQuotient (m k : Nat) : m / 2 ^ k ≤ nearestQuotient m k := by
  unfold nearestQuotient
  split
  · exact Nat.le_refl _
  · split <;> omega

theorem nearestQuotient_le (m k : Nat) : nearestQuotient m k ≤ m / 2 ^ k + 1 := by
  unfold nearestQuotient
  split
  · omega
  · split <;> omega

theorem nearestQuotient_mono (k : Nat) {a b : Nat} (h : a ≤ b) :
    nearestQuotient a k ≤ nearestQuotient b k := by
  rcases Nat.lt_or_eq_of_le (Nat.div_le_div_right (c := 2 ^ k) h) with hlt | heq
  · calc nearestQuotient a k ≤ a / 2 ^ k + 1 := nearestQuotient_le a k
      _ ≤ b / 2 ^ k := hlt
      _ ≤ nearestQuotient b k := div_le_nearestQuotient b k
  · have hmod : a % 2 ^ k ≤ b % 2 ^ k := by
      have ha := Nat.div_add_mod a (2 ^ k)
      have hb := Nat.div_add_mod b (2 ^ k)
      rw [heq] at ha
      omega
    unfold nearestQuotient
    rw [heq]
    split_ifs <;> omega

/-- Digits that are all zero make no difference to a quotient. -/
theorem nearestQuotient_mul_two_pow (m k j : Nat) :
    nearestQuotient (m * 2 ^ j) (k + j) = nearestQuotient m k := by
  have hj : 0 < 2 ^ j := Nat.two_pow_pos j
  have hdiv : m * 2 ^ j / 2 ^ (k + j) = m / 2 ^ k := by
    rw [Nat.pow_add, Nat.mul_div_mul_right _ _ hj]
  have hmod : m * 2 ^ j % 2 ^ (k + j) = m % 2 ^ k * 2 ^ j := by
    rw [Nat.pow_add, Nat.mul_mod_mul_right]
  have hlt : 2 * (m % 2 ^ k * 2 ^ j) < 2 ^ (k + j) ↔ 2 * (m % 2 ^ k) < 2 ^ k := by
    rw [← Nat.mul_assoc, Nat.pow_add]
    exact Nat.mul_lt_mul_right hj
  have heq : 2 * (m % 2 ^ k * 2 ^ j) = 2 ^ (k + j) ↔ 2 * (m % 2 ^ k) = 2 ^ k := by
    rw [← Nat.mul_assoc, Nat.pow_add]
    exact Nat.mul_left_inj (Nat.ne_of_gt hj)
  unfold nearestQuotient
  rw [hdiv, hmod]
  simp only [hlt, heq]

/-- The rounded quotient that keeps 53 digits of a number has 53 digits, unless it is the next power
of two. -/
theorem nearestQuotient_bounds {m : Nat} (hm : 2 ^ 52 ≤ m) :
    2 ^ 52 ≤ nearestQuotient m (m.log2 - 52) ∧ nearestQuotient m (m.log2 - 52) ≤ 2 ^ 53 := by
  have hne : m ≠ 0 := by omega
  have hlog : 52 ≤ m.log2 := (Nat.le_log2 hne).mpr hm
  have hlow : 2 ^ 52 ≤ m / 2 ^ (m.log2 - 52) := by
    rw [Nat.le_div_iff_mul_le (Nat.two_pow_pos _), ← Nat.pow_add, Nat.add_sub_cancel' hlog]
    exact Nat.log2_self_le hne
  have hhigh : m / 2 ^ (m.log2 - 52) < 2 ^ 53 := by
    rw [Nat.div_lt_iff_lt_mul (Nat.two_pow_pos _), ← Nat.pow_add]
    have hlt := Nat.lt_log2_self (n := m)
    rwa [show 53 + (m.log2 - 52) = m.log2 + 1 by omega]
  have h₁ := div_le_nearestQuotient m (m.log2 - 52)
  have h₂ := nearestQuotient_le m (m.log2 - 52)
  omega

/-- Numbers of up to 53 digits are kept. -/
theorem nearestNat_of_le {n : Nat} (h : n ≤ 2 ^ 53) : nearestNat n = n := by
  rcases Nat.lt_or_eq_of_le h with hlt | rfl
  · have hlog : n.log2 - 52 = 0 := by
      by_cases hn : n = 0
      · rw [hn, Nat.log2_zero]
      · have := (Nat.log2_lt hn).mpr hlt
        omega
    rw [nearestNat, hlog, nearestQuotient_zero, Nat.pow_zero, Nat.mul_one]
  · rfl

/-- Rounding does not leave the powers of two around a number. -/
theorem nearestNat_bounds {n : Nat} (hn : n ≠ 0) :
    2 ^ n.log2 ≤ nearestNat n ∧ nearestNat n ≤ 2 ^ (n.log2 + 1) := by
  by_cases h : 2 ^ 52 ≤ n
  · have hlog : 52 ≤ n.log2 := (Nat.le_log2 hn).mpr h
    obtain ⟨hlow, hhigh⟩ := nearestQuotient_bounds h
    have hlow' := Nat.mul_le_mul_right (2 ^ (n.log2 - 52)) hlow
    have hhigh' := Nat.mul_le_mul_right (2 ^ (n.log2 - 52)) hhigh
    rw [← Nat.pow_add, show 52 + (n.log2 - 52) = n.log2 by omega] at hlow'
    rw [← Nat.pow_add, show 53 + (n.log2 - 52) = n.log2 + 1 by omega] at hhigh'
    exact ⟨hlow', hhigh'⟩
  · rw [nearestNat_of_le (by omega)]
    exact ⟨Nat.log2_self_le hn, Nat.le_of_lt Nat.lt_log2_self⟩

theorem nearestNat_le_of_lt {n k : Nat} (hn : n ≠ 0) (h : n < 2 ^ k) : nearestNat n ≤ 2 ^ k :=
  (nearestNat_bounds hn).2.trans (Nat.pow_le_pow_right Nat.two_pos ((Nat.log2_lt hn).mpr h))

/-- Rounding keeps the order of numbers: below one power of two the same digits go, and across
a power of two the bounds are apart. -/
theorem nearestNat_mono {a b : Nat} (h : a ≤ b) : nearestNat a ≤ nearestNat b := by
  by_cases ha : a = 0
  · rw [ha, nearestNat_of_le (Nat.zero_le _)]
    exact Nat.zero_le _
  have hb : b ≠ 0 := by omega
  have hlog : a.log2 ≤ b.log2 := by
    rw [Nat.le_log2 hb]
    exact (Nat.log2_self_le ha).trans h
  rcases Nat.lt_or_eq_of_le hlog with hlt | heq
  · calc nearestNat a ≤ 2 ^ (a.log2 + 1) := (nearestNat_bounds ha).2
      _ ≤ 2 ^ b.log2 := Nat.pow_le_pow_right Nat.two_pos hlt
      _ ≤ nearestNat b := (nearestNat_bounds hb).1
  · unfold nearestNat
    rw [heq]
    exact Nat.mul_le_mul_right _ (nearestQuotient_mono _ h)

/-! ### Rounding on integers -/

/-- The integer that a binary64 number keeps of an integer. -/
def nearest (n : Int) : Int := if n < 0 then -nearestNat n.natAbs else nearestNat n.natAbs

theorem nearest_of_natAbs_le {n : Int} (h : n.natAbs ≤ 2 ^ 53) : nearest n = n := by
  unfold nearest
  rw [nearestNat_of_le h]
  split <;> omega

theorem nearest_mono {a b : Int} (h : a ≤ b) : nearest a ≤ nearest b := by
  unfold nearest
  split_ifs with ha hb hb
  · have := nearestNat_mono (show b.natAbs ≤ a.natAbs by omega)
    omega
  · omega
  · omega
  · have := nearestNat_mono (show a.natAbs ≤ b.natAbs by omega)
    omega

/-- What is kept of two integers is ordered as they are, or is the same. -/
theorem compare_nearest (a b : Int) :
    compare (nearest a) (nearest b) = compare a b ∨ compare (nearest a) (nearest b) = .eq := by
  rcases lt_trichotomy a b with hlt | rfl | hgt
  · rcases Int.lt_or_eq_of_le (nearest_mono (Int.le_of_lt hlt)) with h | h
    · exact .inl (by rw [compare_lt_iff_lt.mpr hlt, compare_lt_iff_lt.mpr h])
    · exact .inr (compare_eq_iff_eq.mpr h)
  · exact .inr (compare_eq_iff_eq.mpr rfl)
  · rcases Int.lt_or_eq_of_le (nearest_mono (Int.le_of_lt hgt)) with h | h
    · exact .inl (by rw [compare_gt_iff_gt.mpr hgt, compare_gt_iff_gt.mpr h])
    · exact .inr (compare_eq_iff_eq.mpr h.symm)

/-- Rounding changes the order of two integers exactly where it makes one number of them. -/
theorem compare_nearest_eq_iff {a b : Int} :
    compare (nearest a) (nearest b) = compare a b ↔ a = b ∨ nearest a ≠ nearest b := by
  constructor
  · intro h
    by_cases heq : nearest a = nearest b
    · rw [compare_eq_iff_eq.mpr heq] at h
      exact .inl (compare_eq_iff_eq.mp h.symm)
    · exact .inr heq
  · rintro (rfl | hne)
    · rw [compare_eq_iff_eq.mpr rfl, compare_eq_iff_eq.mpr rfl]
    · exact (compare_nearest a b).resolve_right (mt compare_eq_iff_eq.mp hne)

/-! ### Shifting mantissas -/

section Shift

open Float.Model Float.Model.UnpackedFloat

/-- What is left of a mantissa after `k` digits are shifted out: the quotient, and where the digits
that went lie against one half. -/
def shifted (m k : Nat) : ExtendedMantissa :=
  ⟨m / 2 ^ k, decide (2 ^ k ≤ 2 * (m % 2 ^ k)), decide (2 * (m % 2 ^ k) % 2 ^ k ≠ 0)⟩

theorem shiftRightOne_shifted (m k : Nat) : (shifted m k).shiftRightOne = shifted m (k + 1) := by
  have hpow : 2 ^ (k + 1) = 2 * 2 ^ k := by rw [Nat.pow_succ, Nat.mul_comm]
  have hmod : m % (2 * 2 ^ k) = m % 2 ^ k + 2 ^ k * (m / 2 ^ k % 2) := hpow ▸ Nat.mod_pow_succ
  have hlt : m % 2 ^ k < 2 ^ k := Nat.mod_lt _ (Nat.two_pow_pos k)
  simp only [shifted, ExtendedMantissa.shiftRightOne, hmod, hpow, Nat.div_div_eq_div_mul,
    Nat.mul_comm (2 ^ k) 2, ExtendedMantissa.mk.injEq, true_and]
  generalize m % 2 ^ k = r at hlt
  generalize 2 ^ k = P at hlt
  -- the digit that goes decides the comparison, the digits behind it only whether it is exact
  have hdigit : m / P % 2 = 0 ∨ m / P % 2 = 1 := Nat.mod_two_eq_zero_or_one _
  have hrest : 2 * (r + P * (m / P % 2)) % (2 * P) = 2 * r := by
    rw [Nat.mul_mod_mul_left, Nat.add_mul_mod_self_left, Nat.mod_eq_of_lt hlt]
  refine ⟨?_, ?_⟩
  · rcases hdigit with h | h
    · rw [h, Nat.mul_zero, Nat.add_zero, decide_eq_false (show ¬ 2 * P ≤ 2 * r by omega)]
      rfl
    · rw [h, Nat.mul_one, decide_eq_true (show 2 * P ≤ 2 * (r + P) by omega)]
      rfl
  · rw [hrest]
    by_cases hhalf : P ≤ 2 * r
    · simp [hhalf]
      omega
    · rw [Nat.mod_eq_of_lt (Nat.lt_of_not_le hhalf)]
      simp [hhalf]

theorem shiftRight_eq_shifted (m k : Nat) :
    (⟨m, false, false⟩ : ExtendedMantissa) >>> k = shifted m k := by
  show Nat.repeat ExtendedMantissa.shiftRightOne k _ = _
  induction k with
  | zero => simp [Nat.repeat, shifted, Nat.mod_one]
  | succ k ih => rw [Nat.repeat, ih, shiftRightOne_shifted]

/-- Rounding what is left gives the rounded quotient. -/
theorem roundedMantissa_shifted (m k : Nat) :
    (shifted m k).roundedMantissa = nearestQuotient m k := by
  have hlt : m % 2 ^ k < 2 ^ k := Nat.mod_lt _ (Nat.two_pow_pos k)
  unfold shifted nearestQuotient ExtendedMantissa.roundedMantissa
  generalize m / 2 ^ k = q
  generalize m % 2 ^ k = r at hlt
  generalize 2 ^ k = P at hlt
  rcases Nat.lt_trichotomy (2 * r) P with h | h | h
  · rw [if_pos h, decide_eq_false (Nat.not_le_of_lt h)]
    cases decide (2 * r % P ≠ 0) <;> rfl
  · rw [if_neg (by omega), if_pos h, h]
    simp [ExtendedMantissa.accuracy, Accuracy.roundToNearestEven]
  · have hrest : 2 * r % P = 2 * r - P := by
      rw [Nat.mod_eq_sub_mod (Nat.le_of_lt h), Nat.mod_eq_of_lt (by omega)]
    rw [if_neg (by omega), if_neg (by omega), hrest, decide_eq_true (Nat.le_of_lt h),
      decide_eq_true (by omega)]
    rfl

/-! ### Numbers with the value of an integer -/

/-- A number of 53 digits that has the value of a natural number, with a sign. -/
inductive DenotesNat (sign : Sign) (v : Nat) : UnpackedFloat → Prop
  | finite {m n : Nat} {e : Int} (hm : 0 < m) (low : 2 ^ 52 ≤ m) (high : m < 2 ^ 53)
      (hn : e = (n : Int) - 52) (value : m * 2 ^ n = v * 2 ^ 52) :
      DenotesNat sign v (.finite sign m e hm)

/-- The exponent that keeps 53 digits of a mantissa. -/
theorem targetExponent_eq {m : Nat} {e : Int} (hm : 2 ^ 52 ≤ m)
    (he : -1074 ≤ e + (m.log2 - 52 : Nat)) :
    Format.binary64.targetExponent (totalExponent m e) = e + (m.log2 - 52 : Nat) := by
  have hlog : 52 ≤ m.log2 := (Nat.le_log2 (by omega)).mpr hm
  simp only [Format.targetExponent, totalExponent, Format.mantissaBits, Format.minExponent]
  omega

theorem shiftToTargetExponent_eq {m : Nat} {e : Int} (hm : 2 ^ 52 ≤ m)
    (he : -1074 ≤ e + (m.log2 - 52 : Nat)) :
    shiftToTargetExponent .binary64 m e .exact =
      (shifted m (m.log2 - 52), e + (m.log2 - 52 : Nat)) := by
  rw [shiftToTargetExponent, targetExponent_eq hm he, shiftToExponent]
  have hshift : (e + (m.log2 - 52 : Nat) - e).toNat = m.log2 - 52 := by omega
  rw [hshift]
  exact congrArg (·, _) (shiftRight_eq_shifted m _)

/-- Rounding a mantissa of at least 53 digits gives the value of its rounded quotient. -/
theorem denotesNat_roundWithAccuracy {sign : Sign} {m n v : Nat} {e : Int} (hm : 2 ^ 52 ≤ m)
    (hn : e + (m.log2 - 52 : Nat) = (n : Int) - 52)
    (hv : nearestQuotient m (m.log2 - 52) * 2 ^ n = v * 2 ^ 52) :
    DenotesNat sign v (roundWithAccuracy .binary64 sign m e .exact) := by
  obtain ⟨low, high⟩ := nearestQuotient_bounds hm
  have hfirst := shiftToTargetExponent_eq (e := e) hm (by omega)
  have hsecond := shiftToTargetExponent_eq (e := (n : Int) - 52) low (by omega)
  unfold roundWithAccuracy
  rw [hfirst]
  dsimp only
  rw [roundedMantissa_shifted, hn, hsecond]
  dsimp only [shifted]
  generalize nearestQuotient m (m.log2 - 52) = q at *
  rcases Nat.lt_or_eq_of_le high with hlt | rfl
  · have hlog : q.log2 - 52 = 0 := by
      have := (Nat.log2_lt (by omega)).mpr hlt
      omega
    simp only [hlog, Nat.pow_zero, Nat.div_one]
    rw [dif_neg (by omega)]
    exact .finite _ low hlt (by simp) hv
  · -- the digits were rounded up to the next power of two, which has one digit more
    have hlog : Nat.log2 (2 ^ 53) - 52 = 1 := by rw [Nat.log2_two_pow]
    simp only [hlog]
    rw [dif_neg (by decide)]
    refine .finite (n := n + 1) _ (by decide) (by decide) (by omega) ?_
    rw [← hv, Nat.pow_succ]
    omega

/-! ### Packing -/

theorem unpackSign_packComponents {sign : Sign} {e : BitVec 11} {m : BitVec 52} :
    Sign.ofBitVec (unpackSign (packComponents .binary64 sign e m)) = sign := by
  have hbit : unpackSign (packComponents .binary64 sign e m) = sign.toBitVec := by
    ext i hi
    obtain rfl : i = 0 := by omega
    simp only [unpackSign, packComponents, ← BitVec.getLsbD_eq_getElem, BitVec.getLsbD_cast,
      BitVec.getLsbD_extractLsb]
    rw [BitVec.getLsbD_append, BitVec.getLsbD_append]
    simp
  rw [hbit]
  cases sign <;> rfl

theorem log2_of_bounds {m : Nat} (low : 2 ^ 52 ≤ m) (high : m < 2 ^ 53) : m.log2 = 52 := by
  have h₁ := (Nat.le_log2 (by omega)).mpr low
  have h₂ := (Nat.log2_lt (by omega)).mpr high
  omega

/-- The leading digit of a mantissa is not packed, and comes back when it is unpacked. -/
theorem toNat_leading_append {m : Nat} (low : 2 ^ 52 ≤ m) (high : m < 2 ^ 53) :
    (1#1 ++ BitVec.ofNat 52 m).toNat = m := by
  rw [BitVec.toNat_append, ← Nat.shiftLeft_add_eq_or_of_lt (BitVec.ofNat 52 m).isLt,
    BitVec.toNat_ofNat, BitVec.toNat_ofNat, Nat.shiftLeft_eq]
  omega

/-- A number of 53 digits with an exponent in range is packed without loss. -/
theorem unpack_pack {sign : Sign} {m : Nat} {e : Int} (hm : 0 < m) (low : 2 ^ 52 ≤ m)
    (high : m < 2 ^ 53) (he : -1074 ≤ e) (he' : e ≤ 971) :
    (Float.Model.pack (.finite sign m e hm)).unpack = .finite sign m e hm := by
  obtain ⟨k, hk⟩ : ∃ k : Nat, e + 1075 = k := ⟨(e + 1075).toNat, by omega⟩
  have hlog := log2_of_bounds low high
  have hbiased : (e + Format.binary64.exponentBias +
      Format.binary64.mantissaBitsWithoutImplicit).toNat = k := by
    show (e + 1023 + 52).toNat = k
    omega
  show UnpackedFloat.unpack .binary64 (UnpackedFloat.pack .binary64 _) = _
  rw [UnpackedFloat.pack]
  simp only [hlog, hbiased]
  rw [if_neg (by omega), if_pos (by decide), UnpackedFloat.unpack]
  simp only [unpackMantissa_packComponents, unpackExponent_packComponents,
    unpackSign_packComponents]
  have hexponent : (BitVec.ofNat 11 k).toNat = k := by
    rw [BitVec.toNat_ofNat, Nat.mod_eq_of_lt (by omega)]
  have hfinite : BitVec.ofNat 11 k ≠ -1#11 := fun h => by
    have := congrArg BitVec.toNat h
    rw [hexponent] at this
    simp at this
    omega
  have hnormal : BitVec.ofNat 11 k ≠ 0#11 := fun h => by
    have := congrArg BitVec.toNat h
    rw [hexponent] at this
    simp at this
    omega
  rw [if_neg hfinite, if_neg hnormal, UnpackedFloat.finite.injEq]
  refine ⟨rfl, toNat_leading_append low high, ?_⟩
  rw [hexponent]
  show (k : Int) - (1023 + 52) = e
  omega

/-- A number with the value of an integer that is not too large is packed without loss. -/
theorem DenotesNat.unpack_pack {sign : Sign} {v : Nat} {f : UnpackedFloat} (h : DenotesNat sign v f)
    (hv : v ≤ 2 ^ 64) : (Float.Model.pack f).unpack = f := by
  cases h with
  | @finite m n e hm low high hn value =>
    have hexp : n ≤ 64 := by
      by_contra hlarge
      have hpow : 2 ^ 65 ≤ 2 ^ n := Nat.pow_le_pow_right Nat.two_pos (by omega)
      have hmul := Nat.mul_le_mul low hpow
      omega
    exact Binary64.unpack_pack hm low high (by omega) (by omega)

/-! ### Integers -/

theorem log2_mul_two_pow {n : Nat} (hn : n ≠ 0) (j : Nat) : (n * 2 ^ j).log2 = n.log2 + j := by
  have hpos := Nat.mul_pos (Nat.pos_of_ne_zero hn) (Nat.two_pow_pos j)
  rw [Nat.log2_eq_iff (Nat.ne_of_gt hpos)]
  constructor
  · rw [Nat.pow_add]
    exact Nat.mul_le_mul_right _ (Nat.log2_self_le hn)
  · rw [Nat.add_right_comm, Nat.pow_add]
    exact Nat.mul_lt_mul_of_pos_right Nat.lt_log2_self (Nat.two_pow_pos j)

/-- Zeros behind a mantissa do not change what is rounded. -/
theorem denotesNat_mul_two_pow (sign : Sign) {n j : Nat} {e : Int} (hn : n ≠ 0)
    (hj : 52 ≤ n.log2 + j) (he : e = -(j : Int)) :
    DenotesNat sign (nearestNat n) (roundWithAccuracy .binary64 sign (n * 2 ^ j) e .exact) := by
  have hlog := log2_mul_two_pow hn j
  have hpos := Nat.mul_pos (Nat.pos_of_ne_zero hn) (Nat.two_pow_pos j)
  have hlow : 2 ^ 52 ≤ n * 2 ^ j := (Nat.le_log2 (Nat.ne_of_gt hpos)).mp (hlog ▸ hj)
  refine denotesNat_roundWithAccuracy (n := n.log2) hlow (by rw [hlog]; omega) ?_
  rw [hlog]
  by_cases h : 52 ≤ n.log2
  · rw [show n.log2 + j - 52 = n.log2 - 52 + j by omega, nearestQuotient_mul_two_pow, nearestNat,
      Nat.mul_assoc, ← Nat.pow_add, Nat.sub_add_cancel h]
  · have hkept : nearestNat n = n := nearestNat_of_le <| by
      have := (Nat.log2_lt hn).mp (show n.log2 < 53 by omega)
      omega
    have hsplit : n * 2 ^ j = n * 2 ^ (52 - n.log2) * 2 ^ (n.log2 + j - 52) := by
      rw [Nat.mul_assoc, ← Nat.pow_add]
      congr 2
      omega
    have hquotient := nearestQuotient_mul_two_pow (n * 2 ^ (52 - n.log2)) 0 (n.log2 + j - 52)
    rw [Nat.zero_add, nearestQuotient_zero] at hquotient
    rw [hkept, hsplit, hquotient, Nat.mul_assoc, ← Nat.pow_add, Nat.sub_add_cancel (by omega)]

/-- Integers of up to 53 digits become numbers by filling up their digits with zeros. -/
theorem denotesNat_toFloat {n : Nat} (hn : n ≠ 0) (h : n < 2 ^ 53) :
    DenotesNat .positive n n.toUInt64.toFloat.toModel.unpack := by
  have hlog : n.log2 < 53 := (Nat.log2_lt hn).mpr h
  have hdenotes : DenotesNat .positive n (UnpackedFloat.ofUInt64 .binary64 n.toUInt64) := by
    have hnat : n.toUInt64.toNat = n := by
      simp
      omega
    have htarget : Format.binary64.targetExponent (totalExponent n 0) = n.log2 - 52 := by
      simp only [Format.targetExponent, totalExponent, Format.mantissaBits, Format.minExponent]
      omega
    have hcompare : compare (n : Int) 0 = .gt := compare_gt_iff_gt.mpr (by omega)
    rw [UnpackedFloat.ofUInt64, hnat, UnpackedFloat.ofNat, UnpackedFloat.ofInt,
      UnpackedFloat.normalize, hcompare]
    dsimp only
    rw [UnpackedFloat.round, Int.toNat_natCast, htarget, decreaseExponent]
    dsimp only
    rw [Nat.shiftLeft_eq]
    have hround := denotesNat_mul_two_pow .positive (j := 52 - n.log2) hn (by omega) rfl
    rw [nearestNat_of_le (Nat.le_of_lt h)] at hround
    have hshift : (0 - ((n.log2 : Int) - 52)).toNat = 52 - n.log2 := by omega
    rw [hshift, Int.zero_sub]
    exact hround
  show DenotesNat .positive n (Float.Model.pack _).unpack
  rw [hdenotes.unpack_pack (by omega)]
  exact hdenotes

theorem unpack_one : (Float.ofBits 0x3FF0000000000000).toModel.unpack =
    .finite .positive (2 ^ 52) (-52) (by decide) := rfl

/-- The product with one. -/
theorem DenotesNat.mul_one {v : Nat} {f : UnpackedFloat} (h : DenotesNat .positive v f) :
    DenotesNat .positive v
      (UnpackedFloat.mul .binary64 f (.finite .positive (2 ^ 52) (-52) (by decide))) := by
  cases h with
  | @finite m n e hm low high hn value =>
    have hlog := log2_of_bounds low high
    have hproduct := log2_mul_two_pow (Nat.ne_of_gt hm) 52
    have hquotient := nearestQuotient_mul_two_pow m 0 52
    rw [Nat.zero_add, nearestQuotient_zero] at hquotient
    have hk : (m * 2 ^ 52).log2 - 52 = 52 := by omega
    refine denotesNat_roundWithAccuracy (n := n) (by omega) (by rw [hk, hn]; omega) ?_
    rw [hk, hquotient, value]

/-- The number of a literal of digits has the value that is kept of them. -/
theorem denotesNat_ofScientific {n : Nat} (hn : n ≠ 0) (h : n < 2 ^ 64) :
    DenotesNat .positive (nearestNat n) (Float.ofScientific n false 0).toModel.unpack := by
  have hbound := nearestNat_le_of_lt hn h
  unfold Float.ofScientific
  by_cases hsmall : n < 2 ^ 53 ∧ 0 ≤ 22
  · rw [dif_pos hsmall]
    have hproduct := (denotesNat_toFloat hn hsmall.1).mul_one
    rw [nearestNat_of_le (Nat.le_of_lt hsmall.1)] at hbound ⊢
    show DenotesNat .positive n (Float.Model.pack (UnpackedFloat.mul .binary64
      n.toUInt64.toFloat.toModel.unpack (Float.ofBits 0x3FF0000000000000).toModel.unpack)).unpack
    rw [unpack_one, hproduct.unpack_pack hbound]
    exact hproduct
  · rw [dif_neg hsmall]
    have hscientific : DenotesNat .positive (nearestNat n)
        (UnpackedFloat.ofScientific .binary64 n 0) := by
      have hlarge : ¬ (0 : Int) < -((2 ^ Format.binary64.exponentBits : Int) + n.log2) := by
        have : (2 ^ Format.binary64.exponentBits : Int) = 2048 := rfl
        omega
      have hlog : 53 ≤ n.log2 := (Nat.le_log2 hn).mpr (by omega)
      rw [UnpackedFloat.ofScientific, dif_neg hn, if_neg (by decide), if_neg hlarge,
        if_pos (Int.le_refl 0)]
      have hsign : Sign.positive * Sign.positive = .positive := rfl
      rw [UnpackedFloat.mul, hsign, Nat.shiftLeft_eq, Int.toNat_zero, Nat.pow_zero, Nat.mul_one,
        Int.add_zero]
      exact denotesNat_mul_two_pow _ hn (Nat.le_add_right_of_le (by omega)) rfl
    show DenotesNat .positive (nearestNat n)
      (Float.Model.pack (UnpackedFloat.ofScientific .binary64 n 0)).unpack
    rw [hscientific.unpack_pack hbound]
    exact hscientific

/-- An unpacked number has the value of an integer. -/
inductive Denotes : Int → UnpackedFloat → Prop
  | zero (sign : Sign) : Denotes 0 (.zero sign)
  | finite {sign : Sign} {v : Nat} {f : UnpackedFloat} (h : DenotesNat sign v f) :
      Denotes (sign.apply v) f

theorem DenotesNat.neg {sign : Sign} {v : Nat} {f : UnpackedFloat} (h : DenotesNat sign v f) :
    DenotesNat (-sign) v f.neg := by
  cases h with
  | finite hm low high hn value => exact .finite hm low high hn value

/-- The number of a 64-bit integer has the value that is kept of it. -/
theorem denotes_ofInt {n : Int} (h : n.natAbs < 2 ^ 64) :
    Denotes (nearest n) (ofInt n).toModel.unpack := by
  by_cases hzero : n = 0
  · subst hzero
    exact .zero .positive
  have hn : n.natAbs ≠ 0 := by omega
  have hdenotes := denotesNat_ofScientific hn h
  unfold ofInt nearest
  dsimp only
  by_cases hneg : n < 0
  · rw [if_pos hneg, if_pos hneg]
    have hbound : nearestNat n.natAbs ≤ 2 ^ 64 := nearestNat_le_of_lt hn h
    show Denotes _
      (Float.Model.pack (Float.ofScientific n.natAbs false 0).toModel.unpack.neg).unpack
    rw [hdenotes.neg.unpack_pack hbound]
    exact .finite hdenotes.neg
  · rw [if_neg hneg, if_neg hneg]
    exact .finite hdenotes

/-! ### The order -/

/-- Of two mantissas of 53 digits the one with the smaller exponent has the smaller value. -/
theorem value_lt_of_exponent_lt {m m' n n' : Nat} (high : m < 2 ^ 53) (low' : 2 ^ 52 ≤ m')
    (h : n < n') : m * 2 ^ n < m' * 2 ^ n' :=
  calc m * 2 ^ n < 2 ^ 53 * 2 ^ n := Nat.mul_lt_mul_of_pos_right high (Nat.two_pow_pos n)
    _ = 2 ^ 52 * 2 ^ (n + 1) := by rw [Nat.pow_succ 2 n]; omega
    _ ≤ 2 ^ 52 * 2 ^ n' := Nat.mul_le_mul_left _ (Nat.pow_le_pow_right Nat.two_pos h)
    _ ≤ m' * 2 ^ n' := Nat.mul_le_mul_right _ low'

/-- Numbers are ordered by their exponents first, and then by their mantissas. -/
theorem DenotesNat.compare_then {sign sign' : Sign} {v v' m m' : Nat} {e e' : Int} {hm : 0 < m}
    {hm' : 0 < m'} (h : DenotesNat sign v (.finite sign m e hm))
    (h' : DenotesNat sign' v' (.finite sign' m' e' hm')) :
    (compare e e').then (compare m m') = compare v v' := by
  cases h with
  | @finite _ n _ _ low high hn value =>
  cases h' with
  | @finite _ n' _ _ low' high' hn' value' =>
  rcases Nat.lt_trichotomy n n' with hlt | rfl | hgt
  · have hvalues := value_lt_of_exponent_lt high low' hlt
    rw [compare_lt_iff_lt.mpr (show e < e' by omega), compare_lt_iff_lt.mpr (show v < v' by omega)]
    rfl
  · have hpos := Nat.two_pow_pos n
    rw [compare_eq_iff_eq.mpr (show e = e' by omega)]
    show compare m m' = compare v v'
    rcases Nat.lt_trichotomy m m' with hlt | rfl | hgt
    · have hvalues := Nat.mul_lt_mul_of_pos_right hlt hpos
      rw [compare_lt_iff_lt.mpr hlt, compare_lt_iff_lt.mpr (show v < v' by omega)]
    · rw [compare_eq_iff_eq.mpr rfl, compare_eq_iff_eq.mpr (show v = v' by omega)]
    · have hvalues := Nat.mul_lt_mul_of_pos_right hgt hpos
      rw [compare_gt_iff_gt.mpr hgt, compare_gt_iff_gt.mpr (show v > v' by omega)]
  · have hvalues := value_lt_of_exponent_lt high' low hgt
    rw [compare_gt_iff_gt.mpr (show e > e' by omega), compare_gt_iff_gt.mpr (show v > v' by omega)]
    rfl

/-- What has a sign and 53 digits is not zero. -/
theorem DenotesNat.pos {sign : Sign} {v : Nat} {f : UnpackedFloat} (h : DenotesNat sign v f) :
    0 < v := by
  cases h with
  | @finite m n e hm low high hn value =>
    have := Nat.mul_pos hm (Nat.two_pow_pos n)
    omega

theorem compare_natCast (v v' : Nat) : compare (v : Int) v' = compare v v' := by
  simp only [compare, compareOfLessAndEq, Int.ofNat_lt, Int.natCast_inj]

theorem compare_neg (a b : Int) : compare (-a) (-b) = (compare a b).swap := by
  rw [← Std.OrientedCmp.eq_swap]
  simp only [compare, compareOfLessAndEq, Int.neg_lt_neg_iff, Int.neg_inj, eq_comm]

/-- Numbers with the values of integers are ordered as these. -/
theorem Denotes.compare {a b : Int} {f g : UnpackedFloat} (h : Denotes a f) (h' : Denotes b g) :
    f.compare g = some (compare a b) := by
  cases h with
  | zero sign =>
    cases h' with
    | zero sign' => rfl
    | @finite sign' v' g hg =>
      have hpos := hg.pos
      cases hg with
      | finite hm low high hn value =>
        cases sign' with
        | positive => exact congrArg some (compare_lt_iff_lt.mpr (by simp [Sign.apply]; omega)).symm
        | negative => exact congrArg some (compare_gt_iff_gt.mpr (by simp [Sign.apply]; omega)).symm
  | @finite sign v f hf =>
    have hpos := hf.pos
    cases h' with
    | zero sign' =>
      cases hf with
      | finite hm low high hn value =>
        cases sign with
        | positive => exact congrArg some (compare_gt_iff_gt.mpr (by simp [Sign.apply]; omega)).symm
        | negative => exact congrArg some (compare_lt_iff_lt.mpr (by simp [Sign.apply]; omega)).symm
    | @finite sign' v' g hg =>
      have hpos' := hg.pos
      have hf' := hf
      have hg' := hg
      cases hf with
      | finite hm low high hn value =>
      cases hg with
      | finite hm' low' high' hn' value' =>
      have hthen := hf'.compare_then hg'
      cases sign with
      | positive =>
        cases sign' with
        | positive => exact congrArg some (hthen.trans (compare_natCast v v').symm)
        | negative => exact congrArg some (compare_gt_iff_gt.mpr (by simp [Sign.apply]; omega)).symm
      | negative =>
        cases sign' with
        | positive => exact congrArg some (compare_lt_iff_lt.mpr (by simp [Sign.apply]; omega)).symm
        | negative =>
          refine congrArg some ?_
          rw [hthen, ← compare_natCast]
          exact (compare_neg (v : Int) v').symm

theorem lt_iff (x y : Float) : x < y ↔ x.toModel.unpack.compare y.toModel.unpack = some .lt := by
  show decide ((x.toModel.unpack.compare y.toModel.unpack == some .lt) = true) = true ↔ _
  rw [decide_eq_true_iff, beq_iff_eq]

theorem beq_iff (x y : Float) :
    (x == y) = true ↔ x.toModel.unpack.compare y.toModel.unpack = some .eq := by
  show (x.toModel.unpack.compare y.toModel.unpack == some .eq) = true ↔ _
  rw [beq_iff_eq]

/-- Numbers with the values of integers are in the order of these. -/
theorem Denotes.order? {a b : Int} {x y : Float} (h : Denotes a x.toModel.unpack)
    (h' : Denotes b y.toModel.unpack) : order? x y = some (Ord.compare a b) := by
  have hlt : x < y ↔ a < b := by
    rw [lt_iff, h.compare h', Option.some.injEq, compare_lt_iff_lt]
  have heq : (x == y) = true ↔ a = b := by
    rw [beq_iff, h.compare h', Option.some.injEq, compare_eq_iff_eq]
  have hgt : y < x ↔ b < a := by
    rw [lt_iff, h'.compare h, Option.some.injEq, compare_lt_iff_lt]
  unfold Binary64.order?
  rcases lt_trichotomy a b with h | h | h
  · rw [if_pos (hlt.mpr h), compare_lt_iff_lt.mpr h]
  · rw [if_neg (mt hlt.mp (by omega)), if_pos (heq.mpr h), compare_eq_iff_eq.mpr h]
  · rw [if_neg (mt hlt.mp (by omega)), if_neg (mt heq.mp (by omega)), if_pos (hgt.mpr h),
      compare_gt_iff_gt.mpr h]

/-- The order of the numbers of two 64-bit integers is the order of what is kept of them. -/
theorem order?_ofInt {a b : Int} (ha : a.natAbs < 2 ^ 64) (hb : b.natAbs < 2 ^ 64) :
    order? (ofInt a) (ofInt b) = some (compare (nearest a) (nearest b)) :=
  (denotes_ofInt ha).order? (denotes_ofInt hb)

end Shift

end Binary64

/-! ### Integers of the machine -/

/-- A number is an integer in 32 or in 64 bits. -/
inductive Number.IsInteger : Number → Int → Prop
  | integer (n : Int32) : IsInteger (.integer n) n.toInt
  | long (n : Int64) : IsInteger (.long n) n.toInt

namespace Number

variable {x y : Number} {m n : Int}

theorem IsInteger.natAbs_lt (h : x.IsInteger m) : m.natAbs < 2 ^ 64 := by
  cases h with
  | integer n =>
    have h₁ := n.toInt_lt
    have h₂ := n.le_toInt
    omega
  | long n =>
    have h₁ := n.toInt_lt
    have h₂ := n.le_toInt
    omega

theorem IsInteger.toFloat (h : x.IsInteger m) : x.toFloat = Binary64.ofInt m := by
  cases h <;> rfl

/-- The order of integers is exact. -/
theorem IsInteger.order? (h : x.IsInteger m) (h' : y.IsInteger n) :
    x.order? y = some (compare m n) := by
  cases h <;> cases h' <;> rfl

/-- Equality of integers is exact. -/
theorem IsInteger.equal (h : x.IsInteger m) (h' : y.IsInteger n) :
    x.equal y = (compare m n).isEq := by
  rw [Number.equal, h.order? h']
  cases compare m n <;> rfl

end Number

namespace Datum

variable {κ : Type} {x y : Number} {m n : Int}

/-- Integers are compared as the numbers that are nearest to them, where this is asked for. -/
theorem compareAs_double (op : Operator) (hx : x.IsInteger m) (hy : y.IsInteger n) :
    compareAs op .double (number x : Datum κ) (number y) =
      boolean (op.holds (Ord.compare (Binary64.nearest m) (Binary64.nearest n))) := by
  rw [compareAs, hx.toFloat, hy.toFloat, Binary64.order?_ofInt hx.natAbs_lt hy.natAbs_lt]
  rfl

theorem compareAs_natural (op : Operator) (hx : x.IsInteger m) (hy : y.IsInteger n) :
    compareAs op .natural (number x : Datum κ) (number y) =
      boolean (op.holds (Ord.compare m n)) := by
  show ofBool? ((x.order? y).map op.holds) = _
  rw [hx.order? hy]
  rfl

/-- Integers in 64 bits. -/
def IsInteger (v : Datum κ) : Prop := ∃ n m, v = .number n ∧ n.IsInteger m

/-- Integers are in order, whatever the mode. -/
theorem IsInteger.compareAs_ne_null {v w : Datum κ} (hv : v.IsInteger) (hw : w.IsInteger)
    (op : Operator) (mode : CompareMode) : compareAs op mode v w ≠ .null := by
  obtain ⟨n, m, rfl, hn⟩ := hv
  obtain ⟨n', m', rfl, hn'⟩ := hw
  cases mode with
  | double => exact ne_of_eq_of_ne (compareAs_double op hn hn') nofun
  | natural | decimal => exact ne_of_eq_of_ne (compareAs_natural op hn hn') nofun

theorem isInteger_of_kind {n : Number} (h : n.kind = .integer ∨ n.kind = .long) :
    IsInteger (.number n : Datum κ) := by
  cases n with
  | integer n => exact ⟨_, _, rfl, .integer n⟩
  | long n => exact ⟨_, _, rfl, .long n⟩
  | _ => rcases h with h | h <;> cases h

end Datum

end Feel
