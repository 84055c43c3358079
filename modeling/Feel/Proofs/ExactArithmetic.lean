import Mathlib.Algebra.Order.Field.Rat
import Mathlib.Data.Rat.Cast.Order
import Mathlib.Order.Compare
import Mathlib.Tactic.NormNum
import Mathlib.Tactic.Ring
import Feel.Decimal.Order
import Feel.Number.Basic

/-!
# Exact arithmetic

A decimal denotes a rational number, and so does an integer. Sums, differences and products of
such numbers denote the sums, differences and products of what the operands denote, in the
narrowest representation that holds them and in decimals alike.

* `Decimal.value`: what a decimal denotes, and the values of decimal arithmetic.
* `Decimal.order_eq_compare`: the order of decimals is that of their values.
* `Number.value?`: what a number denotes that is not of binary64.
* `Number.order?_eq_compare`: the order of numbers is that of their values.
* `Number.arith?_exact`: sums, differences and products are exact.
-/

namespace Feel

/-! ### Values of decimals -/

namespace Decimal

variable {a b d : Decimal} {s : Int}

/-- The number that a decimal denotes. -/
def value (d : Decimal) : ℚ := d.digits * (10 : ℚ) ^ (-d.scale)

theorem natCast_pow10 (k : Nat) : (pow10 k : ℚ) = 10 ^ k := by
  rw [pow10, Nat.pow_eq, Nat.cast_pow, Nat.cast_ofNat]

theorem ten_zpow_pos (k : Int) : (0 : ℚ) < 10 ^ k := zpow_pos (by norm_num) k

/-- The digits at more places denote the same number. -/
theorem value_digitsAt (h : d.scale ≤ s) : value ⟨d.digitsAt s, s⟩ = d.value := by
  have hexponent : ((s - d.scale).toNat : Int) + -s = -d.scale := by omega
  rw [value, value, digitsAt_eq, Int.cast_mul, Int.cast_natCast, natCast_pow10, mul_assoc,
    ← zpow_natCast, ← zpow_add₀ (by norm_num), hexponent]

@[simp] theorem value_ofInt (n : Int) : (ofInt n).value = n := by simp [value, ofInt]

theorem value_of_isZero (h : d.isZero = true) : d.value = 0 := by
  rw [value, eq_of_beq h, Int.cast_zero, zero_mul]

theorem value_addZero (d z : Decimal) : (d.addZero z).value = d.value :=
  value_digitsAt (by simp only [zeroPlaces]; omega)

/-- Digits at one scale are added like the numbers that they denote. -/
theorem value_add_digits (m n s : Int) : value ⟨m + n, s⟩ = value ⟨m, s⟩ + value ⟨n, s⟩ := by
  rw [value, value, value, Int.cast_add, add_mul]

theorem value_sub_digits (m n s : Int) : value ⟨m - n, s⟩ = value ⟨m, s⟩ - value ⟨n, s⟩ := by
  rw [value, value, value, Int.cast_sub, sub_mul]

/-- **Sums of decimals are exact.** -/
theorem value_add (a b : Decimal) : (a.add b).value = a.value + b.value := by
  unfold add
  split
  · next hb => rw [value_addZero, value_of_isZero hb, add_zero]
  · split
    · next ha => rw [value_addZero, value_of_isZero ha, zero_add]
    · rw [value_add_digits, value_digitsAt (Int.le_max_left ..),
        value_digitsAt (Int.le_max_right ..)]

/-- **Differences of decimals are exact.** -/
theorem value_sub (a b : Decimal) : (a.sub b).value = a.value - b.value := by
  rw [sub, value_sub_digits, value_digitsAt (Int.le_max_left ..),
    value_digitsAt (Int.le_max_right ..)]

/-- As many tens divide a number as zeros end it. -/
theorem pow10_trailingZeros_dvd (fuel n : Nat) : pow10 (trailingZeros fuel n) ∣ n := by
  induction fuel generalizing n with
  | zero => exact Nat.one_dvd n
  | succ fuel ih =>
    rw [trailingZeros]
    split
    · next h =>
      have hten : n = n / 10 * 10 := (Nat.div_mul_cancel (Nat.dvd_of_mod_eq_zero h)).symm
      rw [pow10_add, hten]
      exact Nat.mul_dvd_mul (by simpa using ih (n / 10)) (Nat.dvd_refl 10)
    · exact Nat.one_dvd n

/-- The normal form denotes the same number. -/
theorem value_normalized (d : Decimal) : d.normalized.value = d.value := by
  unfold normalized
  split
  · next h => rw [value_of_isZero (d := d) (beq_iff_eq.mpr h), value_of_isZero rfl]
  · set k := trailingZeros (digitCount d.digits.natAbs) d.digits.natAbs with hk
    have hdvd : pow10 k ∣ d.digits.natAbs := pow10_trailingZeros_dvd _ _
    have hdigits : (d.digits.sign * (d.digits.natAbs / pow10 k : Nat)) * pow10 k = d.digits := by
      rw [mul_assoc, ← Int.natCast_mul, Nat.div_mul_cancel hdvd, Int.sign_mul_natAbs]
    have hexponent : -(d.scale - (k : Int)) = k + -d.scale := by omega
    rw [value, value, hexponent, zpow_add₀ (by norm_num), ← mul_assoc, zpow_natCast,
      ← natCast_pow10, ← Int.cast_natCast (R := ℚ) (pow10 k), ← Int.cast_mul, hdigits]

/-! ### The order of decimals -/

/-- Numbers at a common scale are ordered as their digits. -/
theorem compare_digits (m n s : Int) : compare m n = compare (value ⟨m, s⟩) (value ⟨n, s⟩) := by
  have hpos := ten_zpow_pos (-s)
  rcases lt_trichotomy m n with h | rfl | h
  · have hlt : value ⟨m, s⟩ < value ⟨n, s⟩ := mul_lt_mul_of_pos_right (Int.cast_lt.mpr h) hpos
    rw [compare_lt_iff_lt.mpr h, compare_lt_iff_lt.mpr hlt]
  · rw [compare_eq_iff_eq.mpr rfl, compare_eq_iff_eq.mpr rfl]
  · have hgt : value ⟨n, s⟩ < value ⟨m, s⟩ := mul_lt_mul_of_pos_right (Int.cast_lt.mpr h) hpos
    rw [compare_gt_iff_gt.mpr h, compare_gt_iff_gt.mpr hgt]

/-- **The order of decimals is the order of what they denote.** -/
theorem order_eq_compare (a b : Decimal) : a.order b = compare a.value b.value := by
  rw [order_eq_alignedOrder, alignedOrder, compare_digits _ _ (max a.scale b.scale),
    value_digitsAt (Int.le_max_left ..), value_digitsAt (Int.le_max_right ..)]

theorem value_of_isOne (h : d.isOne = true) : d.value = 1 := by
  have hone : one.value = 1 := value_ofInt 1
  rw [isOne, beq_iff_eq, order_eq_compare, hone] at h
  exact compare_eq_iff_eq.mp h

/-- **Products of decimals are exact.** -/
theorem value_mul (a b : Decimal) : (a.mul b).value = a.value * b.value := by
  unfold mul
  split
  · next ha => rw [value_normalized, value_of_isOne ha, one_mul]
  · split
    · next hb => rw [value_normalized, value_of_isOne hb, mul_one]
    · rw [value, value, value, Int.cast_mul, neg_add, zpow_add₀ (by norm_num)]
      ring

end Decimal

/-! ### Values of numbers -/

namespace Number

variable {a b : Number} {x y : ℚ}

/-- The number denoted by one that is not of binary64. -/
def value? : Number → Option ℚ
  | integer n => some n.toInt
  | long n => some n.toInt
  | double _ => none
  | decimal d => some d.value

theorem value_toDecimal (h : a.value? = some x) : a.toDecimal.value = x := by
  cases a with
  | integer n => exact (Decimal.value_ofInt _).trans (Option.some.inj h)
  | long n => exact (Decimal.value_ofInt _).trans (Option.some.inj h)
  | double _ => cases h
  | decimal d => exact Option.some.inj h

/-- **The order of numbers is the order of what they denote**, whatever their
representations. -/
theorem order?_eq_compare (ha : a.value? = some x) (hb : b.value? = some y) :
    a.order? b = some (compare x y) := by
  have hints (m n : Int) : compare m n = compare (m : ℚ) n := by
    simpa [Decimal.value] using Decimal.compare_digits m n 0
  cases a <;> cases b <;> cases ha <;> cases hb <;>
    simp only [order?, hints, Decimal.order_eq_compare, toDecimal, Decimal.value_ofInt]

/-- Numbers with the values of integers are in the order of these. -/
theorem order?_of_int {m n : Int} (ha : a.value? = some (m : ℚ)) (hb : b.value? = some (n : ℚ)) :
    a.order? b = some (compare m n) := by
  rw [order?_eq_compare ha hb, Decimal.compare_digits m n 0]
  simp [Decimal.value]

theorem equal_of_value (ha : a.value? = some x) (hb : b.value? = some x) : a.equal b = true := by
  rw [equal, order?_eq_compare ha hb, compare_eq_iff_eq.mpr rfl]
  rfl

/-! ### Integers that fit -/

theorem toInt_of_int32? {n : Int} {i : Int32} (h : int32? n = some i) : i.toInt = n := by
  unfold int32? at h
  split at h
  · next hfits =>
    cases h
    exact Int32.toInt_ofInt_of_le hfits.1 hfits.2
  · cases h

theorem toInt_of_int64? {n : Int} {i : Int64} (h : int64? n = some i) : i.toInt = n := by
  unfold int64? at h
  split at h
  · next hfits =>
    cases h
    exact Int64.toInt_ofInt_of_le hfits.1 hfits.2
  · cases h

/-- An integer that fits nowhere is a decimal. -/
theorem value_ofIntLong (n : Int) : (ofIntLong n).value? = some (n : ℚ) := by
  unfold ofIntLong
  split
  · next l h => rw [value?, toInt_of_int64? h]
  · rw [value?, Decimal.value_ofInt]

theorem value_ofInt (n : Int) : (ofInt n).value? = some (n : ℚ) := by
  unfold ofInt
  split
  · next i h => rw [value?, toInt_of_int32? h]
  · exact value_ofIntLong n

theorem kind_ofIntLong_ne (n : Int) : (ofIntLong n).kind ≠ .integer := by
  unfold ofIntLong
  split <;> simp [kind]

/-! ### Arithmetic -/

namespace RingOp

/-- The operation on what numbers denote. -/
def onRat : RingOp → ℚ → ℚ → ℚ
  | add => (· + ·)
  | sub => (· - ·)
  | mul => (· * ·)

/-- The operator that is written for the operation. -/
def operator : RingOp → Operator
  | add => .add
  | sub => .sub
  | mul => .mul

theorem cast_onInt (op : RingOp) (m n : Int) : ((op.onInt m n : Int) : ℚ) = op.onRat m n := by
  cases op <;> simp [onInt, onRat]

theorem value_onDecimal (op : RingOp) (a b : Decimal) :
    (op.onDecimal a b).value = op.onRat a.value b.value := by
  cases op with
  | add => exact Decimal.value_add a b
  | sub => exact Decimal.value_sub a b
  | mul => exact Decimal.value_mul a b

/-- The operation in the narrowest representation gives a number, which denotes the result. -/
theorem value_native (op : RingOp) (ha : a.value? = some x) (hb : b.value? = some y) :
    ∃ n, op.native a b = some n ∧ n.value? = some (op.onRat x y) ∧
      (n.kind = .integer → a.kind = .integer ∧ b.kind = .integer) := by
  cases a <;> cases b <;> cases ha <;> cases hb
  case integer.integer => exact ⟨_, rfl, by rw [value_ofInt, cast_onInt], fun _ => ⟨rfl, rfl⟩⟩
  case decimal.integer | decimal.long | decimal.decimal | integer.decimal | long.decimal =>
    exact ⟨_, rfl, by simp [value?, value_onDecimal, toDecimal], by rintro ⟨⟩⟩
  all_goals
    exact ⟨_, rfl, by rw [value_ofIntLong, cast_onInt], fun h => absurd h (kind_ofIntLong_ne _)⟩

theorem value_exact (op : RingOp) (ha : a.value? = some x) (hb : b.value? = some y) :
    (op.exact a b).value? = some (op.onRat x y) := by
  rw [exact, value?, value_onDecimal, value_toDecimal ha, value_toDecimal hb]

end RingOp

/-- **Native arithmetic is exact.** Of numbers that are not of binary64 every sum, difference and
product exists, natively and on decimals: both denote the sum, difference or product of what the
operands denote, and are equal as numbers. The native result is a 32-bit integer for two such
integers only. -/
theorem arith?_exact (op : RingOp) (ha : a.value? = some x) (hb : b.value? = some y) :
    ∃ n m, arith? op.operator a b false = some n ∧ arith? op.operator a b true = some m ∧
      n.value? = some (op.onRat x y) ∧ m.value? = some (op.onRat x y) ∧ n.equal m = true ∧
      (n.kind = .integer → a.kind = .integer ∧ b.kind = .integer) := by
  obtain ⟨n, hn, hvalue, hkind⟩ := op.value_native ha hb
  have hexact := op.value_exact ha hb
  refine ⟨n, op.exact a b, ?_, ?_, hvalue, hexact, equal_of_value hvalue hexact, hkind⟩
  · cases op <;> exact hn
  · cases op <;> rfl

/-- The least 32-bit integer less one is a 64-bit integer, and the square of the least 64-bit
integer is a decimal. -/
theorem arith?_exact_overflows :
    let a := integer (-2147483648)
    let b := integer 1
    let c := long (-9223372036854775808)
    (∃ n m, arith? .sub a b false = some n ∧ arith? .sub a b true = some m ∧
      n.value? = some (-2147483649) ∧ n.equal m = true ∧ n.kind = .long) ∧
    ∃ n m, arith? .mul c c false = some n ∧ arith? .mul c c true = some m ∧
      n.value? = some 85070591730234615865843651857942052864 ∧ n.equal m = true ∧
      n.kind = .decimal := by
  intro a b c
  have ha : a.value? = some (-2147483648 : Int) :=
    congrArg (fun m : Int => some (m : ℚ)) (by decide)
  have hb : b.value? = some (1 : Int) := congrArg (fun m : Int => some (m : ℚ)) (by decide)
  have hc : c.value? = some (-9223372036854775808 : Int) :=
    congrArg (fun m : Int => some (m : ℚ)) (by decide)
  constructor
  · obtain ⟨n, m, hn, hm, hvalue, -, hequal, -⟩ := arith?_exact .sub ha hb
    refine ⟨n, m, hn, hm, ?_, hequal, ?_⟩
    · rw [hvalue]
      norm_num [RingOp.onRat]
    · cases hn
      rfl
  · obtain ⟨n, m, hn, hm, hvalue, -, hequal, -⟩ := arith?_exact .mul hc hc
    refine ⟨n, m, hn, hm, ?_, hequal, ?_⟩
    · rw [hvalue]
      norm_num [RingOp.onRat]
    · cases hn
      rfl

end Number

end Feel
