import Mathlib.Algebra.Order.Field.Basic
import Mathlib.Algebra.Order.Ring.Abs
import Mathlib.Algebra.Ring.Int.Parity
import Mathlib.Tactic.FieldSimp
import Mathlib.Tactic.Linarith
import Feel.Decimal.Division
import Feel.Proofs.ExactArithmetic

/-!
# Significant digits

Rounding half to even takes a number to the nearest integer. At the last of the first `p` digits of
a number it gives the nearest number of `p` significant digits, and it leaves a number alone that
has no more. A decimal that is rounded to a precision is rounded so.

* `Rounding.NearestEven`, `Rounding.AtMost`: the nearest integer, and the numbers that are rounded
  to no more than an integer.
* `Rounding.nearestEven_divide`: integer division half to even.
* `Rounding.Whole`: the whole numbers of units at a place.
* `Rounding.LastPlace`, `Rounding.Nearest`, `Rounding.Digits`: the place of the last digit, the
  nearest number of so many digits, and the numbers that have no more.
* `Decimal.nearest_withPrecision`: what rounding to a precision gives.
-/

namespace Feel

/-! ### The nearest integer -/

namespace Rounding

variable {z : ℚ} {m n : ℤ}

/-- The integer that is nearest to a number, and the even one of two that are. -/
def NearestEven (z : ℚ) (m : ℤ) : Prop := |z - m| ≤ 1 / 2 ∧ (|z - m| = 1 / 2 → Even m)

/-- The numbers that are rounded to no more than an integer. They end half way to the next, which
is one of them for an even integer. -/
def AtMost (m : ℤ) (z : ℚ) : Prop := z < m + 1 / 2 ∨ z = m + 1 / 2 ∧ Even m

theorem AtMost.mono (h : AtMost m z) (hle : m ≤ n) : AtMost n z := by
  rcases hle.eq_or_lt with rfl | hlt
  · exact h
  · have hstep : (m : ℚ) + 1 ≤ n := by exact_mod_cast hlt
    rcases h with h | ⟨h, -⟩ <;> exact .inl (by linarith)

/-- Numbers are rounded to an integer if to no more than it, but to more than the one before. -/
theorem nearestEven_iff : NearestEven z m ↔ AtMost m z ∧ ¬ AtMost (m - 1) z := by
  have hbefore : ((m - 1 : ℤ) : ℚ) + 1 / 2 = m - 1 / 2 := by
    push_cast
    ring
  rw [NearestEven, AtMost, AtMost, hbefore, abs_le, not_or, not_lt, not_and, Int.even_sub_one,
    not_not]
  constructor
  · rintro ⟨⟨hlow, hhigh⟩, heven⟩
    refine ⟨?_, by linarith, fun h => heven ?_⟩
    · rcases (show z ≤ m + 1 / 2 by linarith).lt_or_eq with h | h
      · exact .inl h
      · exact .inr ⟨h, heven (by rw [h, add_sub_cancel_left]; norm_num)⟩
    · rw [h, sub_right_comm, sub_self, zero_sub, abs_neg]
      norm_num
  · rintro ⟨habove, hlow, heven⟩
    refine ⟨⟨by linarith, by rcases habove with h | ⟨h, -⟩ <;> linarith⟩, fun h => ?_⟩
    rcases eq_or_eq_neg_of_abs_eq h with h | h
    · rcases habove with habove | ⟨-, heven⟩
      · linarith
      · exact heven
    · exact heven (by linarith)

theorem NearestEven.atMost_iff (h : NearestEven z m) : AtMost n z ↔ m ≤ n := by
  obtain ⟨hm, hbefore⟩ := nearestEven_iff.mp h
  exact ⟨fun hn => by_contra fun hlt => hbefore (hn.mono (by omega)), hm.mono⟩

/-- There is one integer nearest to a number. -/
theorem NearestEven.unique (h : NearestEven z m) (h' : NearestEven z n) : m = n :=
  le_antisymm (h.atMost_iff.mp (h'.atMost_iff.mpr le_rfl))
    (h'.atMost_iff.mp (h.atMost_iff.mpr le_rfl))

theorem nearestEven_self (m : ℤ) : NearestEven m m := by
  rw [NearestEven, sub_self, abs_zero]
  exact ⟨by norm_num, fun h => by norm_num at h⟩

theorem NearestEven.neg (h : NearestEven z m) : NearestEven (-z) (-m) := by
  have habs : |-z - ((-m : ℤ) : ℚ)| = |z - m| := by
    rw [Int.cast_neg, neg_sub_neg, abs_sub_comm]
  rw [NearestEven, habs]
  exact ⟨h.1, fun heq => (h.2 heq).neg⟩

/-- A quotient of natural numbers goes to the integer nearest to it. -/
theorem nearestEven_goesUp (negative : Bool) (m : ℕ) {d : ℕ} (hd : 0 < d) :
    NearestEven ((m : ℚ) / d)
      (if goesUp .halfEven negative (m / d) (m % d) d then m / d + 1 else m / d : ℕ) := by
  have hd' : (0 : ℚ) < d := Nat.cast_pos.mpr hd
  set q := m / d with hq
  set r := m % d with hr
  have hrd : r < d := Nat.mod_lt m hd
  obtain ⟨t, ht⟩ : ∃ t : ℚ, t = r / d := ⟨_, rfl⟩
  have hm : (m : ℚ) / d = q + t := by
    rw [ht, ← Nat.div_add_mod m d, ← hq, ← hr]
    push_cast
    field_simp
  have hlow : 0 ≤ t := ht ▸ by positivity
  have hhigh : t < 1 := ht ▸ (div_lt_one hd').mpr (Nat.cast_lt.mpr hrd)
  have hup : goesUp .halfEven negative q r d = true ↔ 1 / 2 < t ∨ t = 1 / 2 ∧ ¬ Even q := by
    have hlt : d < 2 * r ↔ 1 / 2 < t := by
      rw [ht, div_lt_div_iff₀ (by norm_num) hd', one_mul, mul_comm]
      exact_mod_cast Iff.rfl
    have heq : d = 2 * r ↔ t = 1 / 2 := by
      rw [ht, div_eq_div_iff hd'.ne' (by norm_num), one_mul, mul_comm, eq_comm]
      exact_mod_cast Iff.rfl
    rw [goesUp, Bool.or_eq_true, decide_eq_true_eq, Bool.and_eq_true, beq_iff_eq, beq_iff_eq, hlt,
      heq, ← Nat.odd_iff, Nat.not_even_iff_odd]
  have heven : Even (q : ℤ) ↔ Even q := Int.even_coe_nat q
  rw [hm, nearestEven_iff]
  split
  · next h =>
    refine ⟨.inl ?_, ?_⟩
    · push_cast
      linarith
    · have hsub : ((q + 1 : ℕ) : ℤ) - 1 = q := by omega
      rw [hsub, AtMost, heven, Int.cast_natCast]
      rcases hup.mp h with h | ⟨h, hodd⟩
      · rintro (h' | ⟨h', -⟩) <;> linarith
      · rintro (h' | ⟨-, h'⟩)
        · linarith
        · exact hodd h'
  · next h =>
    rw [hup, not_or, not_lt, not_and, not_not] at h
    refine ⟨?_, ?_⟩
    · rw [AtMost, heven, Int.cast_natCast]
      rcases h.1.lt_or_eq with ht | ht
      · exact .inl (by linarith)
      · exact .inr ⟨by rw [ht], h.2 ht⟩
    · rintro (h' | ⟨h', -⟩) <;>
      · push_cast at h'
        linarith

/-- Integers are divided with the nearest integer as the quotient. -/
theorem nearestEven_divide (n : ℤ) {d : ℕ} (hd : 0 < d) :
    NearestEven ((n : ℚ) / d) (divide .halfEven n d) := by
  rw [divide]
  split
  · next hn =>
    have habs : (n : ℚ) = -(n.natAbs : ℚ) := by
      rw [← Int.cast_natCast, Int.ofNat_natAbs_of_nonpos hn.le, Int.cast_neg, neg_neg]
    rw [habs, neg_div]
    exact (nearestEven_goesUp _ _ hd).neg
  · next hn =>
    have habs : (n : ℚ) = (n.natAbs : ℚ) := by
      rw [← Int.cast_natCast, Int.natAbs_of_nonneg (not_lt.mp hn)]
    rw [habs]
    exact nearestEven_goesUp _ _ hd

/-! ### Whole numbers of a place -/

section Whole

variable {s k : ℤ} {x y : ℚ}

theorem ten_zpow_lt_iff : (10 : ℚ) ^ s < 10 ^ k ↔ s < k :=
  zpow_lt_zpow_iff_right₀ (by norm_num)

/-- A whole number of units at a decimal place. -/
def Whole (s : ℤ) (x : ℚ) : Prop := ∃ m : ℤ, x = m * 10 ^ s

theorem whole_ten_zpow (s : ℤ) : Whole s (10 ^ s) := ⟨1, by rw [Int.cast_one, one_mul]⟩

/-- What is whole at a place is whole at a lower one. -/
theorem Whole.of_le (hx : Whole k x) (h : s ≤ k) : Whole s x := by
  obtain ⟨m, rfl⟩ := hx
  have hexponent : ((k - s).toNat : ℤ) + s = k := by omega
  refine ⟨m * 10 ^ (k - s).toNat, ?_⟩
  rw [Int.cast_mul, Int.cast_pow, Int.cast_ofNat, mul_assoc, ← zpow_natCast,
    ← zpow_add₀ (by norm_num), hexponent]

theorem Whole.sub (hx : Whole s x) (hy : Whole s y) : Whole s (x - y) := by
  obtain ⟨m, rfl⟩ := hx
  obtain ⟨n, rfl⟩ := hy
  exact ⟨m - n, by rw [Int.cast_sub, sub_mul]⟩

theorem Whole.int_mul (n : ℤ) (hx : Whole s x) : Whole s (n * x) := by
  obtain ⟨m, rfl⟩ := hx
  exact ⟨n * m, by rw [Int.cast_mul, mul_assoc]⟩

theorem Whole.abs (hx : Whole s x) : Whole s |x| := by
  obtain ⟨m, rfl⟩ := hx
  exact ⟨|m|, by rw [abs_mul, abs_of_pos (Decimal.ten_zpow_pos s), Int.cast_abs]⟩

/-- What is whole at a place and not zero is at least one unit. -/
theorem Whole.le_abs (hx : Whole s x) (hne : x ≠ 0) : (10 : ℚ) ^ s ≤ |x| := by
  obtain ⟨m, rfl⟩ := hx
  have hm : 1 ≤ |m| := Int.one_le_abs (by rintro rfl; exact hne (by simp))
  rw [abs_mul, abs_of_pos (Decimal.ten_zpow_pos s)]
  exact le_mul_of_one_le_left (Decimal.ten_zpow_pos s).le (by exact_mod_cast hm)

/-- Numbers that are whole at a place are the same if less than a unit is between them. -/
theorem Whole.eq_of_near (hx : Whole s x) (hy : Whole s y) (h : |x - y| < 10 ^ s) : x = y :=
  sub_eq_zero.mp (by_contra fun hne => absurd h (not_lt.mpr ((hx.sub hy).le_abs hne)))

end Whole

/-! ### The nearest number of some digits -/

variable {p : ℕ} {e e' : ℤ} {x y y' : ℚ}

/-- The exponent of the last of the first `p` digits of a number that is not zero. -/
def LastPlace (p : ℕ) (x : ℚ) (e : ℤ) : Prop :=
  (10 : ℚ) ^ (p - 1 + e) ≤ |x| ∧ |x| < (10 : ℚ) ^ (p + e)

/-- The number of `p` digits that is nearest to a number, with an even last digit if two are. -/
def Nearest (p : ℕ) (x y : ℚ) : Prop :=
  x = 0 ∧ y = 0 ∨ ∃ e m : ℤ, LastPlace p x e ∧ NearestEven (x / 10 ^ e) m ∧ y = m * 10 ^ e

/-- A number of no more than `p` significant digits. -/
def Digits (p : ℕ) (x : ℚ) : Prop := ∃ m e : ℤ, |m| < 10 ^ p ∧ x = m * 10 ^ e

theorem LastPlace.ne_zero (h : LastPlace p x e) : x ≠ 0 := by
  rintro rfl
  have := h.1
  rw [abs_zero] at this
  exact absurd this (not_le.mpr (Decimal.ten_zpow_pos _))

theorem LastPlace.unique (h : LastPlace p x e) (h' : LastPlace p x e') : e = e' := by
  have hlt := ten_zpow_lt_iff.mp (h.1.trans_lt h'.2)
  have hlt' := ten_zpow_lt_iff.mp (h'.1.trans_lt h.2)
  omega

theorem Nearest.unique (h : Nearest p x y) (h' : Nearest p x y') : y = y' := by
  rcases h with ⟨hx, rfl⟩ | ⟨e, m, he, hm, rfl⟩
  · rcases h' with ⟨-, rfl⟩ | ⟨e', m', he', -, -⟩
    · rfl
    · exact absurd hx he'.ne_zero
  · rcases h' with ⟨hx, -⟩ | ⟨e', m', he', hm', rfl⟩
    · exact absurd hx he.ne_zero
    · cases he.unique he'
      rw [hm.unique hm']

/-- A number of `p` digits is whole at the last of its first `p` places. -/
theorem Digits.whole (h : Digits p x) (he : (10 : ℚ) ^ (p - 1 + e) ≤ |x|) : Whole e x := by
  obtain ⟨n, s, hn, rfl⟩ := h
  have hhigh : |(n : ℚ) * 10 ^ s| < 10 ^ ((p : ℤ) + s) := by
    rw [abs_mul, abs_of_pos (Decimal.ten_zpow_pos s), zpow_add₀ (by norm_num), zpow_natCast]
    exact mul_lt_mul_of_pos_right (by exact_mod_cast hn) (Decimal.ten_zpow_pos s)
  have hplaces := ten_zpow_lt_iff.mp (he.trans_lt hhigh)
  exact Whole.of_le ⟨n, rfl⟩ (by omega)

/-- A number of no more digits is the nearest to itself. -/
theorem Nearest.eq_of_digits (h : Nearest p x y) (hx : Digits p x) : y = x := by
  rcases h with ⟨rfl, rfl⟩ | ⟨e, m, he, hm, rfl⟩
  · rfl
  · obtain ⟨n, rfl⟩ := hx.whole he.1
    rw [mul_div_cancel_right₀ _ (Decimal.ten_zpow_pos e).ne'] at hm
    rw [hm.unique (nearestEven_self n)]

end Rounding

/-! ### Rounded decimals -/

namespace Decimal

open Rounding

variable {d : Decimal} {p : ℕ} {e : ℤ} {x : ℚ}

theorem pow10_le_digitCount {n : ℕ} (hn : n ≠ 0) :
    (10 : ℚ) ^ ((digitCount n : ℤ) - 1) ≤ n ∧ (n : ℚ) < 10 ^ (digitCount n : ℤ) := by
  have hpos := digitCount_pos n
  have hsub : (digitCount n : ℤ) - 1 = (digitCount n - 1 : ℕ) := by omega
  rw [hsub, zpow_natCast, zpow_natCast, ← natCast_pow10, ← natCast_pow10]
  exact ⟨Nat.cast_le.mpr (pow10_digitCount_le hn), Nat.cast_lt.mpr (lt_pow10_digitCount n)⟩

/-- The last of the first `p` digits of a decimal. -/
theorem lastPlace (hd : d.digits ≠ 0) (p : ℕ) :
    LastPlace p d.value (digitCount d.digits.natAbs - p - d.scale) := by
  obtain ⟨hlow, hhigh⟩ := pow10_le_digitCount (Int.natAbs_ne_zero.mpr hd)
  have habs : |d.value| = d.digits.natAbs * (10 : ℚ) ^ (-d.scale) := by
    rw [value, abs_mul, abs_of_pos (ten_zpow_pos _), Nat.cast_natAbs, Int.cast_abs]
  have hlast : ((p : ℤ) - 1 + (digitCount d.digits.natAbs - p - d.scale)) =
      ((digitCount d.digits.natAbs : ℤ) - 1) + -d.scale := by ring
  have hfirst : ((p : ℤ) + (digitCount d.digits.natAbs - p - d.scale)) =
      (digitCount d.digits.natAbs : ℤ) + -d.scale := by ring
  rw [LastPlace, habs, hlast, hfirst, zpow_add₀ (by norm_num), zpow_add₀ (by norm_num)]
  exact ⟨mul_le_mul_of_nonneg_right hlow (ten_zpow_pos _).le,
    mul_lt_mul_of_pos_right hhigh (ten_zpow_pos _)⟩

/-- **Rounding to a precision gives the nearest number of so many digits.** -/
theorem nearest_withPrecision (d : Decimal) (p : ℕ) :
    Nearest p d.value (d.withPrecision p .halfEven).value := by
  by_cases hd : d.digits = 0
  · have hzero : d.value = 0 := value_of_isZero (beq_iff_eq.mpr hd)
    exact .inl ⟨hzero, by simp [withPrecision, withScale, hd, value]⟩
  · set count := digitCount d.digits.natAbs with hcount
    refine .inr ⟨count - p - d.scale, (d.withPrecision p .halfEven).digits, lastPlace hd p, ?_, ?_⟩
    · rw [withPrecision, withScale, if_neg hd]
      have hlast : (count : ℤ) - p - d.scale = -(d.scale + (p - count)) := by ring
      split
      · next hle =>
        rw [← value_digitsAt hle, value, hlast, mul_div_cancel_right₀ _ (ten_zpow_pos _).ne']
        exact nearestEven_self _
      · next hlt =>
        have hcut : d.cutter (d.scale - (d.scale + (p - count))) = pow10 (count - p) := by
          rw [cutter, ← hcount]
          congr 1
          omega
        have hquotient : d.value / 10 ^ ((count : ℤ) - p - d.scale) =
            d.digits / (pow10 (count - p) : ℕ) := by
          have hexponent : -d.scale - ((count : ℤ) - p - d.scale) = -((count - p : ℕ) : ℤ) := by
            omega
          rw [value, mul_div_assoc, ← zpow_sub₀ (by norm_num), hexponent, zpow_neg, zpow_natCast,
            ← natCast_pow10, div_eq_mul_inv]
        rw [hquotient, hcut]
        exact nearestEven_divide _ (pow10_pos _)
    · have hscale : (d.withPrecision p .halfEven).scale = d.scale + (p - count) := by
        rw [withPrecision, withScale, if_neg hd]
        split <;> rfl
      rw [value, hscale]
      congr 2
      ring

theorem nearest_roundTo (hp : p ≠ 0) (d : Decimal) : Nearest p d.value (d.roundTo p).value := by
  rw [roundTo, if_neg hp, value_normalized]
  exact nearest_withPrecision d p

/-- A decimal of no more digits is rounded to itself. -/
theorem value_roundTo (hp : p ≠ 0) (h : Digits p d.value) : (d.roundTo p).value = d.value :=
  (nearest_roundTo hp d).eq_of_digits h

end Decimal

end Feel
