import Feel.Decimal.Basic

/-!
# The order of decimals

The order that looks at signs and leading places first is the order of the aligned digits.

* `Decimal.order_eq_alignedOrder`: the two orders agree.
-/

namespace Feel

namespace Decimal

theorem digitCount_pos (n : Nat) : 0 < digitCount n := Nat.length_toDigits_pos

/-- A number is below the power of ten that has one digit more. -/
theorem lt_pow10_digitCount (n : Nat) : n < pow10 (digitCount n) :=
  (Nat.length_toDigits_le_iff (by decide) (digitCount_pos n)).1 (Nat.le_refl _)

/-- A number that is not zero is at least the power of ten with as many digits. -/
theorem pow10_digitCount_le {n : Nat} (h : n ≠ 0) : pow10 (digitCount n - 1) ≤ n := by
  by_cases h1 : digitCount n = 1
  · rw [h1]
    exact Nat.one_le_iff_ne_zero.2 h
  · have hp := digitCount_pos n
    have hlt : ¬ digitCount n ≤ digitCount n - 1 := by omega
    exact Nat.le_of_not_lt fun hn =>
      hlt ((Nat.length_toDigits_le_iff (by decide) (by omega)).2 hn)

/-- With fewer places before the common point, the aligned digits are fewer. -/
theorem aligned_lt_of_places {m n i j : Nat} (hn : n ≠ 0)
    (h : digitCount m + i < digitCount n + j) : m * pow10 i < n * pow10 j := by
  have hp := digitCount_pos n
  calc m * pow10 i < pow10 (digitCount m) * pow10 i :=
        Nat.mul_lt_mul_of_pos_right (lt_pow10_digitCount m) (pow10_pos i)
    _ = pow10 (digitCount m + i) := (pow10_add ..).symm
    _ ≤ pow10 (digitCount n - 1 + j) := pow10_le (by omega)
    _ = pow10 (digitCount n - 1) * pow10 j := pow10_add ..
    _ ≤ n * pow10 j := Nat.mul_le_mul_right _ (pow10_digitCount_le hn)

theorem digitsAt_natAbs (d : Decimal) (s : Int) :
    (d.digitsAt s).natAbs = d.digits.natAbs * pow10 (s - d.scale).toNat := by
  rw [digitsAt_eq, Int.natAbs_mul, Int.natAbs_natCast]

theorem sign_digitsAt (d : Decimal) (s : Int) : (d.digitsAt s).sign = d.digits.sign := by
  have h : (pow10 (s - d.scale).toNat : Int).sign = 1 :=
    Int.sign_eq_one_of_pos (Int.natCast_pos.2 (pow10_pos _))
  rw [digitsAt_eq, Int.sign_mul, h, Int.mul_one]

/-- A lower place of the first digit means a lesser magnitude of the aligned digits. -/
theorem natAbs_digitsAt_lt {a b : Decimal} (hb : b.digits ≠ 0)
    (h : a.leadingPlace < b.leadingPlace) :
    (a.digitsAt (max a.scale b.scale)).natAbs < (b.digitsAt (max a.scale b.scale)).natAbs := by
  rw [digitsAt_natAbs, digitsAt_natAbs]
  refine aligned_lt_of_places (by omega) ?_
  unfold leadingPlace at h
  omega

theorem lt_of_sign_lt {x y : Int} (h : x.sign < y.sign) : x < y := by
  rcases Int.lt_trichotomy x 0 with hx | rfl | hx <;>
    rcases Int.lt_trichotomy y 0 with hy | rfl | hy <;>
    simp_all [Int.sign_eq_neg_one_of_neg, Int.sign_eq_one_of_pos] <;> omega

/-- Numbers of different signs are ordered as their signs. -/
theorem compare_sign {x y : Int} (h : x.sign ≠ y.sign) :
    compare x.sign y.sign = compare x y := by
  rcases Int.lt_or_gt_of_ne h with h | h
  · rw [Int.compare_eq_lt.2 h, Int.compare_eq_lt.2 (lt_of_sign_lt h)]
  · rw [Int.compare_eq_gt.2 h, Int.compare_eq_gt.2 (lt_of_sign_lt h)]

theorem neg_of_sign_eq {x y : Int} (h : x.sign = y.sign) (hy : y < 0) : x < 0 := by
  rw [Int.sign_eq_neg_one_of_neg hy] at h
  exact Int.neg_of_sign_eq_neg_one h

theorem pos_of_sign_eq {x y : Int} (h : x.sign = y.sign) (hy : 0 < y) : 0 < x := by
  rw [Int.sign_eq_one_of_pos hy] at h
  exact Int.pos_of_sign_eq_one h

/-- Of two numbers with one sign, that with the higher place is farther from zero. -/
theorem alignedOrder_of_place_lt {a b : Decimal} (hs : a.digits.sign = b.digits.sign)
    (hb : b.digits ≠ 0) (h : a.leadingPlace < b.leadingPlace) :
    a.alignedOrder b = if a.digits < 0 then .gt else .lt := by
  have hlt := natAbs_digitsAt_lt hb h
  have sa := sign_digitsAt a (max a.scale b.scale)
  have sb := sign_digitsAt b (max a.scale b.scale)
  unfold alignedOrder
  split
  · rename_i ha
    have := neg_of_sign_eq sa ha
    have := neg_of_sign_eq (sb.trans hs.symm) ha
    exact Int.compare_eq_gt.2 (by omega)
  · rename_i ha
    have hb : 0 < b.digits := by
      rcases Int.lt_or_gt_of_ne hb with hb | hb
      · exact absurd (neg_of_sign_eq hs hb) ha
      · exact hb
    have := pos_of_sign_eq (sa.trans hs) hb
    have := pos_of_sign_eq sb hb
    exact Int.compare_eq_lt.2 (by omega)

theorem alignedOrder_swap (a b : Decimal) : (a.alignedOrder b).swap = b.alignedOrder a := by
  simp [alignedOrder, Int.max_comm, Int.compare_swap]

/-- The order of decimals is the order of their digits at a common scale. -/
theorem order_eq_alignedOrder (a b : Decimal) : a.order b = a.alignedOrder b := by
  unfold order
  split
  · rename_i h
    rw [← sign_digitsAt a (max a.scale b.scale), ← sign_digitsAt b (max a.scale b.scale)] at h ⊢
    exact compare_sign h
  · rename_i hs
    have hs : a.digits.sign = b.digits.sign := by simpa using hs
    split
    · rename_i ha
      have hb : b.digits = 0 := by simpa [ha, eq_comm] using hs
      simp [alignedOrder, digitsAt, ha, hb]
    · rename_i ha
      have hb : b.digits ≠ 0 := fun hb => ha (by simpa [hb] using hs)
      split
      · rfl
      · rename_i hne
        have hneg : a.digits < 0 ↔ b.digits < 0 := ⟨neg_of_sign_eq hs.symm, neg_of_sign_eq hs⟩
        rcases Int.lt_or_gt_of_ne hne with h | h
        · rw [alignedOrder_of_place_lt hs hb h, Int.compare_eq_gt.2 h, Int.compare_eq_lt.2 h]
        · rw [← alignedOrder_swap, alignedOrder_of_place_lt hs.symm ha h, Int.compare_eq_lt.2 h,
            Int.compare_eq_gt.2 h]
          simp only [hneg]
          split <;> rfl

end Decimal

end Feel
