import Mathlib.Data.Int.Log
import Mathlib.Data.Rat.Floor
import Feel.Proofs.SignificantDigits

/-!
# Rounded quotients

Division rounds twice. Long division develops the quotient to a hundred digits or more and rounds it
there, a half going away from zero; the development is then rounded half to even to the precision.
The two agree with a single rounding of the quotient unless the development crosses a limit of
rounding or arrives on one. It does not where the quotient has no more than a hundred digits, and
not where the numbers divided have few, for then a quotient that is not on the limit is too far from
it.

* `Rounding.Developed`: a number, or what rounding behind its first digits makes of it.
* `Rounding.Apart`: numbers with a limit of rounding between them.
* `Rounding.Developed.nearest_iff`: when rounding twice is rounding once.
* `Rounding.Developed.not_apart`: quotients of few digits.
* `Decimal.developed_quotient`: long division gives a development.
* `Number.divide?_rounded_twice`: what division gives.
-/

namespace Feel

/-! ### Developed numbers -/

namespace Rounding

variable {n p : ℕ} {e : ℤ} {x y d : ℚ}

/-- A number as it is, or rounded at a place behind its first `n` digits, with a half going away
from zero. -/
def Developed (n : ℕ) (x y : ℚ) : Prop :=
  y = x ∨ ∃ s : ℤ, (10 : ℚ) ^ (n - 1 + s) ≤ |x| ∧ Whole s y ∧ 2 * |x - y| ≤ 10 ^ s ∧
    (2 * |x - y| = 10 ^ s → |x| < |y|)

/-- Two numbers of which only one is rounded to no more than some number of `p` digits. -/
def Apart (p : ℕ) (x y : ℚ) : Prop :=
  ∃ e m : ℤ, LastPlace p x e ∧ ¬ (AtMost m (x / 10 ^ e) ↔ AtMost m (y / 10 ^ e))

theorem exists_nearestEven (z : ℚ) : ∃ m, NearestEven z m :=
  ⟨_, by simpa [Rat.num_div_den] using nearestEven_divide z.num z.den_pos⟩

theorem exists_lastPlace (p : ℕ) (hx : x ≠ 0) : ∃ e, LastPlace p x e := by
  refine ⟨Int.log 10 |x| + 1 - p, ?_, ?_⟩
  · have hexponent : (p : ℤ) - 1 + (Int.log 10 |x| + 1 - p) = Int.log 10 |x| := by ring
    rw [hexponent]
    exact_mod_cast Int.zpow_log_le_self (by decide) (abs_pos.mpr hx)
  · have hexponent : (p : ℤ) + (Int.log 10 |x| + 1 - p) = Int.log 10 |x| + 1 := by ring
    rw [hexponent]
    exact_mod_cast Int.lt_zpow_succ_log_self (by decide) |x|

/-- Rounding keeps to the last place of a number that has moved to the power of ten above it. -/
theorem Nearest.at_place (hp : p ≠ 0) (h : Nearest p y d)
    (he : LastPlace p y e ∨ |y| = 10 ^ (p + e)) :
    ∃ m, NearestEven (y / 10 ^ e) m ∧ d = m * 10 ^ e := by
  rcases he with he | he
  · rcases h with ⟨rfl, -⟩ | ⟨e', m, he', hm, hd⟩
    · exact absurd rfl he.ne_zero
    · cases he.unique he'
      exact ⟨m, hm, hd⟩
  · obtain ⟨σ, hσ, hy⟩ : ∃ σ : ℤ, |σ| = 1 ∧ y = σ * 10 ^ (p + e) := by
      rcases abs_choice y with h | h
      · exact ⟨1, rfl, by rw [← he, h, Int.cast_one, one_mul]⟩
      · exact ⟨-1, rfl, by rw [← he, h]; simp⟩
    have hdigits : Digits p y := ⟨σ, p + e, hσ ▸ one_lt_pow₀ (by norm_num) hp, hy⟩
    have hlast : (10 : ℚ) ^ ((p : ℤ) - 1 + e) ≤ |y| :=
      he ▸ zpow_le_zpow_right₀ (by norm_num) (by omega)
    obtain ⟨m, rfl⟩ := hdigits.whole hlast
    refine ⟨m, ?_, h.eq_of_digits hdigits⟩
    rw [mul_div_cancel_right₀ _ (Decimal.ten_zpow_pos e).ne']
    exact nearestEven_self m

theorem Developed.eq_zero (h : Developed n 0 y) : y = 0 := by
  rcases h with h | ⟨s, hs, -⟩
  · exact h
  · rw [abs_zero] at hs
    exact absurd hs (not_le.mpr (Decimal.ten_zpow_pos _))

theorem Developed.sign_mul {σ : ℤ} (h : Developed n x y) (hσ : |σ| = 1) :
    Developed n (σ * x) (σ * y) := by
  have hσ' : |(σ : ℚ)| = 1 := by exact_mod_cast hσ
  rcases h with rfl | ⟨s, hs, hwhole, hnear⟩
  · exact .inl rfl
  · refine .inr ⟨s, ?_, hwhole.int_mul σ, ?_⟩
    · rwa [abs_mul, hσ', one_mul]
    · rwa [← mul_sub, abs_mul, abs_mul, abs_mul, hσ', one_mul, one_mul, one_mul]

theorem Developed.shift (h : Developed n x y) (t : ℤ) :
    Developed n (x * 10 ^ t) (y * 10 ^ t) := by
  have hten := Decimal.ten_zpow_pos t
  rcases h with rfl | ⟨s, hs, ⟨m, rfl⟩, hnear⟩
  · exact .inl rfl
  · have hadd (k : ℤ) : (10 : ℚ) ^ (k + t) = 10 ^ k * 10 ^ t := zpow_add₀ (by norm_num) ..
    refine .inr ⟨s + t, ?_, ⟨m, by rw [hadd, mul_assoc]⟩, ?_⟩
    · rw [← add_assoc, hadd, abs_mul, abs_of_pos hten]
      exact mul_le_mul_of_nonneg_right hs hten.le
    · rw [hadd, ← sub_mul, abs_mul, abs_mul x, abs_mul (_ * _), abs_of_pos hten, ← mul_assoc,
        mul_le_mul_iff_left₀ hten, mul_left_inj' hten.ne', mul_lt_mul_iff_left₀ hten]
      exact hnear

/-- What is developed to enough digits stays between the powers of ten around it. -/
theorem Developed.place (h : Developed n x y) (hn : n ≠ 0) (he : LastPlace p x e) :
    LastPlace p y e ∨ |y| = 10 ^ (p + e) := by
  rcases h with rfl | ⟨s, hs, hwhole, hnear, -⟩
  · exact .inl he
  have hsp := ten_zpow_lt_iff.mp (hs.trans_lt he.2)
  have hten := Decimal.ten_zpow_pos s
  obtain ⟨hbelow, habove⟩ := abs_le.mp (abs_abs_sub_abs_le x y)
  have hunit {k : ℤ} (hk : s ≤ k) : Whole s ((10 : ℚ) ^ k) := (whole_ten_zpow k).of_le hk
  have hlow : (10 : ℚ) ^ ((p : ℤ) - 1 + e) ≤ |y| := by
    by_contra hlt
    refine hlt (hwhole.abs.eq_of_near (hunit (by omega)) ?_).ge
    rw [abs_sub_lt_iff]
    constructor <;> linarith [he.1]
  have hhigh : |y| ≤ (10 : ℚ) ^ ((p : ℤ) + e) := by
    by_contra hlt
    refine hlt (hwhole.abs.eq_of_near (hunit (by omega)) ?_).le
    rw [abs_sub_lt_iff]
    constructor <;> linarith [he.2]
  exact hhigh.lt_or_eq.imp_left (⟨hlow, ·⟩)

/-- **Rounding twice.** A number that is developed first and then rounded to fewer digits is rounded
as the number itself, unless a limit of rounding lies between the two. -/
theorem Developed.nearest_iff (h : Developed n x y) (hn : n ≠ 0) (hp : p ≠ 0)
    (hd : Nearest p y d) : Nearest p x d ↔ ¬ Apart p x y := by
  by_cases hx : x = 0
  · subst hx
    exact iff_of_true (h.eq_zero ▸ hd) fun ⟨_, _, he, _⟩ => he.ne_zero rfl
  obtain ⟨e, he⟩ := exists_lastPlace p hx
  obtain ⟨m, hm⟩ := exists_nearestEven (x / 10 ^ e)
  obtain ⟨m', hm', rfl⟩ := hd.at_place hp (h.place hn he)
  have hnearest : Nearest p x (m' * 10 ^ e) ↔ m' = m := by
    constructor
    · intro hd
      have heq := hd.unique (.inr ⟨e, m, he, hm, rfl⟩)
      exact_mod_cast mul_right_cancel₀ (Decimal.ten_zpow_pos e).ne' heq
    · rintro rfl
      exact .inr ⟨e, m', he, hm, rfl⟩
  have hapart : Apart p x y ↔ ∃ i, ¬ (m ≤ i ↔ m' ≤ i) := by
    constructor
    · rintro ⟨e', i, he', hi⟩
      cases he.unique he'
      exact ⟨i, by rwa [hm.atMost_iff, hm'.atMost_iff] at hi⟩
    · rintro ⟨i, hi⟩
      exact ⟨e, i, he, by rwa [hm.atMost_iff, hm'.atMost_iff]⟩
  rw [hnearest, hapart, not_exists_not]
  exact ⟨fun heq _ => heq ▸ Iff.rfl, fun hall =>
    le_antisymm ((hall m).mp le_rfl) ((hall m').mpr le_rfl)⟩

/-- What has no more digits is developed to itself. -/
theorem Developed.eq_of_digits (h : Developed n x y) (hx : Digits n x) : y = x := by
  rcases h with h | ⟨s, hs, hwhole, hnear, -⟩
  · exact h
  · refine ((hx.whole hs).eq_of_near hwhole ?_).symm
    linarith [Decimal.ten_zpow_pos s]

/-- The limit of rounding that lies between a number and its development. -/
theorem Apart.exists_limit (h : Apart p x y) :
    ∃ (e : ℤ) (v : ℚ), LastPlace p x e ∧ Whole (e - 1) v ∧ x ≠ y ∧ |v - y| ≤ |x - y| := by
  obtain ⟨e, m, he, hm⟩ := h
  have hten := Decimal.ten_zpow_pos e
  refine ⟨e, (m + 1 / 2) * 10 ^ e, he, ⟨10 * m + 5, ?_⟩, ?_, ?_⟩
  · rw [zpow_sub_one₀ (by norm_num)]
    push_cast
    ring
  · rintro rfl
    exact hm Iff.rfl
  · have hlimit {u v : ℚ} (hu : AtMost m (u / 10 ^ e)) (hv : ¬ AtMost m (v / 10 ^ e)) :
        u ≤ (m + 1 / 2) * 10 ^ e ∧ (m + 1 / 2) * 10 ^ e ≤ v := by
      rw [← div_le_iff₀ hten, ← le_div_iff₀ hten]
      exact ⟨hu.elim le_of_lt fun h => h.1.le, not_lt.mp fun hlt => hv (.inl hlt)⟩
    have hsides : (x ≤ (m + 1 / 2) * 10 ^ e ∧ (m + 1 / 2) * 10 ^ e ≤ y) ∨
        (y ≤ (m + 1 / 2) * 10 ^ e ∧ (m + 1 / 2) * 10 ^ e ≤ x) := by
      by_cases hx : AtMost m (x / 10 ^ e)
      · exact .inl (hlimit hx fun hy => hm (iff_of_true hx hy))
      · exact .inr (hlimit (by_contra fun hy => hm (iff_of_false hx hy)) hx)
    rcases hsides with ⟨hx, hy⟩ | ⟨hy, hx⟩
    · rw [abs_of_nonpos (by linarith), abs_of_nonpos (by linarith)]
      linarith
    · rw [abs_of_nonneg (by linarith), abs_of_nonneg (by linarith)]
      linarith

/-- A quotient is no nearer to a whole number of units than the divisor allows. -/
theorem Whole.le_distance {a b t u : ℤ} {v : ℚ} (hv : Whole u v) (hx : x * b = a * 10 ^ t)
    (hu : u ≤ t) (hb : (b : ℚ) ≠ 0) (hne : x ≠ v) : (10 : ℚ) ^ u ≤ |x - v| * |(b : ℚ)| := by
  have hdistance : Whole u (x * b - b * v) := by
    rw [hx]
    exact (((whole_ten_zpow t).of_le hu).int_mul a).sub (hv.int_mul b)
  rw [mul_comm (b : ℚ), ← sub_mul] at hdistance
  rw [← abs_mul]
  exact hdistance.le_abs (mul_ne_zero (sub_ne_zero.mpr hne) hb)

/-- **Quotients of few digits.** A limit of rounding has few digits too, and so a quotient that is
not on it is too far from it to be developed to it. -/
theorem Developed.not_apart {a b t : ℤ} (h : Developed n x y) (hx : x = a / b * 10 ^ t)
    (ha : |(a : ℚ)| ≤ 10 ^ ((n : ℤ) - 1)) (hb : |(b : ℚ)| * 10 ^ (p : ℤ) ≤ 10 ^ ((n : ℤ) - 1)) :
    ¬ Apart p x y := by
  intro hapart
  obtain ⟨e, v, he, hv, hne, hvy⟩ := hapart.exists_limit
  rcases h with rfl | ⟨s, hs, hwhole, hnear, -⟩
  · exact hne rfl
  have hb0 : (b : ℚ) ≠ 0 := by
    intro hb0
    rw [hb0, div_zero, zero_mul] at hx
    exact he.ne_zero hx
  have hsp := ten_zpow_lt_iff.mp (hs.trans_lt he.2)
  have hpn : (p : ℤ) ≤ n - 1 := by
    have hone : 1 ≤ |(b : ℚ)| := by
      exact_mod_cast Int.one_le_abs (Int.cast_ne_zero.mp hb0)
    exact (zpow_le_zpow_iff_right₀ (by norm_num)).mp
      ((le_mul_of_one_le_left (Decimal.ten_zpow_pos _).le hone).trans hb)
  have hten := Decimal.ten_zpow_pos s
  -- the development is on the limit, and the quotient near to it
  obtain rfl : v = y := (hv.of_le (by omega)).eq_of_near hwhole (by linarith)
  have hproduct : x * b = a * 10 ^ t := by
    rw [hx]
    field_simp
  have hunit {u : ℤ} (ht : u ≤ t) (hu : u ≤ e - 1) : 2 * (10 : ℚ) ^ u ≤ 10 ^ s * |(b : ℚ)| := by
    calc 2 * (10 : ℚ) ^ u ≤ 2 * (|x - v| * |(b : ℚ)|) :=
          mul_le_mul_of_nonneg_left ((hv.of_le hu).le_distance hproduct ht hb0 hne) (by norm_num)
      _ = 2 * |x - v| * |(b : ℚ)| := (mul_assoc ..).symm
      _ ≤ 10 ^ s * |(b : ℚ)| := mul_le_mul_of_nonneg_right hnear (abs_nonneg _)
  rcases le_total (e - 1) t with ht | ht
  · have hlarge : (10 : ℚ) ^ ((n : ℤ) - 1 + s) ≤ 10 ^ (p : ℤ) * 10 ^ (e - 1) := by
      rw [← zpow_add₀ (by norm_num)]
      exact zpow_le_zpow_right₀ (by norm_num) (by omega)
    have hsmall : 2 * (10 ^ (p : ℤ) * 10 ^ (e - 1)) ≤ (10 : ℚ) ^ ((n : ℤ) - 1 + s) := by
      calc 2 * (10 ^ (p : ℤ) * 10 ^ (e - 1))
          = 10 ^ (p : ℤ) * (2 * (10 : ℚ) ^ (e - 1)) := by ring
        _ ≤ 10 ^ (p : ℤ) * (10 ^ s * |(b : ℚ)|) :=
            mul_le_mul_of_nonneg_left (hunit ht le_rfl) (Decimal.ten_zpow_pos _).le
        _ = |(b : ℚ)| * 10 ^ (p : ℤ) * 10 ^ s := by ring
        _ ≤ 10 ^ ((n : ℤ) - 1) * 10 ^ s := mul_le_mul_of_nonneg_right hb hten.le
        _ = 10 ^ ((n : ℤ) - 1 + s) := (zpow_add₀ (by norm_num) ..).symm
    linarith [Decimal.ten_zpow_pos ((n : ℤ) - 1 + s)]
  · have hlarge : (10 : ℚ) ^ ((n : ℤ) - 1) * (2 * 10 ^ t) ≤ 10 ^ ((n : ℤ) - 1) * 10 ^ t := by
      calc (10 : ℚ) ^ ((n : ℤ) - 1) * (2 * 10 ^ t)
          ≤ 10 ^ ((n : ℤ) - 1) * (10 ^ s * |(b : ℚ)|) :=
            mul_le_mul_of_nonneg_left (hunit le_rfl ht) (Decimal.ten_zpow_pos _).le
        _ = 10 ^ ((n : ℤ) - 1 + s) * |(b : ℚ)| := by rw [zpow_add₀ (by norm_num), mul_assoc]
        _ ≤ |x| * |(b : ℚ)| := mul_le_mul_of_nonneg_right hs (abs_nonneg _)
        _ = |(a : ℚ)| * 10 ^ t := by
            rw [← abs_mul, hproduct, abs_mul, abs_of_pos (Decimal.ten_zpow_pos t)]
        _ ≤ 10 ^ ((n : ℤ) - 1) * 10 ^ t :=
            mul_le_mul_of_nonneg_right ha (Decimal.ten_zpow_pos t).le
    have hpos := mul_pos (Decimal.ten_zpow_pos ((n : ℤ) - 1)) (Decimal.ten_zpow_pos t)
    linarith

end Rounding

namespace Decimal

open Rounding

/-! ### Long division -/

/-- The shifted numerator is not below the divisor. -/
theorem le_shiftsUpTo {d fuel m : ℕ} (h : d ≤ m * 10 ^ fuel) :
    d ≤ m * 10 ^ shiftsUpTo d fuel m := by
  induction fuel generalizing m with
  | zero => exact h
  | succ fuel ih =>
    rw [shiftsUpTo]
    split
    · have hshifted : d ≤ m * 10 * 10 ^ fuel := by rwa [mul_assoc, ← pow_succ']
      rw [pow_succ', ← mul_assoc]
      exact ih hshifted
    · next hge => simpa using hge

/-- Each step of long division takes one digit of the quotient and leaves a remainder. It makes all
its steps unless nothing remains. -/
theorem extend_spec {d : ℕ} (hd : 0 < d) (n q r k : ℕ) (hr : r < d) :
    ∃ q' r' j, extend d n q r k = (q', r', k + j) ∧ (q * d + r) * 10 ^ j = q' * d + r' ∧
      r' < d ∧ q * 10 ^ j ≤ q' ∧ (r' = 0 ∨ j = n) := by
  induction n generalizing q r k with
  | zero => exact ⟨q, r, 0, rfl, by ring, hr, by simp, .inr rfl⟩
  | succ n ih =>
    rw [extend]
    split
    · next hzero => exact ⟨q, r, 0, rfl, by ring, hr, by simp, .inl hzero⟩
    · obtain ⟨q', r', j, hext, hdiv, hlt, hle, hend⟩ :=
        ih (q * 10 + r * 10 / d) (r * 10 % d) (k + 1) (Nat.mod_lt _ hd)
      refine ⟨q', r', j + 1, ?_, ?_, hlt, ?_, hend.imp_right (congrArg (· + 1))⟩
      · rw [hext, Nat.add_assoc, Nat.add_comm 1 j]
      · have hstep : (q * 10 + r * 10 / d) * d + r * 10 % d = (q * d + r) * 10 := by
          calc (q * 10 + r * 10 / d) * d + r * 10 % d
              = q * 10 * d + (d * (r * 10 / d) + r * 10 % d) := by ring
            _ = (q * d + r) * 10 := by rw [Nat.div_add_mod]; ring
        rw [← hdiv, hstep, pow_succ']
        ring
      · calc q * 10 ^ (j + 1) = q * 10 * 10 ^ j := by rw [pow_succ', mul_assoc]
          _ ≤ (q * 10 + r * 10 / d) * 10 ^ j := Nat.mul_le_mul_right _ (Nat.le_add_right ..)
          _ ≤ q' := hle

/-- **Long division.** The numerator, shifted by some places, is divided with a remainder. The
quotient is rounded by its next digit, and has a hundred digits if something remains. -/
theorem longDivision_spec {m d : ℕ} (hm : 0 < m) (hd : 0 < d) :
    ∃ k q r, m * 10 ^ k = q * d + r ∧ r < d ∧
      longDivision m d = (if d ≤ 2 * r then q + 1 else q, k) ∧
      (r = 0 ∨ 10 ^ (quotientDigits - 1) ≤ q) := by
  set shift := shiftsUpTo d (digitCount d + 1) m with hshift
  have hshifted : d ≤ m * 10 ^ shift := by
    refine le_shiftsUpTo ?_
    calc d ≤ 10 ^ digitCount d := (lt_pow10_digitCount d).le
      _ ≤ 10 ^ (digitCount d + 1) := Nat.pow_le_pow_right (by decide) (Nat.le_succ _)
      _ ≤ m * 10 ^ (digitCount d + 1) := Nat.le_mul_of_pos_left _ hm
  set q := m * 10 ^ shift / d with hq
  have hpos : 0 < q := Nat.div_pos hshifted hd
  obtain ⟨q', r', j, hext, hdiv, hlt, hle, hend⟩ := extend_spec hd (quotientDigits - digitCount q) q
    (m * 10 ^ shift % d) shift (Nat.mod_lt _ hd)
  refine ⟨shift + j, q', r', ?_, hlt, ?_, hend.imp_right fun hj => ?_⟩
  · rw [← hdiv, pow_add, ← mul_assoc, mul_comm q d, hq, Nat.div_add_mod]
  · have hround : 5 ≤ r' * 10 / d ↔ d ≤ 2 * r' := by
      rw [Nat.le_div_iff_mul_le hd]
      omega
    have hunfold : longDivision m d =
        (let out := extend d (quotientDigits - digitCount q) q (m * 10 ^ shift % d) shift
        (if 5 ≤ out.2.1 * 10 / d then out.1 + 1 else out.1, out.2.2)) := rfl
    rw [hunfold, hext]
    simp only [hround]
  · calc 10 ^ (quotientDigits - 1) ≤ 10 ^ (digitCount q - 1 + j) :=
          Nat.pow_le_pow_right (by decide) (by omega)
      _ = 10 ^ (digitCount q - 1) * 10 ^ j := pow_add ..
      _ ≤ q * 10 ^ j := Nat.mul_le_mul_right _ (pow10_digitCount_le hpos.ne')
      _ ≤ q' := hle

/-- The quotient by long division is exact, or rounded behind a hundred digits. -/
theorem developed_longDivision {m d : ℕ} (hm : 0 < m) (hd : 0 < d) :
    ∃ q k : ℕ, longDivision m d = (q, k) ∧ Developed quotientDigits ((m : ℚ) * 10 ^ k / d) q := by
  obtain ⟨k, q, r, hdiv, hr, hlong, hend⟩ := longDivision_spec hm hd
  have hd' : (0 : ℚ) < d := Nat.cast_pos.mpr hd
  have hquotient : (m : ℚ) * 10 ^ k / d = q + r / d := by
    have hcast : (m : ℚ) * 10 ^ k = q * d + r := by exact_mod_cast hdiv
    rw [hcast, add_div, mul_div_cancel_right₀ _ hd'.ne']
  refine ⟨_, k, hlong, ?_⟩
  rw [hquotient]
  rcases hend with rfl | hlarge
  · left
    rw [if_neg (by omega), Nat.cast_zero, zero_div, add_zero]
  · have hlow : (0 : ℚ) ≤ r / d := by positivity
    have hhigh : (r : ℚ) / d < 1 := (div_lt_one hd').mpr (Nat.cast_lt.mpr hr)
    have hhalf : d ≤ 2 * r ↔ 1 / 2 ≤ (r : ℚ) / d := by
      rw [div_le_div_iff₀ (by norm_num) hd', one_mul, mul_comm (r : ℚ)]
      exact_mod_cast Iff.rfl
    have hsize : |(q : ℚ) + r / d| = q + r / d := abs_of_nonneg (by positivity)
    refine .inr ⟨0, ?_, ⟨_, by rw [zpow_zero, mul_one, Int.cast_natCast]⟩, ?_⟩
    · have hlarge' : (10 : ℚ) ^ (quotientDigits - 1) ≤ q := by exact_mod_cast hlarge
      rw [hsize, add_zero]
      exact hlarge'.trans (le_add_of_nonneg_right hlow)
    · rw [hsize, zpow_zero, Nat.abs_cast]
      split
      · next h =>
        have hup := hhalf.mp h
        push_cast
        rw [add_sub_add_left_eq_sub, abs_of_neg (by linarith)]
        exact ⟨by linarith, fun _ => by linarith⟩
      · next h =>
        have hdown := not_le.mp (hhalf.not.mp h)
        rw [add_sub_cancel_left, abs_of_nonneg hlow]
        exact ⟨by linarith, fun h => by linarith⟩

theorem value_eq_sign_mul (d : Decimal) :
    d.value = d.digits.sign * (d.digits.natAbs * (10 : ℚ) ^ (-d.scale)) := by
  rw [value, ← mul_assoc, ← Int.cast_natCast, ← Int.cast_mul, Int.sign_mul_natAbs]

/-- A quotient is that of the digits, shifted by some places, at the scale that makes up for it. -/
theorem value_div {a b : Decimal} (hb : b.digits ≠ 0) (k : ℕ) :
    a.value / b.value = (a.digits.sign * b.digits.sign : ℤ) *
      (a.digits.natAbs * 10 ^ k / b.digits.natAbs * (10 : ℚ) ^ (-(a.scale - b.scale + k))) := by
  have hexponent : (10 : ℚ) ^ (-(a.scale - b.scale + k)) =
      10 ^ (-a.scale) / (10 ^ (-b.scale) * 10 ^ k) := by
    have hsum : -(a.scale - b.scale + k) = -a.scale - (-b.scale + k) := by ring
    rw [hsum, zpow_sub₀ (by norm_num), zpow_add₀ (by norm_num), zpow_natCast]
  have hdigits : (b.digits.natAbs : ℚ) ≠ 0 := Nat.cast_ne_zero.mpr (Int.natAbs_ne_zero.mpr hb)
  have hsign : (b.digits.sign : ℚ) ≠ 0 :=
    Int.cast_ne_zero.mpr (Int.sign_eq_zero_iff_zero.not.mpr hb)
  have hsquare : (b.digits.sign : ℚ) ^ 2 = 1 := by
    rw [← sq_abs, ← Int.cast_abs, Int.abs_sign_of_ne_zero hb, Int.cast_one, one_pow]
  have hten := (ten_zpow_pos (-b.scale)).ne'
  rw [hexponent, value_eq_sign_mul a, value_eq_sign_mul b, Int.cast_mul]
  field_simp
  rw [hsquare, mul_one]

/-- **A quotient is developed to a hundred digits.** -/
theorem developed_quotient {a b : Decimal} (hb : b.value ≠ 0) :
    Developed quotientDigits (a.value / b.value) (a.quotient b).value := by
  rw [quotient]
  split
  · next h =>
    left
    rcases Bool.or_eq_true .. ▸ h with h | h
    · rw [value_of_isZero h, zero_div]
    · rw [value_of_isOne h, div_one]
  · next h =>
    have ha0 : a.digits ≠ 0 := by
      intro ha
      exact h (by rw [isZero, ha]; rfl)
    have hb0 : b.digits ≠ 0 := by
      intro hb0
      exact hb (value_of_isZero (beq_iff_eq.mpr hb0))
    split
    · next heq =>
      left
      have hb0' : (b.digits : ℚ) ≠ 0 := Int.cast_ne_zero.mpr hb0
      have hexponent : -(a.scale - b.scale) = -a.scale - -b.scale := by ring
      rw [value, value, value, heq, mul_div_mul_left _ _ hb0', Int.cast_one, one_mul, hexponent,
        zpow_sub₀ (by norm_num)]
    · obtain ⟨q, k, hlong, hdeveloped⟩ := developed_longDivision (Int.natAbs_pos.mpr ha0)
        (Int.natAbs_pos.mpr hb0)
      simp only [hlong]
      have hsign : |a.digits.sign * b.digits.sign| = 1 := by
        rw [abs_mul, Int.abs_sign_of_ne_zero ha0, Int.abs_sign_of_ne_zero hb0, one_mul]
      rw [value_div hb0 k, value, Int.cast_mul _ (q : ℤ), Int.cast_natCast, mul_assoc]
      exact (hdeveloped.shift _).sign_mul hsign

end Decimal

/-! ### Quotients to a precision -/

namespace Number

open Rounding

variable {a b : Number} {p : ℕ} {x y : ℚ}

theorem isZero_of_value (hb : b.value? = some y) (hy : y ≠ 0) : b.isZero = false := by
  rw [Bool.eq_false_iff]
  intro hzero
  cases b with
  | double _ => cases hb
  | integer n =>
    obtain rfl := Option.some.inj hb
    exact hy (by rw [eq_of_beq hzero]; rfl)
  | long n =>
    obtain rfl := Option.some.inj hb
    exact hy (by rw [eq_of_beq hzero]; rfl)
  | decimal d =>
    obtain rfl := Option.some.inj hb
    exact hy (Decimal.value_of_isZero hzero)

/-- **Division rounds twice.** There is a quotient by every number but zero. It is developed to a
hundred digits at least, and the development is rounded to the nearest number of the precision. That
is the number nearest to the quotient itself if, and only if, no limit of rounding separates it from
its development. None does if the quotient has no more than a hundred digits, and none if it is that
of integers with few digits, the divisor's and the precision together being fewer than a hundred. -/
theorem divide?_rounded_twice (ha : a.value? = some x) (hb : b.value? = some y) (hy : y ≠ 0)
    (hp : p ≠ 0) :
    ∃ d z, a.divide? b p = some (decimal d) ∧ Developed 100 (x / y) z ∧ Nearest p z d.value ∧
      (Nearest p (x / y) d.value ↔ ¬ Apart p (x / y) z) ∧
      (Digits 100 (x / y) → Nearest p (x / y) d.value) ∧
      ∀ m n t : ℤ, x / y = m / n * 10 ^ t → |m| ≤ 10 ^ 99 → |n| * 10 ^ p ≤ 10 ^ 99 →
        Nearest p (x / y) d.value := by
  have hx' := value_toDecimal ha
  have hy' := value_toDecimal hb
  have hdeveloped := Decimal.developed_quotient (a := a.toDecimal) (hy'.symm ▸ hy)
  rw [hx', hy'] at hdeveloped
  have hnearest := Decimal.nearest_roundTo hp (a.toDecimal.quotient b.toDecimal)
  have hiff := hdeveloped.nearest_iff (by decide) hp hnearest
  refine ⟨_, _, ?_, hdeveloped, hnearest, hiff, fun hdigits => ?_, fun m n t hmn hm hn => ?_⟩
  · rw [divide?, isZero_of_value hb hy]
    rfl
  · exact hdeveloped.eq_of_digits hdigits ▸ hnearest
  · have hpower : (10 : ℚ) ^ ((Decimal.quotientDigits : ℤ) - 1) = 10 ^ 99 := rfl
    refine hiff.mpr (hdeveloped.not_apart hmn ?_ ?_)
    · rw [hpower]
      exact_mod_cast hm
    · rw [hpower]
      exact_mod_cast hn

/-- A third is rounded correctly to 34 digits, but to 101 digits it has only a hundred. The other
quotient is more than half way between two numbers of 34 digits, but only by digits that its
development leaves out: it goes to the lower one, which is even. -/
theorem divide?_rounded_twice_third :
    let a := decimal ⟨3 * 10 ^ 105 + 15 * 10 ^ 71 + 1, 105⟩
    (∃ d, (integer 1).divide? (integer 3) 34 = some (decimal d) ∧ Nearest 34 (1 / 3) d.value) ∧
    (∃ d, (integer 1).divide? (integer 3) 101 = some (decimal d) ∧
      ¬ Nearest 101 (1 / 3) d.value) ∧
    ∃ x d, a.value? = some x ∧ a.divide? (integer 3) 34 = some (decimal d) ∧
      ¬ Nearest 34 (x / 3) d.value := by
  intro a
  have hone : (integer 1).value? = some 1 := congrArg some (by decide)
  have hthree : (integer 3).value? = some 3 := congrArg some (by decide)
  refine ⟨?_, ?_, ?_⟩
  · obtain ⟨d, -, hd, -, -, -, -, hfew⟩ :=
      divide?_rounded_twice (p := 34) hone hthree (by norm_num) (by decide)
    exact ⟨d, hd, hfew 1 3 0 (by norm_num) (by norm_num) (by norm_num)⟩
  · have hd : Decimal.divide (.ofInt 1) (.ofInt 3) 101 = ⟨(10 ^ 100 - 1) / 3, 100⟩ := by
      decide +kernel
    have hnearest : Nearest 101 (1 / 3) (((10 ^ 101 - 1) / 3 : ℤ) * 10 ^ (-101 : ℤ)) :=
      .inr ⟨-101, _, ⟨by norm_num, by norm_num [abs_lt]⟩, ⟨by norm_num, by norm_num⟩, rfl⟩
    refine ⟨_, congrArg (some ∘ decimal) hd, fun h => absurd (h.unique hnearest) ?_⟩
    norm_num [Decimal.value]
  · have hd : Decimal.divide ⟨3 * 10 ^ 105 + 15 * 10 ^ 71 + 1, 105⟩ (.ofInt 3) 34 = ⟨1, 0⟩ := by
      decide +kernel
    have hnearest : Nearest 34 (Decimal.value ⟨3 * 10 ^ 105 + 15 * 10 ^ 71 + 1, 105⟩ / 3)
        ((10 ^ 33 + 1 : ℤ) * 10 ^ (-33 : ℤ)) :=
      .inr ⟨-33, _, ⟨by norm_num [Decimal.value], by norm_num [Decimal.value, abs_lt]⟩,
        ⟨by norm_num [Decimal.value, abs_le], by norm_num [Decimal.value]⟩, rfl⟩
    refine ⟨_, _, rfl, congrArg (some ∘ decimal) hd, fun h => absurd (h.unique hnearest) ?_⟩
    norm_num [Decimal.value]

end Number

end Feel
