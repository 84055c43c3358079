import Feel.Proofs.WholeNumbers

/-!
# Rounding errors

A product or a quotient of binary64 numbers is cut to 53 digits and rounded, so that it lies within
one part in `2 ^ 52` of the exact one. The relative errors of a computation multiply up, and as long
as they leave a result within one half of an integer, rounding it gives that integer.

* `Binary64.Near`: an unpacked number of 53 digits with a relative error.
* `Binary64.Near.mul`, `Binary64.near_div`: the errors of products and of quotients.
* `Binary64.Near.denotes_round`: rounding to the nearest integer makes up for small errors.
* `Binary64.toInt64_round_scaled`: a decimal number with three places times a scale.
-/

namespace Feel

namespace Binary64

open Float.Model Float.Model.UnpackedFloat

/-! ### Cutting and rounding mantissas -/

/-- Where the digits that were shifted out lie makes no difference to those that are left. -/
theorem mantissa_shiftRight (em : ExtendedMantissa) (k : Nat) :
    (em >>> k).mantissa = em.mantissa / 2 ^ k := by
  show (Nat.repeat ExtendedMantissa.shiftRightOne k em).mantissa = _
  induction k with
  | zero => simp [Nat.repeat]
  | succ k ih =>
    rw [Nat.repeat, ExtendedMantissa.shiftRightOne, ih, Nat.div_div_eq_div_mul, Nat.pow_succ]

theorem mantissa_ofMantissaAndAccuracy (m : Nat) (accuracy : Accuracy) :
    (ExtendedMantissa.ofMantissaAndAccuracy m accuracy).mantissa = m := by
  cases accuracy with
  | exact => rfl
  | inexact half => cases half <;> rfl

/-- Rounding keeps a mantissa or adds one. -/
theorem roundedMantissa_bounds (em : ExtendedMantissa) :
    em.mantissa ≤ em.roundedMantissa ∧ em.roundedMantissa ≤ em.mantissa + 1 := by
  obtain ⟨m, halfDigit, rest⟩ := em
  cases halfDigit <;> cases rest <;>
    simp only [ExtendedMantissa.roundedMantissa, ExtendedMantissa.accuracy,
      Accuracy.roundToNearestEven] <;> omega

/-- A mantissa of 53 digits is not shifted. -/
theorem shiftToTargetExponent_of_bounds {m : Nat} {e : Int} (low : 2 ^ 52 ≤ m) (high : m < 2 ^ 53)
    (he : -1074 ≤ e) : shiftToTargetExponent .binary64 m e .exact = (⟨m, false, false⟩, e) := by
  have hlog := log2_of_bounds low high
  rw [shiftToTargetExponent_eq low (by omega), hlog]
  simp [shifted, Nat.mod_one]

/-- The places by which a mantissa is longer than 53 digits. -/
def excess (m : Nat) : Nat := m.log2 - 52

/-- A mantissa that is cut to 53 digits and rounded is off by no more than one in its last digit. -/
theorem exists_roundWithAccuracy (sign : Sign) {m : Nat} (e : Int) (accuracy : Accuracy)
    (hm : 2 ^ 52 ≤ m) (he : -1074 ≤ e + excess m) :
    ∃ (q : Nat) (k : Int) (hq : 0 < q),
      roundWithAccuracy .binary64 sign m e accuracy = .finite sign q k hq ∧
      2 ^ 52 ≤ q ∧ q < 2 ^ 53 ∧ (k = e + excess m ∨ k = e + excess m + 1) ∧
      |(q : ℚ) * 2 ^ k - m * 2 ^ e| ≤ 2 ^ (e + excess m) := by
  have hlog : 52 ≤ m.log2 := (Nat.le_log2 (by omega)).mpr hm
  obtain ⟨s, hs⟩ : ∃ s, excess m = s := ⟨_, rfl⟩
  obtain ⟨em, hem⟩ : ∃ em, ExtendedMantissa.ofMantissaAndAccuracy m accuracy >>> s = em := ⟨_, rfl⟩
  have hmantissa : em.mantissa = m / 2 ^ s := by
    rw [← hem, mantissa_shiftRight, mantissa_ofMantissaAndAccuracy]
  have hfirst : shiftToTargetExponent .binary64 m e accuracy = (em, e + s) := by
    have hamount : (e + (m.log2 - 52 : Nat) - e).toNat = s := by
      rw [← hs, excess]
      omega
    rw [shiftToTargetExponent, targetExponent_eq hm he, shiftToExponent, hamount, hem]
  have hlow : 2 ^ 52 ≤ m / 2 ^ s := by
    rw [Nat.le_div_iff_mul_le (Nat.two_pow_pos _), ← Nat.pow_add, ← hs, excess,
      Nat.add_sub_cancel' hlog]
    exact Nat.log2_self_le (by omega)
  have hhigh : m / 2 ^ s < 2 ^ 53 := by
    rw [Nat.div_lt_iff_lt_mul (Nat.two_pow_pos _), ← Nat.pow_add]
    have hlt := Nat.lt_log2_self (n := m)
    rwa [← hs, excess, show 53 + (m.log2 - 52) = m.log2 + 1 by omega]
  obtain ⟨hle, hle'⟩ := roundedMantissa_bounds em
  rw [hmantissa] at hle hle'
  -- both the mantissa and what is left of it lie between the quotient and one more
  have herror : |(em.roundedMantissa : ℚ) * 2 ^ (e + s) - m * 2 ^ e| ≤ 2 ^ (e + s) := by
    have hpow : (2 : ℚ) ^ (e + s) = 2 ^ s * 2 ^ e := by
      rw [zpow_add₀ (by norm_num), zpow_natCast, mul_comm]
    have hunit : (0 : ℚ) < 2 ^ e := by positivity
    have hfloor : ((m / 2 ^ s : Nat) : ℚ) * 2 ^ s ≤ m := by
      exact_mod_cast Nat.div_mul_le_self m (2 ^ s)
    have hceil : (m : ℚ) ≤ ((m / 2 ^ s : Nat) + 1) * 2 ^ s := by
      exact_mod_cast (Nat.lt_mul_of_div_lt (Nat.lt_succ_self (m / 2 ^ s)) (Nat.two_pow_pos s)).le
    have hr : ((m / 2 ^ s : Nat) : ℚ) ≤ em.roundedMantissa := by exact_mod_cast hle
    have hr' : (em.roundedMantissa : ℚ) ≤ (m / 2 ^ s : Nat) + 1 := by exact_mod_cast hle'
    have hs' : (0 : ℚ) < 2 ^ s := by positivity
    have hinner : |(em.roundedMantissa : ℚ) * 2 ^ s - m| ≤ 2 ^ s := by
      rw [abs_le]
      constructor <;> nlinarith
    rw [hpow, ← mul_assoc, ← sub_mul, abs_mul, abs_of_pos hunit]
    exact mul_le_mul_of_nonneg_right hinner hunit.le
  unfold roundWithAccuracy
  rw [hfirst, hs]
  dsimp only
  rcases Nat.lt_or_ge em.roundedMantissa (2 ^ 53) with hlt | hge
  · rw [shiftToTargetExponent_of_bounds (hlow.trans hle) hlt (hs ▸ he)]
    have hpos : 0 < em.roundedMantissa := by omega
    exact ⟨_, _, hpos, dif_neg (Nat.ne_of_gt hpos), by omega, hlt, .inl rfl, herror⟩
  · -- rounding up to the next power of two takes one more digit, which is zero
    have hpower : em.roundedMantissa = 2 ^ 53 := by omega
    rw [hpower] at herror ⊢
    have hcarry : shiftToTargetExponent .binary64 (2 ^ 53) (e + s) .exact =
        (⟨2 ^ 52, false, false⟩, e + s + 1) := by
      rw [shiftToTargetExponent_eq (by decide) (by rw [Nat.log2_two_pow]; omega), Nat.log2_two_pow]
      rfl
    rw [hcarry]
    refine ⟨2 ^ 52, _, by decide, dif_neg (show ¬ 2 ^ 52 = 0 by decide), le_rfl, by decide,
      .inr rfl, ?_⟩
    have hvalue : ((2 ^ 52 : Nat) : ℚ) * 2 ^ (e + s + 1) = ((2 ^ 53 : Nat) : ℚ) * 2 ^ (e + s) := by
      rw [zpow_add_one₀ (by norm_num)]
      push_cast
      ring
    rw [hvalue]
    exact herror

/-! ### Numbers with a relative error -/

/-- The greatest relative error of one rounding. -/
def unitError : ℚ := 1 / 2 ^ 52

theorem unitError_pos : 0 < unitError := by norm_num [unitError]

/-- A positive number of 53 digits, with an exponent of no more than `b`, that is off `x` by no more
than the part `ε` of it. -/
inductive Near (b : Nat) (ε x : ℚ) : UnpackedFloat → Prop
  | finite {m : Nat} {e : Int} (hm : 0 < m) (low : 2 ^ 52 ≤ m) (high : m < 2 ^ 53)
      (exponent : e.natAbs ≤ b) (error : |(m : ℚ) * 2 ^ e - x| ≤ ε * x) :
      Near b ε x (.finite .positive m e hm)

section Near

variable {b c : Nat} {ε δ x y : ℚ} {f g : UnpackedFloat}

theorem Near.unpack_pack (h : Near b ε x f) (hb : b ≤ 971) : (Float.Model.pack f).unpack = f := by
  cases h with
  | finite hm low high exponent error =>
    exact Binary64.unpack_pack hm low high (by omega) (by omega)

/-- What is near to a number that is near to another is near to that one. -/
theorem Near.trans (h : Near b ε y f) (hε : 0 ≤ ε) (hy : |y - x| ≤ δ * x) :
    Near b ((1 + ε) * (1 + δ) - 1) x f := by
  cases h with
  | @finite m e hm low high exponent error =>
    refine .finite hm low high exponent ?_
    have hle : y ≤ x + δ * x := by linarith [le_abs_self (y - x)]
    have hmul : ε * y ≤ ε * (x + δ * x) := mul_le_mul_of_nonneg_left hle hε
    have htriangle := abs_sub_le ((m : ℚ) * 2 ^ e) y x
    linarith

/-- One rounding. -/
theorem near_roundWithAccuracy {m : Nat} {e : Int} (accuracy : Accuracy) (hm : 2 ^ 52 ≤ m)
    (he : (e + excess m).natAbs + 1 ≤ b) (hb : b ≤ 971) :
    Near b unitError (m * 2 ^ e) (roundWithAccuracy .binary64 .positive m e accuracy) := by
  obtain ⟨q, k, hq, hround, low, high, hk, herror⟩ :=
    exists_roundWithAccuracy .positive e accuracy hm (by omega)
  rw [hround]
  refine .finite hq low high (by omega) (herror.trans ?_)
  have hdigits : (2 : ℚ) ^ 52 * 2 ^ excess m ≤ m := by
    have hlog : 52 ≤ m.log2 := (Nat.le_log2 (by omega)).mpr hm
    have hself := Nat.log2_self_le (n := m) (by omega)
    rw [← pow_add, excess, Nat.add_sub_cancel' hlog]
    exact_mod_cast hself
  have hunit : (0 : ℚ) < 2 ^ e := by positivity
  rw [zpow_add₀ (by norm_num), zpow_natCast, unitError]
  have hscaled := mul_le_mul_of_nonneg_right hdigits hunit.le
  linarith

/-- The relative errors of two factors multiply up. -/
theorem abs_mul_sub_mul_le {v w : ℚ} (hx : 0 ≤ x) (hy : 0 ≤ y) (hv : |v - x| ≤ ε * x)
    (hw : |w - y| ≤ δ * y) : |v * w - x * y| ≤ ((1 + ε) * (1 + δ) - 1) * (x * y) := by
  have hεx : 0 ≤ ε * x := (abs_nonneg _).trans hv
  have hsplit : v * w - x * y = (v - x) * (w - y) + (v - x) * y + x * (w - y) := by ring
  have h₁ : |(v - x) * (w - y)| ≤ ε * x * (δ * y) := by
    rw [abs_mul]
    exact mul_le_mul hv hw (abs_nonneg _) hεx
  have h₂ : |(v - x) * y| ≤ ε * x * y := by
    rw [abs_mul, abs_of_nonneg hy]
    exact mul_le_mul_of_nonneg_right hv hy
  have h₃ : |x * (w - y)| ≤ x * (δ * y) := by
    rw [abs_mul, abs_of_nonneg hx]
    exact mul_le_mul_of_nonneg_left hw hx
  rw [hsplit]
  linarith [abs_add_three ((v - x) * (w - y)) ((v - x) * y) (x * (w - y))]

/-- **Products** are rounded once. -/
theorem Near.mul (h : Near b ε x f) (h' : Near c δ y g) (hx : 0 ≤ x) (hy : 0 ≤ y)
    (hb : b + c ≤ 917) :
    Near (b + c + 54) ((1 + unitError) * (1 + ((1 + ε) * (1 + δ) - 1)) - 1) (x * y)
      (UnpackedFloat.mul .binary64 f g) := by
  cases h with
  | @finite m e hm low high exponent error =>
  cases h' with
  | @finite n k hn low' high' exponent' error' =>
    have hproduct : 2 ^ 52 * 2 ^ 52 ≤ m * n := Nat.mul_le_mul low low'
    have hproduct' : m * n < 2 ^ 53 * 2 ^ 53 := Nat.mul_lt_mul'' high high'
    have hlog := (Nat.le_log2 (k := 104) (show m * n ≠ 0 by omega)).mpr hproduct
    have hlog' := (Nat.log2_lt (k := 106) (show m * n ≠ 0 by omega)).mpr hproduct'
    have hround := near_roundWithAccuracy (b := b + c + 54) (e := e + k) .exact
      (show 2 ^ 52 ≤ m * n by omega) (by rw [excess]; omega) (by omega)
    refine hround.trans unitError_pos.le ?_
    have hvalue : ((m * n : Nat) : ℚ) * 2 ^ (e + k) = m * 2 ^ e * (n * 2 ^ k) := by
      rw [zpow_add₀ (by norm_num)]
      push_cast
      ring
    rw [hvalue]
    exact abs_mul_sub_mul_le hx hy error error'

/-- **Quotients** of exact numbers are cut below the last digit and rounded. -/
theorem near_div (h : Near b 0 x f) (h' : Near c 0 y g) (hb : b + c ≤ 917) :
    Near (b + c + 54) ((1 + unitError) * (1 + unitError) - 1) (x / y)
      (UnpackedFloat.div .binary64 f g) := by
  cases h with
  | @finite m e hm low high exponent error =>
  cases h' with
  | @finite n k hn low' high' exponent' error' =>
    have hx : x = m * 2 ^ e := by
      rw [zero_mul] at error
      linarith [abs_eq_zero.mp (le_antisymm error (abs_nonneg _))]
    have hy : y = n * 2 ^ k := by
      rw [zero_mul] at error'
      linarith [abs_eq_zero.mp (le_antisymm error' (abs_nonneg _))]
    have hcore : divCore .binary64 m e n k =
        (m * 2 ^ 53 / n, e - k - 53, accuracyOfFraction (m * 2 ^ 53 % n) n) := by
      have htarget : min (e - k) (Format.binary64.targetExponent
          (totalExponent m e - totalExponent n k)) = e - k - 53 := by
        simp only [Format.targetExponent, totalExponent, Format.mantissaBits, Format.minExponent,
          log2_of_bounds low high, log2_of_bounds low' high']
        omega
      rw [divCore, htarget, show (e - k - (e - k - 53)).toNat = 53 by omega, Nat.shiftLeft_eq]
    show Near _ _ _ (roundWithAccuracy .binary64 .positive (divCore .binary64 m e n k).1
      (divCore .binary64 m e n k).2.1 (divCore .binary64 m e n k).2.2)
    rw [hcore]
    obtain ⟨q, hq⟩ : ∃ q, m * 2 ^ 53 / n = q := ⟨_, rfl⟩
    dsimp only
    rw [hq]
    have hlow : 2 ^ 52 ≤ q := by
      rw [← hq, Nat.le_div_iff_mul_le hn]
      omega
    have hhigh : q < 2 ^ 54 := by
      rw [← hq, Nat.div_lt_iff_lt_mul hn]
      omega
    have hlog := (Nat.log2_lt (show q ≠ 0 by omega)).mpr hhigh
    have hround := near_roundWithAccuracy (b := b + c + 54) (e := e - k - 53)
      (accuracyOfFraction (m * 2 ^ 53 % n) n) hlow (by rw [excess]; omega) (by omega)
    refine hround.trans unitError_pos.le ?_
    have hn' : (0 : ℚ) < n := by exact_mod_cast hn
    have hunit : (0 : ℚ) < 2 ^ (e - k - 53) := by positivity
    have hexact : x / y = m * 2 ^ 53 / n * 2 ^ (e - k - 53) := by
      have hplaces : (2 : ℚ) ^ (53 : Int) = 2 ^ 53 := by norm_cast
      rw [hx, hy, zpow_sub₀ (by norm_num), zpow_sub₀ (by norm_num), hplaces]
      field_simp
    have hfloor : (q : ℚ) ≤ m * 2 ^ 53 / n := by
      rw [le_div_iff₀ hn']
      exact_mod_cast hq ▸ Nat.div_mul_le_self (m * 2 ^ 53) n
    have hceil : (m : ℚ) * 2 ^ 53 / n ≤ q + 1 := by
      rw [div_le_iff₀ hn']
      have hlt : m * 2 ^ 53 < (q + 1) * n := Nat.lt_mul_of_div_lt (by omega) hn
      exact_mod_cast hlt.le
    have hq' : (2 : ℚ) ^ 52 ≤ q := by exact_mod_cast hlow
    rw [hexact, ← sub_mul, abs_mul, abs_of_pos hunit, ← mul_assoc]
    refine mul_le_mul_of_nonneg_right ?_ hunit.le
    rw [abs_le, unitError]
    constructor <;> linarith

end Near

/-! ### Rounding to the nearest integer -/

variable {x y : Float} {n k s v : Nat}

theorem unpack_mul (x y : Float) : (x * y).toModel.unpack =
    (Float.Model.pack (UnpackedFloat.mul .binary64 x.toModel.unpack y.toModel.unpack)).unpack := rfl

/-- A number that is off an integer by less than one half rounds to it. -/
theorem Near.denotes_round {b : Nat} {ε : ℚ} (h : Near b ε n x.toModel.unpack)
    (hε : ε * n < 1 / 2) : Denotes n (round x).toModel.unpack := by
  unfold round
  generalize hx : x.toModel.unpack = f at h
  cases h with
  | @finite m e hm low high exponent error =>
    obtain ⟨hbelow, habove⟩ := abs_lt.mp (error.trans_lt hε)
    dsimp only
    split_ifs with he
    · -- without places behind the point the number is an integer itself
      obtain ⟨j, rfl⟩ := Int.eq_ofNat_of_zero_le he
      have hvalue : (m : ℚ) * 2 ^ (j : Int) = (n : Int) := by
        rw [zpow_natCast] at hbelow habove ⊢
        have hlt : ((m * 2 ^ j : Nat) : ℚ) < ((n + 1 : Nat) : ℚ) := by
          push_cast
          linarith
        have hlt' : ((n : Nat) : ℚ) < ((m * 2 ^ j + 1 : Nat) : ℚ) := by
          push_cast
          linarith
        have heq : m * 2 ^ j = n := by
          have h₁ := Nat.cast_lt.mp hlt
          have h₂ := Nat.cast_lt.mp hlt'
          omega
        exact_mod_cast heq
      exact denotes_of_rational (canonical_unpack x) (by rw [hx]; exact congrArg some hvalue)
    · obtain ⟨p, hp⟩ : ∃ p : Nat, e = -((p : Int) + 1) := ⟨(-e - 1).toNat, by omega⟩
      have hplaces : (-e).toNat = p + 1 := by omega
      have hpow : (0 : ℚ) < 2 ^ (p + 1) := by positivity
      have hmantissa : (m : ℚ) * 2 ^ e = m / 2 ^ (p + 1) := by
        rw [hp, zpow_neg, div_eq_mul_inv]
        norm_cast
      rw [hmantissa] at hbelow habove
      have hbelow' : n * 2 ^ (p + 1) ≤ m + 2 ^ p := by
        have : (n : ℚ) * 2 ^ (p + 1) < m + 2 ^ p := by
          have := (lt_div_iff₀ hpow).mp (show (n : ℚ) - 1 / 2 < m / 2 ^ (p + 1) by linarith)
          rw [pow_succ] at this ⊢
          linarith
        exact_mod_cast this.le
      have habove' : m + 2 ^ p < (n + 1) * 2 ^ (p + 1) := by
        have : (m : ℚ) + 2 ^ p < (n + 1) * 2 ^ (p + 1) := by
          have := (div_lt_iff₀ hpow).mp (show (m : ℚ) / 2 ^ (p + 1) < n + 1 / 2 by linarith)
          rw [pow_succ] at this ⊢
          linarith
        exact_mod_cast this
      have hshift : (m + pow2 (p + 1 - 1)) >>> (p + 1) = n := by
        rw [Nat.shiftRight_eq_div_pow]
        exact Nat.div_eq_of_lt_le hbelow' habove'
      have hsmall : n ≤ 2 ^ 53 := by
        have hone : n * 1 ≤ n * 2 ^ p := Nat.mul_le_mul_left n (Nat.two_pow_pos p)
        rw [Nat.pow_succ] at hbelow'
        have hhalf : 2 ^ p ≤ n * 2 ^ p ∨ n = 0 := by
          rcases Nat.eq_zero_or_pos n with hn | hn
          · exact .inr hn
          · exact .inl (Nat.le_mul_of_pos_left _ hn)
        rcases hhalf with hhalf | hzero
        · have : n * (2 ^ p * 2) = n * 2 ^ p + n * 2 ^ p := by ring
          omega
        · omega
      rw [hplaces, hshift]
      have hdenotes := denotes_ofInt (n := (n : Int)) (by omega)
      rwa [nearest_of_natAbs_le (by omega)] at hdenotes

/-! ### Decimal numbers times a scale -/

theorem DenotesNat.near {f : UnpackedFloat} (h : DenotesNat .positive v f) (hv : v < 2 ^ 53) :
    Near 52 0 v f := by
  cases h with
  | @finite m n e hm low high hn value =>
    have hn' : n ≤ 52 := by
      by_contra hlarge
      have hpow : 2 ^ 53 ≤ 2 ^ n := Nat.pow_le_pow_right Nat.two_pos (by omega)
      have hmul := Nat.mul_le_mul low hpow
      omega
    refine .finite hm low high (by omega) ?_
    have hvalue : (m : ℚ) * 2 ^ e = v := by
      rw [hn, zpow_sub₀ (by norm_num), zpow_natCast, ← mul_div_assoc, div_eq_iff (by positivity)]
      exact_mod_cast value
    rw [hvalue, sub_self, abs_zero, zero_mul]

theorem near_ofNat (hn : n ≠ 0) (h : n < 2 ^ 53) : Near 52 0 n (Float.ofNat n).toModel.unpack := by
  have hdenotes := denotesNat_ofScientific hn (by omega)
  rw [nearestNat_of_le h.le] at hdenotes
  exact hdenotes.near h

/-- Digits with no place behind the point or with three of them. -/
theorem near_ofScientific (hn : n ≠ 0) (h : n < 2 ^ 53) (hk : k = 0 ∨ k = 3) :
    Near 158 ((1 + unitError) * (1 + unitError) - 1) (n / 10 ^ k)
      (Float.ofScientific n true k).toModel.unpack := by
  have hnumerator := (denotesNat_toFloat hn h).near h
  unfold Float.ofScientific
  rw [dif_pos ⟨h, by omega⟩]
  rcases hk with rfl | rfl
  · have hone : Near 52 0 ((10 : ℚ) ^ 0) (.finite .positive (2 ^ 52) (-52) (by decide)) :=
      .finite _ (by decide) (by decide) (by decide) (by norm_num)
    have hquotient := near_div hnumerator hone (by decide)
    show Near _ _ _ (Float.Model.pack (UnpackedFloat.div .binary64
      n.toUInt64.toFloat.toModel.unpack (Float.ofBits 0x3FF0000000000000).toModel.unpack)).unpack
    rw [unpack_one, hquotient.unpack_pack (by decide)]
    exact hquotient
  · have hthousand : Near 52 0 ((10 : ℚ) ^ 3)
        (.finite .positive (1000 * 2 ^ 43) (-43) (by decide)) :=
      .finite _ (by decide) (by decide) (by decide) (by norm_num)
    have hquotient := near_div hnumerator hthousand (by decide)
    have hunpack : (Float.ofBits 0x408F400000000000).toModel.unpack =
        .finite .positive (1000 * 2 ^ 43) (-43) (by decide) := rfl
    show Near _ _ _ (Float.Model.pack (UnpackedFloat.div .binary64
      n.toUInt64.toFloat.toModel.unpack (Float.ofBits 0x408F400000000000).toModel.unpack)).unpack
    rw [hunpack, hquotient.unpack_pack (by decide)]
    exact hquotient

/-- **Scaled decimals.** Digits with up to three places behind the point, times a scale that makes
an integer of them, round to that integer. -/
theorem toInt64_round_scaled (hk : k = 0 ∨ k = 3) (hs : s ≠ 0) (hs' : s < 2 ^ 53)
    (hn : n < 2 ^ 53) (hv : v < 2 ^ 40) (hvalue : n * s = v * 10 ^ k) :
    (toInt64 (round (Float.ofScientific n true k * Float.ofNat s))).toInt = v := by
  have hdenotes : Denotes v
      (round (Float.ofScientific n true k * Float.ofNat s)).toModel.unpack := by
    have hscale := near_ofNat hs hs'
    by_cases hzero : n = 0
    · subst hzero
      have hv : v = 0 := by
        rw [Nat.zero_mul] at hvalue
        rcases Nat.mul_eq_zero.mp hvalue.symm with hv | hten
        · exact hv
        · exact absurd hten (by positivity)
      have hfactor : (Float.ofScientific 0 true k).toModel.unpack = .zero .positive := by
        rcases hk with rfl | rfl <;> rfl
      have hproduct : (Float.ofScientific 0 true k * Float.ofNat s).toModel.unpack =
          .zero .positive := by
        rw [unpack_mul, hfactor]
        generalize (Float.ofNat s).toModel.unpack = g at hscale
        cases hscale
        rw [UnpackedFloat.mul]
        rfl
      subst hv
      unfold round
      rw [hproduct]
      show Denotes 0 (Float.ofScientific 0 true k * Float.ofNat s).toModel.unpack
      rw [hproduct]
      exact .zero .positive
    · have hnear := (near_ofScientific hzero hn hk).mul hscale (by positivity) (by positivity)
        (by decide)
      have hexact : (n : ℚ) / 10 ^ k * s = v := by
        rw [div_mul_eq_mul_div, div_eq_iff (by positivity)]
        exact_mod_cast hvalue
      rw [hexact] at hnear
      have hunpack := hnear.unpack_pack (by decide)
      rw [← hunpack, ← unpack_mul] at hnear
      refine hnear.denotes_round ?_
      have hv' : (v : ℚ) < 2 ^ 40 := by exact_mod_cast hv
      norm_num [unitError]
      linarith
  exact hdenotes.toInt_toInt64 (by omega)

end Binary64

end Feel
