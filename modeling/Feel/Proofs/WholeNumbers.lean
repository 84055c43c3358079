import Feel.Proofs.NumberComparisons
import Feel.Proofs.Powers

/-!
# Whole numbers

Every representation has numbers without a fraction. One of binary64 that has the value of an
integer keeps it when its fraction is cut off and when it is brought to 64 bits, and integers are
compared with it as what a binary64 number keeps of them.

* `Binary64.rational?`: the value of an unpacked number.
* `Binary64.denotes_of_rational`: an unpacked number with the value of an integer has 53 digits.
* `Number.IsWhole`: numbers with the value of an integer.
* `Number.IsWhole.toInt64?`: the 64-bit integer of a whole number.
* `Number.IsWhole.order?`: how integers are compared with a whole number.
-/

namespace Feel

namespace Binary64

open Float.Model Float.Model.UnpackedFloat

/-! ### Values -/

/-- The value of an unpacked number, if it is finite. -/
def rational? : UnpackedFloat → Option ℚ
  | .zero _ => some 0
  | .finite sign m e _ => some (sign.apply m * 2 ^ e)
  | _ => none

/-- What is unpacked: a finite number has 53 digits, or fewer at the least exponent. -/
inductive Canonical : UnpackedFloat → Prop
  | infinity (sign : Sign) : Canonical (.infinity sign)
  | notANumber : Canonical .notANumber
  | zero (sign : Sign) : Canonical (.zero sign)
  | subnormal {sign : Sign} {m : Nat} (hm : 0 < m) (high : m < 2 ^ 52) :
      Canonical (.finite sign m (-1074) hm)
  | normal {sign : Sign} {m : Nat} {e : Int} (hm : 0 < m) (low : 2 ^ 52 ≤ m) (high : m < 2 ^ 53) :
      Canonical (.finite sign m e hm)

/-- The leading digit that is not packed. -/
theorem toNat_leading {k : Nat} (m : BitVec k) : (1#1 ++ m).toNat = 2 ^ k + m.toNat := by
  rw [BitVec.toNat_append, ← Nat.shiftLeft_add_eq_or_of_lt m.isLt]
  simp [Nat.shiftLeft_eq]

theorem canonical_unpack (x : Float) : Canonical x.toModel.unpack := by
  obtain ⟨b, hb⟩ : ∃ b, x.toModel.toBits.toBitVec = b := ⟨_, rfl⟩
  have hunpack : x.toModel.unpack = UnpackedFloat.unpack .binary64 b := by
    rw [← hb]
    rfl
  rw [hunpack, UnpackedFloat.unpack]
  dsimp only
  split
  · split
    · exact .infinity _
    · exact .notANumber
  · split
    · next hexponent =>
      split
      · exact .zero _
      · rw [hexponent]
        exact .subnormal _ (BitVec.isLt _)
    · refine .normal _ ?_ ?_
      · rw [toNat_leading]
        exact Nat.le_add_right ..
      · rw [toNat_leading]
        exact Nat.add_lt_add_left (BitVec.isLt _) (2 ^ 52)

/-- What has the value of an integer, with a sign, has that of its magnitude without one. -/
theorem magnitude_of_value {sign : Sign} {m : Nat} {e z : Int} (hm : 0 < m)
    (h : ((sign.apply m : Int) : ℚ) * 2 ^ e = z) :
    sign.apply z.natAbs = z ∧ (m : ℚ) * 2 ^ e = z.natAbs := by
  have hpos : (0 : ℚ) < m * 2 ^ e := by positivity
  cases sign with
  | positive =>
    have hvalue : (m : ℚ) * 2 ^ e = z := h
    have hz : 0 < z := by
      rw [hvalue] at hpos
      exact_mod_cast hpos
    have habs : (z.natAbs : Int) = z := by omega
    exact ⟨habs, by rw [hvalue, ← Int.cast_natCast, habs]⟩
  | negative =>
    have hvalue : (m : ℚ) * 2 ^ e = -z := by
      rw [← h]
      simp [Sign.apply]
    have hz : z < 0 := by
      rw [hvalue] at hpos
      have hneg : 0 < -z := by exact_mod_cast hpos
      omega
    have habs : (z.natAbs : Int) = -z := by omega
    refine ⟨by simp only [Sign.apply]; omega, ?_⟩
    rw [hvalue, ← Int.cast_natCast, habs, Int.cast_neg]

theorem mul_two_pow_of_value {m v n j : Nat} {e : Int} (he : e = (n : Int) - j)
    (h : (m : ℚ) * 2 ^ e = v) : m * 2 ^ n = v * 2 ^ j := by
  rw [he, zpow_sub₀ (by norm_num), zpow_natCast, zpow_natCast, ← mul_div_assoc,
    div_eq_iff (by positivity)] at h
  exact_mod_cast h

/-- A mantissa of no more digits than its exponent takes away has no integer as its value. -/
theorem not_value_of_lt {m k v : Nat} {e : Int} (hm : 0 < m) (hlt : m < 2 ^ k) (he : e ≤ -k) :
    (m : ℚ) * 2 ^ e ≠ v := by
  intro h
  obtain ⟨j, hj⟩ : ∃ j : Nat, e = -j := ⟨(-e).toNat, by omega⟩
  have hproduct := mul_two_pow_of_value (n := 0) (j := j) (by omega) h
  rw [Nat.pow_zero, Nat.mul_one] at hproduct
  have hpow : 2 ^ k ≤ 2 ^ j := Nat.pow_le_pow_right Nat.two_pos (by omega)
  have hv : 0 < v := by
    by_contra hzero
    rw [Nat.eq_zero_of_not_pos hzero, Nat.zero_mul] at hproduct
    omega
  have hle := Nat.le_mul_of_pos_left (2 ^ j) hv
  omega

/-- **Whole numbers have 53 digits.** A number with the value of an integer denotes it. -/
theorem denotes_of_rational {f : UnpackedFloat} {z : Int} (hf : Canonical f)
    (h : rational? f = some (z : ℚ)) : Denotes z f := by
  cases hf with
  | infinity sign => cases h
  | notANumber => cases h
  | zero sign =>
    have hz : (0 : ℚ) = z := Option.some.inj h
    have hz' : z = 0 := by exact_mod_cast hz.symm
    rw [hz']
    exact .zero sign
  | @subnormal sign m hm high =>
    obtain ⟨-, hvalue⟩ := magnitude_of_value hm (Option.some.inj h)
    exact absurd hvalue (not_value_of_lt hm high (by decide))
  | @normal sign m e hm low high =>
    obtain ⟨hsign, hvalue⟩ := magnitude_of_value hm (Option.some.inj h)
    have he : -52 ≤ e := by
      by_contra hlow
      exact not_value_of_lt hm high (by omega) hvalue
    obtain ⟨n, hn⟩ : ∃ n : Nat, e = n - 52 := ⟨(e + 52).toNat, by omega⟩
    rw [← hsign]
    exact .finite (.finite hm low high hn (mul_two_pow_of_value hn hvalue))

theorem Denotes.rational?_eq {f : UnpackedFloat} {z : Int} (h : Denotes z f) :
    rational? f = some (z : ℚ) := by
  cases h with
  | zero sign => exact congrArg some (Int.cast_zero).symm
  | @finite sign v f h =>
    cases h with
    | @finite m n e hm low high hn value =>
    have hvalue : (m : ℚ) * 2 ^ e = v := by
      rw [hn, zpow_sub₀ (by norm_num), zpow_natCast, ← mul_div_assoc, div_eq_iff (by positivity)]
      exact_mod_cast value
    refine congrArg some ?_
    cases sign with
    | positive => simpa [Sign.apply] using hvalue
    | negative => simpa [Sign.apply] using hvalue

/-! ### What denotes an integer -/

variable {x y : Float} {z w : Int} {f g : UnpackedFloat}

/-- A number is determined by its sign and its value. -/
theorem DenotesNat.unique {sign : Sign} {v : Nat} (hf : DenotesNat sign v f)
    (hg : DenotesNat sign v g) : f = g := by
  have hf' := hf
  have hg' := hg
  cases hf with
  | @finite m n e hm low high hn value =>
  cases hg with
  | @finite m' n' e' hm' low' high' hn' value' =>
  have hthen := hf'.compare_then hg'
  rw [compare_eq_iff_eq.mpr (rfl : v = v), Ordering.then_eq_eq] at hthen
  have he : e = e' := compare_eq_iff_eq.mp hthen.1
  have hmantissa : m = m' := compare_eq_iff_eq.mp hthen.2
  subst he hmantissa
  rfl

/-- The integer that a number has as its value is kept. -/
theorem DenotesNat.nearestNat_eq {sign : Sign} {v : Nat} (h : DenotesNat sign v f) :
    nearestNat v = v := by
  by_cases hsmall : v ≤ 2 ^ 53
  · exact nearestNat_of_le hsmall
  cases h with
  | @finite m n e hm low high hn value =>
  have hlow := Nat.mul_le_mul_right (2 ^ n) low
  have hhigh := Nat.mul_lt_mul_of_pos_right high (Nat.two_pow_pos n)
  have hlog : v.log2 = n := by
    rw [Nat.log2_eq_iff (by omega), Nat.pow_succ]
    omega
  have hlong : 53 ≤ n := by
    rw [← hlog, Nat.le_log2 (by omega)]
    omega
  have hsplit : v = m * 2 ^ (n - 52) := by
    have hpow : 2 ^ n = 2 ^ (n - 52) * 2 ^ 52 := by
      rw [← Nat.pow_add]
      congr 1
      omega
    rw [hpow, ← Nat.mul_assoc] at value
    exact (Nat.mul_right_cancel (Nat.two_pow_pos 52) value).symm
  have hquotient := nearestQuotient_mul_two_pow m 0 (n - 52)
  rw [Nat.zero_add, nearestQuotient_zero, ← hsplit] at hquotient
  rw [nearestNat, hlog, hquotient, ← hsplit]

theorem Denotes.nearest_eq (h : Denotes z f) : nearest z = z := by
  cases h with
  | zero sign => rfl
  | @finite sign v f h =>
    have hpos := h.pos
    have hkept := h.nearestNat_eq
    cases sign with
    | positive =>
      show nearest (v : Int) = v
      rw [nearest, if_neg (by omega), Int.natAbs_natCast, hkept]
    | negative =>
      show nearest (-(v : Int)) = -v
      rw [nearest, if_pos (by omega), Int.natAbs_neg, Int.natAbs_natCast, hkept]

theorem Denotes.isFinite (h : Denotes z f) : f.isFinite = true := by
  cases h with
  | zero sign => rfl
  | finite h =>
    cases h
    rfl

/-! ### Integral parts -/

/-- A mantissa and the value that it denotes are apart by a shift to the left or to the right. -/
theorem shift_of_value {m v n : Nat} {e : Int} (hn : e = (n : Int) - 52)
    (value : m * 2 ^ n = v * 2 ^ 52) : m * 2 ^ e.toNat = v * 2 ^ (-e).toNat := by
  have hexponent : e.toNat + 52 = n + (-e).toNat := by omega
  apply Nat.mul_right_cancel (Nat.two_pow_pos 52)
  calc m * 2 ^ e.toNat * 2 ^ 52 = m * 2 ^ n * 2 ^ (-e).toNat := by
        rw [Nat.mul_assoc, Nat.mul_assoc, ← Nat.pow_add, ← Nat.pow_add, hexponent]
    _ = v * 2 ^ (-e).toNat * 2 ^ 52 := by rw [value, Nat.mul_right_comm]

theorem denotesNat_ofInt {v : Nat} (hv : v ≠ 0) (hsmall : v ≤ 2 ^ 53) :
    DenotesNat .positive v (ofInt v).toModel.unpack := by
  have hdenotes := denotesNat_ofScientific hv (by omega)
  rw [nearestNat_of_le hsmall] at hdenotes
  have hpositive : ¬ (v : Int) < 0 := by omega
  rw [ofInt, if_neg hpositive, Int.natAbs_natCast]
  exact hdenotes

/-- A number with the value of an integer is its own integral part. -/
theorem Denotes.unpack_trunc (h : Denotes z x.toModel.unpack) :
    (trunc x).toModel.unpack = x.toModel.unpack := by
  unfold trunc
  generalize hx : x.toModel.unpack = f at h
  cases h with
  | zero sign => exact hx
  | @finite sign v f h =>
    have hpos := h.pos
    have hunique := h
    cases h with
    | @finite m n e hm low high hn value =>
    have hshift := shift_of_value hn value
    dsimp only
    split
    · exact hx
    · next he =>
      have hone : e.toNat = 0 := by omega
      rw [hone, Nat.pow_zero, Nat.mul_one] at hshift
      have hquotient : m >>> (-e).toNat = v := by
        rw [Nat.shiftRight_eq_div_pow, hshift, Nat.mul_div_cancel _ (Nat.two_pow_pos _)]
      have hsmall : v ≤ m := by
        rw [hshift]
        exact Nat.le_mul_of_pos_right v (Nat.two_pow_pos _)
      have hwhole := denotesNat_ofInt (v := v) (by omega) (by omega)
      rw [hquotient]
      cases sign with
      | positive => exact hwhole.unique hunique
      | negative =>
        show (Float.Model.pack (ofInt v).toModel.unpack.neg).unpack = _
        rw [hwhole.neg.unpack_pack (by omega)]
        exact hwhole.neg.unique hunique

theorem Denotes.sub_self (h : Denotes z f) :
    ∃ sign, UnpackedFloat.sub .binary64 f f = .zero sign := by
  cases h with
  | zero sign => cases sign <;> exact ⟨.positive, rfl⟩
  | finite h =>
    cases h
    refine ⟨.positive, ?_⟩
    rw [UnpackedFloat.sub]
    dsimp only
    rw [Int.sub_self]
    rfl

/-- A number with the value of an integer has no fraction. -/
theorem Denotes.fract_eq_zero (h : Denotes z x.toModel.unpack) : (fract x == 0) = true := by
  have hsub : (fract x).toModel.unpack =
      (Float.Model.pack
        (UnpackedFloat.sub .binary64 x.toModel.unpack x.toModel.unpack)).unpack := by
    show (Float.Model.pack (UnpackedFloat.sub .binary64 x.toModel.unpack
      (trunc x).toModel.unpack)).unpack = _
    rw [h.unpack_trunc]
  obtain ⟨sign, hzero⟩ := h.sub_self
  rw [beq_iff, hsub, hzero]
  cases sign <;> rfl

theorem Denotes.toInt (h : Denotes z f) (low high : Int) : f.toInt low high = z := by
  cases h with
  | zero sign => rfl
  | @finite sign v f h =>
    cases h with
    | @finite m n e hm low high hn value =>
    have hamount : (0 - (e - (e - 0).toNat)).toNat = (-e).toNat := by omega
    show sign.apply (((⟨m <<< (e - 0).toNat, false, false⟩ : ExtendedMantissa) >>>
      (0 - (e - (e - 0).toNat)).toNat).mantissa : Int) = sign.apply v
    rw [shiftRight_eq_shifted, hamount, Int.sub_zero, Nat.shiftLeft_eq, shift_of_value hn value,
      shifted, Nat.mul_div_cancel _ (Nat.two_pow_pos _)]

/-- The 64-bit integer of a number with the value of an integer in range. -/
theorem Denotes.toInt_toInt64 (h : Denotes z x.toModel.unpack) (hz : -2 ^ 63 ≤ z ∧ z < 2 ^ 63) :
    (toInt64 x).toInt = z := by
  show (Int64.ofIntClamp (x.toModel.unpack.toInt _ _)).toInt = z
  rw [h.toInt]
  exact Int64.toInt_ofIntClamp (show -2 ^ 63 ≤ z by omega) (show z ≤ 2 ^ 63 - 1 by omega)

end Binary64

/-! ### Whole numbers -/

namespace Number

/-- The value of a number, if it is finite. -/
def rational? : Number → Option ℚ
  | double x => Binary64.rational? x.toModel.unpack
  | n => n.value?

/-- A number has the value of an integer. -/
def IsWhole (n : Number) (z : Int) : Prop := n.rational? = some (z : ℚ)

variable {n x : Number} {z i : Int}

theorem IsWhole.denotes {x : Float} (h : (double x).IsWhole z) :
    Binary64.Denotes z x.toModel.unpack :=
  Binary64.denotes_of_rational (Binary64.canonical_unpack x) h

theorem isWhole_ofInt (h : i.natAbs < 2 ^ 64) :
    (double (Binary64.ofInt i)).IsWhole (Binary64.nearest i) :=
  (Binary64.denotes_ofInt h).rational?_eq

theorem IsInteger.value? (h : x.IsInteger i) : x.value? = some (i : ℚ) := by
  cases h <;> rfl

theorem IsInteger.isWhole (h : x.IsInteger i) : x.IsWhole i := by
  cases h <;> rfl

theorem IsInteger.range (h : x.IsInteger i) : -2 ^ 63 ≤ i ∧ i < 2 ^ 63 := by
  cases h with
  | integer n =>
    have hlow := n.le_toInt
    have hhigh := n.toInt_lt
    omega
  | long n => exact ⟨n.le_toInt, n.toInt_lt⟩

/-- The 64-bit integer of a whole number in range. -/
theorem IsWhole.toInt64? (h : n.IsWhole z) (hz : -2 ^ 63 ≤ z ∧ z < 2 ^ 63) :
    ∃ l, n.toInt64? = some l ∧ l.toInt = z := by
  cases n with
  | integer k =>
    refine ⟨k.toInt64, rfl, ?_⟩
    rw [Int32.toInt_toInt64]
    exact_mod_cast Option.some.inj h
  | long k => exact ⟨k, rfl, by exact_mod_cast Option.some.inj h⟩
  | decimal d =>
    obtain ⟨hintegral, htruncate⟩ := Decimal.truncate_of_value (Option.some.inj h)
    rw [Number.toInt64?, if_pos hintegral, htruncate]
    exact int64?_of_range hz
  | double x =>
    refine ⟨Binary64.toInt64 x, ?_, h.denotes.toInt_toInt64 hz⟩
    have hfinite : x.isFinite = true := h.denotes.isFinite
    rw [Number.toInt64?, hfinite, h.denotes.fract_eq_zero]
    rfl

/-- Integers are compared with a binary64 number as what such a number keeps of them. -/
theorem IsWhole.order?_double (h : n.IsWhole z) (hkind : n.kind = .double) (hx : x.IsInteger i) :
    x.order? n = some (compare (Binary64.nearest i) (Binary64.nearest z)) := by
  cases n with
  | double y =>
    have hkept := h.denotes.nearest_eq
    have horder := (Binary64.denotes_ofInt hx.natAbs_lt).order? h.denotes
    rw [hkept, ← horder, ← hx.toFloat]
    cases hx <;> rfl
  | _ => cases hkind

/-- An integer that no binary64 number is taken for by mistake is compared exactly. -/
theorem IsWhole.order? (h : n.IsWhole z) (hx : x.IsInteger i)
    (hdistinct : n.kind = .double → x.order? n = some .eq → i = z) :
    x.order? n = some (compare i z) := by
  by_cases hkind : n.kind = .double
  · have hkept := h.order?_double hkind hx
    rcases Binary64.compare_nearest i z with hsame | heq
    · rw [hkept, hsame]
    · rw [heq] at hkept
      rw [hkept, compare_eq_iff_eq.mpr (hdistinct hkind hkept)]
  · have hvalue : n.value? = some (z : ℚ) := by
      cases n with
      | double y => exact absurd rfl hkind
      | _ => exact h
    exact order?_of_int hx.value? hvalue

end Number

end Feel
