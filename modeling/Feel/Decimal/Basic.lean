/-!
# Scaled decimals

A decimal is an integer of digits together with a scale, and denotes
`digits / 10 ^ scale`. Sum, difference and product are exact. The scale is part of
the value: `1.5` and `1.50` denote the same number and differ as decimals, so the order
compares numbers while equality of the structure compares representations. Scales may be
huge, so no power of ten is built where the digits alone decide.

* `pow10`, `pow2`: the powers that shift digits and bits.
* `Decimal.order`: the order of the numbers denoted.
* `Decimal.normalized`: the representation without trailing zeros.
* `Decimal.add`, `Decimal.sub`, `Decimal.mul`: exact arithmetic.
* `Decimal.truncate`: the integral part.
-/

namespace Feel

/-- The power of ten with the exponent `k`. -/
def pow10 (k : Nat) : Nat := Nat.pow 10 k

/-- The power of two with the exponent `k`. -/
def pow2 (k : Nat) : Nat := Nat.pow 2 k

@[simp] theorem pow10_zero : pow10 0 = 1 := rfl

theorem pow10_pos (k : Nat) : 0 < pow10 k := Nat.pow_pos (by decide)

theorem pow10_add (i j : Nat) : pow10 (i + j) = pow10 i * pow10 j := Nat.pow_add 10 i j

theorem pow10_le {i j : Nat} (h : i ≤ j) : pow10 i ≤ pow10 j :=
  Nat.pow_le_pow_right (by decide) h

/-- An integer of digits and the number of them that stand behind the point. -/
structure Decimal where
  digits : Int
  scale : Int
  deriving DecidableEq, Inhabited

namespace Decimal

/-! ### Powers of ten and digit counts -/

/-- The number of decimal digits of a natural number; zero has one. -/
def digitCount (n : Nat) : Nat := (Nat.toDigits 10 n).length

/-- How often ten divides `n`, looking at no more than `fuel` digits. -/
def trailingZeros : Nat → Nat → Nat
  | 0, _ => 0
  | fuel + 1, n => if n % 10 = 0 then trailingZeros fuel (n / 10) + 1 else 0

/-! ### Construction -/

def zero : Decimal := ⟨0, 0⟩

def one : Decimal := ⟨1, 0⟩

/-- An integer, with no digits behind the point. -/
def ofInt (n : Int) : Decimal := ⟨n, 0⟩

def isZero (d : Decimal) : Bool := d.digits == 0

/-- The digits of `d` written with `s` places; `s` is at least the scale of `d`. -/
def digitsAt (d : Decimal) (s : Int) : Int :=
  if d.digits = 0 then 0 else d.digits * pow10 (s - d.scale).toNat

theorem digitsAt_eq (d : Decimal) (s : Int) :
    d.digitsAt s = d.digits * pow10 (s - d.scale).toNat := by
  unfold digitsAt
  split <;> simp_all

def neg (d : Decimal) : Decimal := ⟨-d.digits, d.scale⟩

def abs (d : Decimal) : Decimal := ⟨d.digits.natAbs, d.scale⟩

/-! ### Order -/

/-- The place of the first digit, counted from the point: the magnitude of a number that is
not zero is less than `10 ^ place` and at least a tenth of that. -/
def leadingPlace (d : Decimal) : Int := digitCount d.digits.natAbs - d.scale

/-- The order of the digits at a common scale. -/
def alignedOrder (a b : Decimal) : Ordering :=
  let s := max a.scale b.scale
  compare (a.digitsAt s) (b.digitsAt s)

/-- The order of the numbers denoted, whatever their scales. The digits are aligned only
where neither the signs nor the places of the first digits decide. -/
def order (a b : Decimal) : Ordering :=
  if a.digits.sign ≠ b.digits.sign then compare a.digits.sign b.digits.sign
  else if a.digits = 0 then .eq
  else if a.leadingPlace = b.leadingPlace then a.alignedOrder b
  else if a.digits < 0 then compare b.leadingPlace a.leadingPlace
  else compare a.leadingPlace b.leadingPlace

/-- Whether the number denoted is one. -/
def isOne (d : Decimal) : Bool := d.order one == .eq

/-! ### Normal form -/

/-- The same number with no trailing zero among its digits; zero has scale zero. -/
def normalized (d : Decimal) : Decimal :=
  if d.digits = 0 then zero
  else
    let n := d.digits.natAbs
    let k := trailingZeros (digitCount n) n
    ⟨d.digits.sign * (n / pow10 k : Nat), d.scale - k⟩

/-! ### Exact arithmetic -/

/-- The most places that a zero adds to a number. -/
def zeroPlaces : Int := 15

/-- The number with the places of a zero that is added to it, as far as they are not more
than `zeroPlaces` beyond its own. -/
def addZero (d z : Decimal) : Decimal :=
  let s := d.scale + min zeroPlaces (max 0 (z.scale - d.scale))
  ⟨d.digitsAt s, s⟩

/-- The sum, with the places of the operand that has more of them. -/
def add (a b : Decimal) : Decimal :=
  if b.isZero then a.addZero b
  else if a.isZero then b.addZero a
  else
    let s := max a.scale b.scale
    ⟨a.digitsAt s + b.digitsAt s, s⟩

def sub (a b : Decimal) : Decimal :=
  let s := max a.scale b.scale
  ⟨a.digitsAt s - b.digitsAt s, s⟩

/-- The product, with the places of both operands. A factor of one leaves the other in its
normal form. -/
def mul (a b : Decimal) : Decimal :=
  if a.isOne then b.normalized
  else if b.isOne then a.normalized
  else ⟨a.digits * b.digits, a.scale + b.scale⟩

/-- The remainder of the division that truncates toward zero; it has the sign of `a`. -/
def rem (a b : Decimal) : Decimal :=
  let s := max a.scale b.scale
  ⟨(a.digitsAt s).tmod (b.digitsAt s), s⟩

/-! ### Integral part -/

/-- The power of ten that cuts `k` digits; one above all digits of `d` cuts as many. -/
def cutter (d : Decimal) (k : Int) : Nat :=
  pow10 (min k.toNat (digitCount d.digits.natAbs + 1))

/-- Whether nothing but zeros stands behind the point. -/
def isIntegral (d : Decimal) : Bool :=
  decide (d.scale ≤ 0) || d.digits % d.cutter d.scale == 0

/-- The number cut at the point, toward zero. -/
def truncate (d : Decimal) : Int :=
  if d.scale ≤ 0 then d.digitsAt 0 else d.digits.tdiv (d.cutter d.scale)

@[simp] theorem truncate_ofInt (n : Int) : (ofInt n).truncate = n := by
  simp [truncate, ofInt, digitsAt_eq]

@[simp] theorem neg_neg (d : Decimal) : d.neg.neg = d := by
  simp [neg]

end Decimal

end Feel
