import Feel.Decimal.Basic

/-!
# Binary64 numbers

The order of binary64 numbers is partial, integral powers are computed by squaring, and a
decimal is brought to binary64 by rounding once where it has a fraction.

* `Binary64.order?`: the order, undefined where an operand is not a number.
* `Binary64.trunc`, `Binary64.toInt64`: the integral part, as a number and in 64 bits.
* `Binary64.round`: the nearest number without a fraction.
* `Binary64.powInt`: integral powers.
* `Binary64.ofDecimal`: the number nearest to a decimal.
-/

namespace Feel

namespace Binary64

/-- The order of two numbers; it is undefined where one is not a number. -/
def order? (a b : Float) : Option Ordering :=
  if a < b then some .lt
  else if a == b then some .eq
  else if b < a then some .gt
  else none

/-! ### Integers -/

/-- The number nearest to an integer. -/
def ofInt (n : Int) : Float :=
  let m := Float.ofScientific n.natAbs false 0
  if n < 0 then -m else m

/-- The number toward zero that has no fraction. -/
def trunc (x : Float) : Float :=
  match x.toModel.unpack with
  | .finite sign m e _ =>
    if 0 ≤ e then x
    else
      let whole := ofInt (m >>> (-e).toNat)
      match sign with
      | .positive => whole
      | .negative => -whole
  | _ => x

/-- The nearest number that has no fraction; half way it is the one away from zero. -/
def round (x : Float) : Float :=
  match x.toModel.unpack with
  | .finite sign m e _ =>
    if 0 ≤ e then x
    else
      let places := (-e).toNat
      let whole := ofInt ((m + pow2 (places - 1)) >>> places : Nat)
      match sign with
      | .positive => whole
      | .negative => -whole
  | _ => x

/-- The part behind the point, with the sign of the number. -/
def fract (x : Float) : Float := x - trunc x

/-- The 64-bit integer toward zero, clamped at the ends; zero for what is not a number. -/
def toInt64 (x : Float) : Int64 := x.toModel.toInt64

/-! ### Powers -/

/-- Multiplies `r` by the powers of `a` that the binary digits of `n` select. -/
def squareMultiply : Nat → Float → Nat → Float → Float
  | 0, _, _, r => r
  | fuel + 1, a, n, r =>
    let r := if n % 2 = 1 then r * a else r
    if n / 2 = 0 then r else squareMultiply fuel (a * a) (n / 2) r

/-- An integral power by squaring; a negative exponent inverts at the end. -/
def powInt (a : Float) (n : Int) : Float :=
  let r := squareMultiply (n.natAbs.log2 + 1) a n.natAbs 1
  if n < 0 then 1 / r else r

/-! ### From decimals -/

/-- The digits that a decimal keeps before it is rounded, about. -/
def keptDigits : Nat := 25

/-- An estimate of the number of decimal digits from the binary length, taken as one more
than it is. -/
def estimatedDigits (n : Nat) : Nat :=
  let bits := if n = 0 then 0 else n.log2 + 1
  ((bits + 1).toFloat / 3.321928094887362).toUInt64.toNat

/-- Cuts the last nineteen digits `n` times. -/
def cut : Nat → Nat → Int → Nat × Int
  | 0, m, s => (m, s)
  | n + 1, m, s => cut n (m / pow10 19) (s - 19)

/-- The digits behind the point at which a number with the digits kept is nearer to zero
than to any other number. -/
def vanishingScale : Int := 1000

/-- The number nearest to `m / 10 ^ s`, for an `m` of no more than about the digits kept. -/
def ofQuotient (m : Nat) (s : Int) : Float :=
  if vanishingScale < s then 0 else Float.ofScientific m true s.toNat

/-- The magnitude of `m / 10 ^ s`. Digits followed by zeros are rounded and then multiplied
by the power of ten. A scale that does not fit in 32 bits, whatever its sign, gives
infinity. -/
def ofScaled (m : Nat) (s : Int) : Float :=
  if s ≤ -0x80000000 ∨ 0x80000000 ≤ s then 1 / 0
  else if s ≤ 0 then ofInt m * powInt 10 (-s)
  else ofQuotient m s

/-- The number of a decimal. An integer is rounded once, and so is a decimal with a fraction
after digits far beyond the precision are cut. -/
def ofDecimal (d : Decimal) : Float :=
  if d.digits = 0 then 0
  else
    let m := d.digits.natAbs
    let magnitude :=
      if d.scale = 0 then ofInt m
      else
        let (m, s) := cut ((estimatedDigits m - keptDigits) / 19) m d.scale
        ofScaled m s
    if d.digits < 0 then -magnitude else magnitude

end Binary64

end Feel
