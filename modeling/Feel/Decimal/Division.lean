import Feel.Decimal.Basic

/-!
# Decimal rounding, division and square root

Rounding divides an integer by a power of ten and moves the quotient to one of the two
integers around the exact value. The mode decides from the sign, the truncated
magnitude and the remainder.

A quotient of decimals has in general no finite expansion. It is developed by long
division to at most `quotientDigits` significant digits, the last of them rounded by the
digit that follows, and then rounded to the precision asked for.

* `Rounding.divide`: the rounded quotient of integers.
* `Decimal.withScale`: a given number of places behind the point.
* `Decimal.withPrecision`: a given number of significant digits.
* `Decimal.quotient`: the long division.
* `Decimal.divide`: the quotient to a precision, in normal form.
* `Decimal.sqrt`: the square root to `quotientDigits` digits.
-/

namespace Feel

/-- Which of the two neighbours a quotient goes to. -/
inductive Rounding where
  | down
  | floor
  | ceiling
  | halfUp
  | halfEven
  deriving DecidableEq

namespace Rounding

/-- Whether the magnitude `q + r / d` of a number goes to `q + 1`. -/
def goesUp (mode : Rounding) (negative : Bool) (q r d : Nat) : Bool :=
  match mode with
  | .down => false
  | .floor => negative && r != 0
  | .ceiling => !negative && r != 0
  | .halfUp => decide (d ≤ 2 * r)
  | .halfEven => decide (d < 2 * r) || (d == 2 * r && q % 2 == 1)

/-- The quotient of `n` by `d`, rounded to an integer. -/
def divide (mode : Rounding) (n : Int) (d : Nat) : Int :=
  let m := n.natAbs
  let q := m / d
  let rounded := if mode.goesUp (decide (n < 0)) q (m % d) d then q + 1 else q
  if n < 0 then -(rounded : Int) else rounded

end Rounding

namespace Decimal

/-- The decimal with exactly `s` places; places beyond its own are zeros. -/
def withScale (d : Decimal) (s : Int) (mode : Rounding) : Decimal :=
  if d.digits = 0 then ⟨0, s⟩
  else if d.scale ≤ s then ⟨d.digitsAt s, s⟩
  else ⟨mode.divide d.digits (d.cutter (d.scale - s)), s⟩

/-- The decimal with `p` significant digits, or one more where a carry adds a digit. -/
def withPrecision (d : Decimal) (p : Nat) (mode : Rounding) : Decimal :=
  d.withScale (d.scale + (p - digitCount d.digits.natAbs)) mode

/-- The digits that a long division or a square root is developed to. -/
def quotientDigits : Nat := 100

/-! ### Long division -/

/-- How often `m` is multiplied by ten until it is at least `d`. -/
def shiftsUpTo (d : Nat) : Nat → Nat → Nat
  | 0, _ => 0
  | fuel + 1, m => if m < d then shiftsUpTo d fuel (m * 10) + 1 else 0

/-- Extends the quotient `q` with remainder `r` by up to `n` digits and counts them;
the division ends early when nothing remains. -/
def extend (d : Nat) : Nat → Nat → Nat → Nat → Nat × Nat × Nat
  | 0, q, r, k => (q, r, k)
  | n + 1, q, r, k =>
    if r = 0 then (q, r, k)
    else extend d n (q * 10 + r * 10 / d) (r * 10 % d) (k + 1)

/-- The quotient of two positive integers as digits and scale. -/
def longDivision (m d : Nat) : Nat × Nat :=
  let shift := shiftsUpTo d (digitCount d + 1) m
  let m := m * pow10 shift
  let q := m / d
  let (q, r, k) := extend d (quotientDigits - digitCount q) q (m % d) shift
  (if 5 ≤ r * 10 / d then q + 1 else q, k)

/-- The quotient of `a` by a nonzero `b`. A zero numerator and a divisor of one give `a`
itself; equal digits give one at the difference of the scales. -/
def quotient (a b : Decimal) : Decimal :=
  if a.isZero || b.isOne then a
  else if a.digits = b.digits then ⟨1, a.scale - b.scale⟩
  else
    let (q, k) := longDivision a.digits.natAbs b.digits.natAbs
    ⟨a.digits.sign * b.digits.sign * q, a.scale - b.scale + k⟩

/-- Rounds half to even to `p` significant digits, in normal form. A precision of zero
leaves the decimal as it is. -/
def roundTo (d : Decimal) (p : Nat) : Decimal :=
  if p = 0 then d else (d.withPrecision p .halfEven).normalized

/-- The quotient to `p` significant digits. -/
def divide (a b : Decimal) (p : Nat) : Decimal := (a.quotient b).roundTo p

/-! ### Square root -/

/-- Newton's iteration for the integer square root, from above. -/
def newtonSqrt (n : Nat) : Nat → Nat → Nat
  | 0, x => x
  | fuel + 1, x =>
    let y := (x + n / x) / 2
    if y < x then newtonSqrt n fuel y else x

/-- The greatest integer whose square is at most `n`. -/
def floorSqrt (n : Nat) : Nat :=
  if n = 0 then 0 else newtonSqrt n (n.log2 + 2) (pow2 (n.log2 / 2 + 1))

/-- The square root of a decimal that is not negative. The root is developed five digits
beyond the precision and then rounded half to even. -/
def sqrt (d : Decimal) : Decimal :=
  if d.isZero || d.isOne then d
  else
    let n := d.digits.natAbs
    let wanted := 2 * (quotientDigits + 5)
    let e := wanted - digitCount n
    let e := if (d.scale + e) % 2 = 0 then e else e + 1
    (⟨floorSqrt (n * pow10 e), (d.scale + e) / 2⟩ : Decimal).withPrecision quotientDigits .halfEven

end Decimal

end Feel
