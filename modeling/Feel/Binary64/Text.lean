import Feel.Decimal.Basic
import Feel.Decimal.Text

/-!
# Text of binary64 numbers

A finite binary64 number is `mantissa * 2 ^ exponent`. Every real number between the
midpoints to its two neighbours rounds to it; the midpoints themselves do so when the
mantissa is even. Its shortest digits are the fewest that name a number in that interval,
and of several such numbers the nearest.

The shortest digits are laid out positionally within a window of exponents and with an
exponent outside of it. A number without a fraction keeps `.0` in positional notation.

* `Binary64.Parts`: sign, mantissa and exponent read off the bits.
* `Parts.shortest`: the digits and the power of ten they are multiplied by.
* `Binary64.toDecimal`: the decimal that the shortest digits denote.
* `Binary64.Layout`: the decisions of a notation.
* `Binary64.text`: the notation of expression results.
* `Binary64.jsonText`: the notation of JSON documents.
-/

namespace Feel

namespace Binary64

/-! ### Mantissa and exponent -/

/-- A finite number `± mantissa * 2 ^ exponent`. -/
structure Parts where
  negative : Bool
  mantissa : Nat
  exponent : Int
  /-- The gap below is half of the gap above: the mantissa is the least of its binade. -/
  narrowBelow : Bool

/-- Reads the parts off the bits of a finite number. -/
def Parts.ofBits (bits : UInt64) : Parts :=
  let n := bits.toNat
  let fraction : Nat := n % 0x10000000000000
  let biased : Nat := n / 0x10000000000000 % 0x800
  let negative := decide (0x8000000000000000 ≤ n)
  if biased = 0 then ⟨negative, fraction, -1074, false⟩
  else ⟨negative, fraction + 0x10000000000000, (biased : Int) - 1075, fraction == 0 && 1 < biased⟩

/-! ### The rounding interval -/

/-- A quarter of the unit of the mantissa as a fraction `num / den`. -/
structure Quarter where
  num : Nat
  den : Nat

def Parts.quarter (p : Parts) : Quarter :=
  ⟨pow2 (p.exponent - 2).toNat, pow2 (2 - p.exponent).toNat⟩

/-- Whether `c * 10 ^ k` rounds to the number, `c` and the ends being taken in quarters. -/
def Parts.accepts (p : Parts) (c : Nat) (k : Int) : Bool :=
  let u := p.quarter
  let candidate := c * pow10 k.toNat * u.den
  let unit := u.num * pow10 (-k).toNat
  let low := (4 * p.mantissa - if p.narrowBelow then 1 else 2) * unit
  let high := (4 * p.mantissa + 2) * unit
  if p.mantissa % 2 = 0 then decide (low ≤ candidate ∧ candidate ≤ high)
  else decide (low < candidate ∧ candidate < high)

/-- The power of ten of the first digit. -/
def Parts.leading (p : Parts) : Int :=
  let u := p.quarter
  let num := 4 * p.mantissa * u.num
  if u.den ≤ num then (Decimal.digitCount (num / u.den) : Int) - 1
  else -(Decimal.digitCount ((u.den - 1) / num) : Int)

/-- The number with `n` digits nearest to the value that rounds to it, if one does. -/
def Parts.withDigits (p : Parts) (n : Nat) : Option (Nat × Int) :=
  let k := p.leading + 1 - n
  let u := p.quarter
  let num := 4 * p.mantissa * u.num * pow10 (-k).toNat
  let den := u.den * pow10 k.toNat
  let below := num / den
  let upper := decide (den < 2 * (num % den)) || (den == 2 * (num % den) && below % 2 == 1)
  let nearer := if upper then below + 1 else below
  let farther := if upper then below else below + 1
  if p.accepts nearer k then some (nearer, k)
  else if p.accepts farther k then some (farther, k)
  else none

/-- Tries one digit more at a time. -/
def Parts.search (p : Parts) : Nat → Nat → Nat × Int
  | 0, _ => (0, 0)
  | fuel + 1, n => (p.withDigits n).getD (p.search fuel (n + 1))

/-- The shortest digits and their power of ten; seventeen digits always suffice. A value
just below a power of ten may round up to it, which leaves a zero to drop. -/
def Parts.shortest (p : Parts) : Nat × Int :=
  if p.mantissa = 0 then (0, 0)
  else
    let (c, k) := p.search 17 1
    if c % 10 = 0 then (c / 10, k + 1) else (c, k)

/-! ### As a decimal -/

/-- The decimal of the shortest digits: an integer where no digit stands behind the
point. What is not finite gives zero. -/
def toDecimal (x : Float) : Decimal :=
  if x.isFinite then
    let p := Parts.ofBits x.toBits
    let (c, k) := p.shortest
    let magnitude : Decimal := if 0 ≤ k then ⟨c * pow10 k.toNat, 0⟩ else ⟨c, -k⟩
    if p.negative then magnitude.neg else magnitude
  else Decimal.zero

/-! ### Notations -/

/-- A notation for shortest digits. -/
structure Layout where
  /-- The least exponent of the first digit that is written positionally. -/
  lowest : Int
  /-- The greatest exponent of the first digit that is written positionally. -/
  highest : Int
  /-- What stands before an exponent that is not negative. -/
  plus : String

/-- The text of `c * 10 ^ k`, where `c` has no superfluous zeros. -/
def Layout.write (f : Layout) (c : Nat) (k : Int) : String :=
  let digits := toString c
  let count : Int := digits.length
  let leading := k + count - 1
  if c = 0 then "0.0"
  else if leading < f.lowest ∨ f.highest < leading then
    Decimal.scientificDigits digits ++ "e" ++
      (if leading < 0 then "-" else f.plus) ++ toString leading.natAbs
  else if 0 ≤ k then
    digits ++ Decimal.zeros k.toNat ++ ".0"
  else if count + k ≤ 0 then
    "0." ++ Decimal.zeros (-(count + k)).toNat ++ digits
  else
    (digits.take (count + k).toNat).toString ++ "." ++ (digits.drop (count + k).toNat).toString

/-- The text of a finite number. -/
def Layout.finite (f : Layout) (x : Float) : String :=
  let p := Parts.ofBits x.toBits
  let (c, k) := p.shortest
  (if p.negative then "-" else "") ++ f.write c k

/-- Results are positional from `0.0001` up to `10 ^ 16`. -/
def layout : Layout := ⟨-4, 15, ""⟩

/-- JSON numbers are positional from `0.00001` up to `10 ^ 16`. -/
def jsonLayout : Layout := ⟨-5, 15, "+"⟩

/-- The text of a number, finite or not. -/
def text (x : Float) : String :=
  if x.isNaN then "NaN"
  else if x.isInf then (if x < 0 then "-inf" else "inf")
  else layout.finite x

/-- The text of a number in a JSON document; what is not finite has none. -/
def jsonText (x : Float) : String :=
  if x.isFinite then jsonLayout.finite x else "null"

end Binary64

end Feel
