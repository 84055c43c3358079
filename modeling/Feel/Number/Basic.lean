import Feel.Binary64.Text
import Feel.Binary64.Basic
import Feel.Decimal.Division
import Feel.Operator

/-!
# Numbers

A number has one of four representations: a 32-bit integer, a 64-bit integer, a binary64
number or a decimal. Arithmetic on the two integer forms is exact and widens when the
result does not fit; a decimal operand makes the result a decimal; otherwise binary64
arithmetic is used, and a result that is not finite is refused.

* `NumberKind`: the representations, narrowest first.
* `Number.parse?`: the number a literal denotes.
* `Number.arith?`: the five arithmetic operators.
* `Number.order?`: the numeric order across representations.
* `Number.convert?`: the same number in another representation.
-/

namespace Feel

/-- A representation of numbers, narrowest first. -/
inductive NumberKind where
  | integer
  | long
  | double
  | decimal
  /-- Any of the others. -/
  | number
  deriving DecidableEq, Inhabited

namespace NumberKind

/-- The place of a kind among the kinds. -/
def width : NumberKind → Nat
  | integer => 0
  | long => 1
  | double => 2
  | decimal => 3
  | number => 4

/-- The wider of two kinds. -/
def max (a b : NumberKind) : NumberKind := if a.width ≤ b.width then b else a

/-- The name of a kind in type texts. -/
def text : NumberKind → String
  | integer => "integer"
  | long => "long"
  | double => "double"
  | decimal => "decimal"
  | number => "number"

end NumberKind

/-- A number in one of its representations. -/
inductive Number where
  | integer (n : Int32)
  | long (n : Int64)
  | double (x : Float)
  | decimal (d : Decimal)
  deriving Inhabited

namespace Number

/-- The significant digits that division keeps unless told otherwise. -/
def defaultPrecision : Nat := 34

/-- The greatest exponent of a power that is computed by squaring decimals. -/
def maxExactExponent : Nat := 9999

/-! ### Integers that fit -/

/-- The 32-bit integer, if `n` is in range. -/
def int32? (n : Int) : Option Int32 :=
  if -0x80000000 ≤ n ∧ n < 0x80000000 then some (Int32.ofInt n) else none

/-- The 64-bit integer, if `n` is in range. -/
def int64? (n : Int) : Option Int64 :=
  if -0x8000000000000000 ≤ n ∧ n < 0x8000000000000000 then some (Int64.ofInt n) else none

/-- A 64-bit integer, or a decimal where `n` does not fit. -/
def ofIntLong (n : Int) : Number :=
  match int64? n with
  | some l => long l
  | none => decimal (Decimal.ofInt n)

/-- The narrowest integer form, or a decimal where `n` fits neither. -/
def ofInt (n : Int) : Number :=
  match int32? n with
  | some i => integer i
  | none => ofIntLong n

/-! ### Literals -/

/-- The number a literal denotes: digits alone give the narrowest integer that holds them,
and everything else a decimal. -/
def parse? (text : String) : Option Number :=
  let cs := text.toList
  let whole : Option Number :=
    if cs.all Char.isDigit && !cs.isEmpty then
      (Decimal.parseDigits? cs 0).bind fun n =>
        ((int32? n).map integer).or ((int64? n).map long)
    else none
  whole.or ((Decimal.parse? text).map decimal)

/-! ### Views -/

def kind : Number → NumberKind
  | integer _ => .integer
  | long _ => .long
  | double _ => .double
  | decimal _ => .decimal

/-- The nearest binary64 number. -/
def toFloat : Number → Float
  | integer n => Binary64.ofInt n.toInt
  | long n => Binary64.ofInt n.toInt
  | double x => x
  | decimal d => Binary64.ofDecimal d

/-- The exact decimal; a binary64 number goes through its shortest digits. -/
def toDecimal : Number → Decimal
  | integer n => .ofInt n.toInt
  | long n => .ofInt n.toInt
  | double x => Binary64.toDecimal x
  | decimal d => d

/-- The 64-bit integer of a number without a fraction. A binary64 number beyond the range
is clamped, a decimal beyond it has none. -/
def toInt64? : Number → Option Int64
  | integer n => some n.toInt64
  | long n => some n
  | double x => if x.isFinite && Binary64.fract x == 0 then some (Binary64.toInt64 x) else none
  | decimal d => if d.isIntegral then int64? d.truncate else none

def isZero : Number → Bool
  | integer n => n == 0
  | long n => n == 0
  | double x => x == 0
  | decimal d => d.isZero

/-- The text of a number; a decimal is written without trailing zeros. -/
def text : Number → String
  | integer n => toString n.toInt
  | long n => toString n.toInt
  | double x => Binary64.text x
  | decimal d => d.normalized.text

/-! ### Conversion -/

/-- The number in another representation, if it has one there. -/
def convert? (n : Number) : NumberKind → Option Number
  | .number => some n
  | .integer => n.toInt64?.bind fun l => (int32? l.toInt).map integer
  | .long => match n with
    | double x => some (long (Binary64.toInt64 (Binary64.trunc x)))
    | decimal d => (int64? d.truncate).map long
    | n => n.toInt64?.map long
  | .double => some (double n.toFloat)
  | .decimal => some (decimal n.toDecimal)

/-! ### Order -/

/-- The numeric order. Integers and decimals compare exactly, anything else as binary64. -/
def order? : Number → Number → Option Ordering
  | integer a, integer b => some (compare a.toInt b.toInt)
  | integer a, long b => some (compare a.toInt b.toInt)
  | long a, integer b => some (compare a.toInt b.toInt)
  | long a, long b => some (compare a.toInt b.toInt)
  | decimal a, b => some (a.order b.toDecimal)
  | a, decimal b => some (a.toDecimal.order b)
  | a, b => Binary64.order? a.toFloat b.toFloat

/-- Numbers are equal when they compare as equal, whatever their representation. -/
def equal (a b : Number) : Bool := a.order? b == some .eq

/-! ### Arithmetic -/

/-- A binary64 result, if it is finite. -/
def finite? (x : Float) : Option Number := if x.isFinite then some (double x) else none

/-- The opposite number; it widens where the representation has none. -/
def neg : Number → Number
  | integer n => ofInt (-n.toInt)
  | long n => ofIntLong (-n.toInt)
  | double x => double (-x)
  | decimal d => decimal d.neg

/-- The sum, the difference or the product. -/
inductive RingOp where
  | add
  | sub
  | mul
  deriving DecidableEq

namespace RingOp

def onInt : RingOp → Int → Int → Int
  | add => (· + ·)
  | sub => (· - ·)
  | mul => (· * ·)

def onDecimal : RingOp → Decimal → Decimal → Decimal
  | add => Decimal.add
  | sub => Decimal.sub
  | mul => Decimal.mul

def onFloat : RingOp → Float → Float → Float
  | add => (· + ·)
  | sub => (· - ·)
  | mul => (· * ·)

/-- The operation in the narrowest representation that holds both operands and the result. -/
def native (op : RingOp) : Number → Number → Option Number
  | integer a, integer b => some (ofInt (op.onInt a.toInt b.toInt))
  | integer a, long b => some (ofIntLong (op.onInt a.toInt b.toInt))
  | long a, integer b => some (ofIntLong (op.onInt a.toInt b.toInt))
  | long a, long b => some (ofIntLong (op.onInt a.toInt b.toInt))
  | decimal a, b => some (decimal (op.onDecimal a b.toDecimal))
  | a, decimal b => some (decimal (op.onDecimal a.toDecimal b))
  | a, b => finite? (op.onFloat a.toFloat b.toFloat)

/-- The operation on decimals. -/
def exact (op : RingOp) (a b : Number) : Number :=
  decimal (op.onDecimal a.toDecimal b.toDecimal)

end RingOp

/-- Decimal division, half to even, to `p` significant digits. There is no quotient by
zero. -/
def divide? (a b : Number) (p : Nat) : Option Number :=
  if b.isZero then none else some (decimal (a.toDecimal.divide b.toDecimal p))

/-- Multiplies `r` by the powers of `b` that the binary digits of `n` select, rounding
after each product. -/
def powDecimal : Nat → Decimal → Nat → Decimal → Decimal
  | 0, _, _, r => r
  | fuel + 1, b, n, r =>
    if n = 0 then r
    else
      let r := if n % 2 = 1 then (r.mul b).roundTo defaultPrecision else r
      powDecimal fuel ((b.mul b).roundTo defaultPrecision) (n / 2) r

/-- An integral decimal in the narrowest integer form that holds it. -/
def narrowed (d : Decimal) : Number :=
  if d.isIntegral then
    match int64? d.truncate with
    | some l => ofInt l.toInt
    | none => decimal d
  else decimal d

/-- The power. Integral exponents up to `maxExactExponent` are computed on decimals and an
integer base gets an integer back where it can; other exponents go through binary64. -/
def pow? (a b : Number) : Option Number :=
  match a, b.toInt64? with
  | double base, some e =>
    (int32? e.toInt).bind fun e => finite? (Binary64.powInt base e.toInt)
  | a, some e =>
    let e := e.toInt
    if e.natAbs ≤ maxExactExponent then
      let base := a.toDecimal
      if e < 0 && base.isZero then none
      else
        let r := powDecimal (e.natAbs.log2 + 1) base e.natAbs .one
        let r := if e < 0 then (Decimal.one.quotient r).roundTo defaultPrecision else r
        let r := r.normalized
        match a with
        | integer _ | long _ => some (narrowed r)
        | _ => some (decimal r)
    else finite? (Float.pow a.toFloat b.toFloat)
  | a, none => finite? (Float.pow a.toFloat b.toFloat)

/-- The five arithmetic operators. `exact` asks for decimal sums, differences and
products; other operators have no numeric result. -/
def arith? (op : Operator) (a b : Number) (exact : Bool) : Option Number :=
  let ring (r : RingOp) := if exact then some (r.exact a b) else r.native a b
  match op with
  | .add => ring .add
  | .sub => ring .sub
  | .mul => ring .mul
  | .div => a.divide? b defaultPrecision
  | .pow => a.pow? b
  | _ => none

end Number

end Feel
