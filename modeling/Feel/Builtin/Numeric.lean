import Feel.Builtin.Basic

/-!
# Numeric functions

Rounding, absolute values, remainders, roots, logarithms and parity.
-/

namespace Feel

namespace Builtin

/-- A decimal as a value, without trailing zeros. -/
def ofDecimal (d : Decimal) : Value := .number (.decimal d.normalized)

/-- A binary64 result, null where it is not finite. -/
def ofFloat (x : Float) : Value := .ofNumber? (Number.finite? x)

/-- Rounds the first argument to the places given by the second. -/
def round (args : List Value) (mode : Rounding) (scaleOptional : Bool) : Value :=
  let scale? : Option Int :=
    match Args.get args 1 with
    | .null => if scaleOptional then some 0 else none
    | v => (Args.int? v).filter fun s => decide (-6111 ≤ s ∧ s ≤ 6176)
  match Args.decimal? (Args.get args 0), scale? with
  | some n, some scale => ofDecimal (n.withScale scale mode)
  | _, _ => .null

/-- The absolute value of a number or a duration. There is none where the opposite of a number
of months stops the program. -/
def absolute? (o : Overflow) : Value → Option Value
  | .number n =>
    some <| .number <| match n with
      | .integer i => Number.ofInt i.toInt.natAbs
      | .long l => Number.ofIntLong l.toInt.natAbs
      | .double x => .double x.abs
      | .decimal d => .decimal d.abs
  | .dayTimeDuration nanos => some (.dayTimeDuration nanos.natAbs)
  | .yearMonthDuration months =>
    (if months < 0 then o.neg? months else some months).map .yearMonthDuration
  | _ => some .null

/-- The absolute value of a number or a duration. -/
def absolute (v : Value) : Value := (absolute? .wraps v).getD .null

@[simp] theorem absolute_yearMonthDuration (months : Int64) :
    absolute (.yearMonthDuration months) =
      .yearMonthDuration (if months < 0 then -months else months) := by
  rw [absolute, absolute?]
  split <;> rfl

/-- The remainder of the division that rounds down; it has the sign of the divisor. -/
def floorRemainder (a b : Decimal) : Decimal :=
  let r := a.rem b
  if r.digits ≠ 0 ∧ (r.digits < 0) ≠ (b.digits < 0) then r.add b else r

def remainder (a b : Value) : Value :=
  match Args.decimal? a, Args.decimal? b with
  | some a, some b => if b.isZero then .null else ofDecimal (floorRemainder a b)
  | _, _ => .null

def squareRoot (v : Value) : Value :=
  match Args.decimal? v with
  | some d => if d.digits < 0 then .null else ofDecimal d.sqrt
  | none => .null

def logarithm (v : Value) : Value :=
  match v.asNumber? with
  | some n => if 0 < n.toFloat then ofFloat n.toFloat.log else .null
  | none => .null

def exponential (v : Value) : Value :=
  match v.asNumber? with
  | some n => ofFloat n.toFloat.exp
  | none => .null

/-- Whether an integer is odd, or even. -/
def parity (v : Value) (wanted : Int) : Value :=
  .ofBool? ((Args.int? v).map fun n => n % 2 == wanted)

end Builtin

end Feel
