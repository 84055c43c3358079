import Feel.Value.Order
import Feel.Value.Text

/-!
# Operators on values

The meaning of every operator on values. Null and operands of the wrong family give null;
nothing fails. The interpreter and the constant folder both work with these functions.

* `Datum.arith`: numeric arithmetic.
* `Datum.concat`: concatenation of texts.
* `Datum.temporal`: arithmetic of dates, times and durations.
* `Datum.compare`, `Datum.compareAs`: comparisons.
* `Datum.and`, `Datum.or`, `Datum.not`: three-valued logic.
* `Datum.dynamic`: an operator chosen by the values it meets.
-/

namespace Feel

/-- How arithmetic is carried out. -/
inductive NumericMode where
  /-- In the narrowest representation that holds operands and result. -/
  | native
  /-- On decimals. -/
  | decimal
  deriving DecidableEq, Inhabited

/-- How an order comparison is carried out. -/
inductive CompareMode where
  /-- On decimals. -/
  | decimal
  /-- On binary64 numbers. -/
  | double
  /-- In the order of the family. -/
  | natural
  deriving DecidableEq, Inhabited

/-- How an equality was justified. -/
inductive EqualMode where
  /-- Both operands are primitives of one representation and never null. -/
  | primitive
  /-- Numbers by value. -/
  | numeric
  /-- Values by structure. -/
  | structural
  deriving DecidableEq, Inhabited

namespace Datum

variable {κ : Type}

/-! ### Numbers and texts -/

/-- Numeric arithmetic; a quotient is rounded to `precision` significant digits. -/
def arith (op : Operator) (left right : Datum κ) (mode : NumericMode) (precision : Nat) :
    Datum κ :=
  match left, right with
  | number l, number r =>
    ofNumber? <|
      if op = .div then l.divide? r precision else l.arith? op r (mode == .decimal)
  | _, _ => null

/-- The opposite of a number or a duration. There is none where the opposite of a number of
months stops the program. -/
def negate? (o : Overflow) : Datum κ → Option (Datum κ)
  | number n => some (number n.neg)
  | dayTimeDuration nanos => some (dayTimeDuration (-nanos))
  | yearMonthDuration months => (o.neg? months).map yearMonthDuration
  | _ => some null

/-- The opposite of a number or a duration. -/
def negate (v : Datum κ) : Datum κ := (negate? .wraps v).getD null

@[simp] theorem negate_number (n : Number) : (number n : Datum κ).negate = number n.neg := rfl

/-- The texts of both operands, one after the other. -/
def concat (left right : Datum κ) : Datum κ :=
  if left.isNull || right.isNull then null else string (left.text ++ right.text)

/-! ### Comparisons -/

/-- A comparison; incomparable operands and null give null. -/
def compare (op : Operator) (left right : Datum κ) : Datum κ :=
  ofBool? ((left.order? right).map op.holds)

/-- A comparison in a given mode; only numbers are compared as binary64. -/
def compareAs (op : Operator) (mode : CompareMode) (left right : Datum κ) : Datum κ :=
  match mode, left, right with
  | .double, number l, number r => ofBool? ((Binary64.order? l.toFloat r.toFloat).map op.holds)
  | _, left, right => compare op left right

/-- Equality, or its negation. -/
def equality (left right : Datum κ) (negated : Bool) : Datum κ :=
  boolean (left.equal right != negated)

/-! ### Three-valued logic -/

/-- Conjunction; what is no boolean counts as null. -/
def and (left right : Datum κ) : Datum κ :=
  match left.asBool?, right.asBool? with
  | some false, _ | _, some false => boolean false
  | some true, some true => boolean true
  | _, _ => null

/-- Disjunction; what is no boolean counts as null. -/
def or (left right : Datum κ) : Datum κ :=
  match left.asBool?, right.asBool? with
  | some true, _ | _, some true => boolean true
  | some false, some false => boolean false
  | _, _ => null

/-- Negation; what is no boolean gives null. -/
def not (v : Datum κ) : Datum κ := ofBool? (v.asBool?.map Bool.not)

/-- Conjunction or disjunction. -/
def logic (op : Operator) (left right : Datum κ) : Datum κ :=
  match op with
  | .or => left.or right
  | _ => left.and right

/-! ### Dates, times and durations -/

/-- The instant of a date or a date and time. -/
def instant? : Datum κ → Option DateTime
  | date d => some (DateTime.atMidnight d)
  | dateTime t => some t
  | _ => none

/-- A date shifted by months; the amount has to fit 32 bits. -/
def shiftMonths? (d : Date) (months : Int) : Option Date :=
  if months.natAbs ≤ 0x7FFFFFFF then d.addMonths? months else none

/-- A whole amount times or over a number, cut toward zero. -/
def scale? (op : Operator) (amount : Int) (factor : Number) : Option Int :=
  let factor := factor.toFloat
  if op = .div && factor == 0 then none
  else
    let a := Binary64.ofInt amount
    let scaled := if op = .div then a / factor else a * factor
    if scaled.isFinite then some (Binary64.toInt64 (Binary64.trunc scaled)).toInt else none

/-- The quotient of two whole amounts. -/
def ratio? (a b : Int) : Option Number :=
  (Number.long (Int64.ofInt a)).divide? (Number.long (Int64.ofInt b)) Number.defaultPrecision

/-- A value shifted by a days-and-time duration. -/
def shift? (v : Datum κ) (nanos : Int) : Option (Datum κ) :=
  match v with
  | date d => ((DateTime.atMidnight d).add? nanos).map fun t => date t.date
  | dateTime t => (t.add? nanos).map dateTime
  | time t => some (time (t.add nanos).1)
  | _ => none

/-- A date or an instant shifted by months; the time of day is kept. -/
def shiftByMonths? (v : Datum κ) (months : Int64) : Option (Datum κ) :=
  match v with
  | date d => (shiftMonths? d months.toInt).map date
  | dateTime t => (shiftMonths? t.date months.toInt).map fun d => dateTime ⟨d, t.time⟩
  | _ => none

/-- A duration times or over a number. -/
def scaleDuration? (op : Operator) (v : Datum κ) (n : Number) : Option (Datum κ) :=
  match v with
  | dayTimeDuration nanos => do
    let millis ← scale? op (Duration.milliseconds nanos) n
    (Duration.inRange? (millis * Duration.millisecond)).map dayTimeDuration
  | yearMonthDuration months =>
    (scale? op months.toInt n).map fun m => yearMonthDuration (Int64.ofInt m)
  | _ => none

/-- Sums. -/
def temporalAdd? : Datum κ → Datum κ → Option (Datum κ)
  | dayTimeDuration a, dayTimeDuration b => (Duration.inRange? (a + b)).map dayTimeDuration
  | yearMonthDuration a, yearMonthDuration b =>
    (Number.int64? (a.toInt + b.toInt)).map yearMonthDuration
  | v, dayTimeDuration nanos => v.shift? nanos
  | dayTimeDuration nanos, v => v.shift? nanos
  | v, yearMonthDuration months => v.shiftByMonths? months
  | yearMonthDuration months, v => v.shiftByMonths? months
  | _, _ => none

/-- Differences, where they exist. To subtract months their opposite is added, which may stop
the program. -/
def subtract? (o : Overflow) : Datum κ → Datum κ → Option (Option (Datum κ))
  | time a, time b => some (some (dayTimeDuration (a.since b)))
  | dayTimeDuration a, dayTimeDuration b =>
    some ((Duration.inRange? (a - b)).map dayTimeDuration)
  | yearMonthDuration a, yearMonthDuration b =>
    some ((Number.int64? (a.toInt - b.toInt)).map yearMonthDuration)
  | v, dayTimeDuration nanos => some (v.shift? (-nanos))
  | date d, yearMonthDuration months => (o.neg? months).map (date d).shiftByMonths?
  | dateTime t, yearMonthDuration months => (o.neg? months).map (dateTime t).shiftByMonths?
  | a, b =>
    match a.instant?, b.instant? with
    | some s, some t => some (some (dayTimeDuration (s.since t)))
    | _, _ => some none

/-- Differences. -/
def temporalSub? (left right : Datum κ) : Option (Datum κ) := (subtract? .wraps left right).join

/-- Quotients. -/
def temporalDiv? : Datum κ → Datum κ → Option (Datum κ)
  | dayTimeDuration a, dayTimeDuration b =>
    (ratio? (Duration.milliseconds a) (Duration.milliseconds b)).map number
  | yearMonthDuration a, yearMonthDuration b => (ratio? a.toInt b.toInt).map number
  | v, number n => scaleDuration? .div v n
  | _, _ => none

/-- Products. -/
def temporalMul? : Datum κ → Datum κ → Option (Datum κ)
  | number n, v => scaleDuration? .mul v n
  | v, number n => scaleDuration? .mul v n
  | _, _ => none

/-- Arithmetic of dates, times and durations. -/
def temporal (op : Operator) (left right : Datum κ) : Datum κ :=
  Option.getD (match op with
    | .add => temporalAdd? left right
    | .sub => temporalSub? left right
    | .mul => temporalMul? left right
    | .div => temporalDiv? left right
    | _ => none) null

/-- Arithmetic of dates, times and durations. There is no result where an overflow stops the
program. -/
def temporal? (o : Overflow) (op : Operator) (left right : Datum κ) : Option (Datum κ) :=
  match op with
  | .sub => (subtract? o left right).map (·.getD null)
  | op => some (temporal op left right)

/-! ### Dispatch on values -/

def isDecimal : Number → Bool
  | .decimal _ => true
  | _ => false

/-- An operator chosen by the values it meets. Numbers are added as decimals once one of
them is a decimal, and a sum with a string joins texts. -/
def dynamic (op : Operator) (left right : Datum κ) : Datum κ :=
  if op.isLogic then logic op left right
  else if op.isEquality then equality left right (op == .ne)
  else if op.isOrdering then compare op left right
  else if left.isNull || right.isNull then null
  else match left, right with
    | number l, number r =>
      let mode := if isDecimal l || isDecimal r then .decimal else .native
      arith op left right mode Number.defaultPrecision
    | left, right =>
      if op = .add && (left.asString?.isSome || right.asString?.isSome) then concat left right
      else temporal op left right

end Datum

end Feel
