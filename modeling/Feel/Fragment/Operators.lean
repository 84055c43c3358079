import Feel.Code.Equality
import Feel.Fragment.Basic

/-!
# Operators on fragments

The code of an operator depends on the types of its operands and on what is known of their
values. There is a rule for each family of operators; an operator that no rule covers is left
to the values it meets, or is null, or is refused.

* `Outcome`: what a rule makes of an operator.
* `Fragment.equality`, `Fragment.connective`, `Fragment.comparison`, `Fragment.arithmetic`,
  `Fragment.concatenation`, `Fragment.temporal`: the rules.
* `Fragment.binary`: the fragment of an operator.
-/

namespace Feel

/-- What a rule makes of an operator. -/
inductive Outcome where
  /-- A known value at a type. -/
  | value (v : Value) (type : Ty)
  | fragment (f : Fragment)

namespace Outcome

/-- A known value at its own type. -/
def ofValue (v : Value) : Outcome := value v v.type

/-- The fragment of an outcome. -/
def emit : Outcome → Lowering Fragment
  | value v type => Fragment.ofConstant v type
  | fragment f => return f

end Outcome

namespace Fragment

/-- The values of both operands, where folding is wanted and they are known. -/
def operands? (options : Options) (l r : Fragment) : Option (Value × Value) :=
  match l.value? options, r.value? options with
  | some a, some b => some (a, b)
  | _, _ => none

/-- Operands that are asked for are known. -/
theorem constants_of_operands? {options : Options} {l r : Fragment} {a b : Value}
    (h : operands? options l r = some (a, b)) : l.constant = some a ∧ r.constant = some b := by
  unfold operands? at h
  split at h
  · next hl hr =>
    cases h
    exact ⟨constant_of_value? hl, constant_of_value? hr⟩
  · cases h

/-! ### Equality -/

/-- How two values are compared for equality. -/
def equalMode (l r : Fragment) : EqualMode :=
  let numbers := l.type.isNumber && r.type.isNumber
  if l.primitive && r.primitive && (l.type == r.type || numbers) then .primitive
  else if numbers then .numeric
  else .structural

/-- Equality and its negation: the same code gives the same value. -/
def equality (options : Options) (op : Operator) (l r : Fragment) : Outcome :=
  let negated := op == .ne
  if options.folding && l.code.same r.code then .ofValue (.boolean !negated)
  else
    match operands? options l r with
    | some (a, b) => .ofValue (Datum.equality a b negated)
    | none => .fragment (computed (.equal (equalMode l r) negated l.code r.code) .boolean).nonNull

/-! ### Logic -/

/-- A boolean that is never null. -/
def isProvenBoolean (f : Fragment) : Bool := f.type.isBoolean && !f.nullable

/-- Whether a value is known and settles a connective by itself. -/
def isDominant (options : Options) (op : Operator) (f : Fragment) : Bool :=
  ((f.value? options).map (·.isBool (op == .or))).getD false

/-- Conjunction and disjunction. -/
def connective (options : Options) (op : Operator) (l r : Fragment) : Outcome :=
  match operands? options l r with
  | some (a, b) => .ofValue (Datum.logic op a b)
  | none =>
    if isDominant options op l || isDominant options op r then .ofValue (.boolean (op == .or))
    else
      let shortCircuit := isProvenBoolean l && isProvenBoolean r
      let whole := computed (.logic op shortCircuit l.code r.code) .boolean
      .fragment (if shortCircuit then whole.nonNull else whole)

/-! ### Order -/

/-- Numbers that may have more digits than the machine's. -/
def isExact (t : Ty) : Bool := t == .number .decimal || t == .number .number

/-- How two values are ordered. -/
def compareMode (l r : Ty) : CompareMode :=
  if !l.isNumber || !r.isNumber then .natural
  else if isExact l || isExact r then .decimal
  else .double

/-- A comparison of types that have an order. -/
def comparison (options : Options) (op : Operator) (l r : Fragment) : Outcome :=
  let mode := compareMode l.type r.type
  match operands? options l r with
  | some (a, b) => .ofValue (Datum.compareAs op mode a b)
  | none =>
    let whole := computed (.compare op mode l.code r.code) .boolean
    .fragment (if l.primitive && r.primitive then whole.nonNull else whole)

/-! ### Arithmetic -/

/-- How numbers are combined into a result of a type. -/
def numericMode (options : Options) (op : Operator) (result : Ty) : NumericMode :=
  if isExact result || op == .div || !options.nativeArithmetic then .decimal else .native

/-- Arithmetic on two numbers. Quotients and powers can be null for operands that are not. -/
def arithmetic (options : Options) (op : Operator) (l r : Fragment) : Outcome :=
  let result := op.resultType l.type r.type
  let mode := numericMode options op result
  match operands? options l r with
  | some (a, b) => .value (Datum.arith op a b mode options.precision) result
  | none =>
    let nullCheck := l.nullable || r.nullable
    let nullable := nullCheck || op == .div || op == .pow
    .fragment ((computed (.arith op mode l.code r.code nullCheck) result).withNullable nullable)

/-- A sum that is a string. -/
def concatenation (options : Options) (l r : Fragment) : Outcome :=
  match operands? options l r with
  | some (a, b) => .value (Datum.concat a b) .string
  | none =>
    .fragment ((computed (.concat l.code r.code) .string).withNullable (l.nullable || r.nullable))

/-- Arithmetic on dates, times and durations. -/
def temporal (options : Options) (op : Operator) (l r : Fragment) : Outcome :=
  let result := op.resultType l.type r.type
  match operands? options l r with
  | some (a, b) => .value (Datum.temporal op a b) result
  | none => .fragment (computed (.temporal op l.code r.code) result)

/-! ### All operators -/

/-- The rule that covers an operator on two fragments, if there is one. -/
def outcome? (options : Options) (op : Operator) (l r : Fragment) : Option Outcome :=
  let result := op.resultType l.type r.type
  if op.isEquality then some (equality options op l r)
  else if op.isLogic then some (connective options op l r)
  else if op.isOrdering then
    if result.isBoolean then some (comparison options op l r) else none
  else if l.type.isNumber && r.type.isNumber then some (arithmetic options op l r)
  else if op == .add && result.isString then some (concatenation options l r)
  else if (l.type.isTemporal || r.type.isTemporal) && !result.isNull && !result.isAny then
    some (temporal options op l r)
  else none

/-- The fragment of an operator. -/
def binary (options : Options) (span : Span) (op : Operator) (l r : Fragment) :
    Lowering Fragment :=
  match outcome? options op l r with
  | some outcome => outcome.emit
  | none =>
    let result := op.resultType l.type r.type
    if result.isAny || l.type.isAny || r.type.isAny then
      return computed (.dynamic op l.code r.code) result
    else if result.isNull then return null
    else throw (.typing (.noRule op l.type r.type) span [l.code, r.code])

end Fragment

end Feel
