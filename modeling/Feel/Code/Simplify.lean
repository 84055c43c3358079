import Feel.Code.Basic

/-!
# Constant folding

Operators on constants are computed ahead of the run, branches with a known condition are
taken, and conjunctions and disjunctions with an operand that decides them are replaced by
it. Everything else keeps its form.

* `Code.valueIn?`: the value of a constant.
* `Code.simplify`: the simplified tree.
-/

namespace Feel

namespace Code

/-- The value of a constant, inline or in the pool. -/
def valueIn? (pool : List Value) : Code → Option Value
  | const v => some v
  | constRef i => pool[i]?
  | _ => none

/-- The constant that an operator gives on constant operands, else the operation itself. -/
def onConstants (pool : List Value) (f : Value → Value → Value) (l r : Code) (whole : Code) :
    Code :=
  match l.valueIn? pool, r.valueIn? pool with
  | some v, some w => const (f v w)
  | _, _ => whole

/-- Conjunction or disjunction of simplified operands. An operand that decides the result
replaces it, whatever the other one is. -/
def simplifyLogic (pool : List Value) (op : Operator) (shortCircuit : Bool) (l r : Code) : Code :=
  let dominates (c : Code) : Bool := (c.valueIn? pool).any (·.isBool (op == .or))
  match l.valueIn? pool, r.valueIn? pool with
  | some v, some w => const (Datum.logic op v w)
  | _, _ =>
    if dominates l || dominates r then const (.boolean (op == .or))
    else logic op shortCircuit l r

/-- Between two bounds, of simplified operands. -/
def simplifyBetween (pool : List Value) (v l h : Code) : Code :=
  match v.valueIn? pool, l.valueIn? pool, h.valueIn? pool with
  | some x, some lo, some hi => const ((Datum.compare .ge x lo).and (Datum.compare .le x hi))
  | _, _, _ => between v l h

/-- A function of one simplified operand. -/
def onConstant (pool : List Value) (f : Value → Value) (c : Code) (whole : Code) : Code :=
  match c.valueIn? pool with
  | some v => const (f v)
  | none => whole

mutual

/-- The tree with its constant parts computed; quotients are rounded to `precision` digits. -/
def simplify (pool : List Value) (precision : Nat) : Code → Code
  | arith op mode l r nullCheck =>
    let l := simplify pool precision l
    let r := simplify pool precision r
    onConstants pool (fun v w => v.arith op w mode precision) l r (arith op mode l r nullCheck)
  | concat l r =>
    let l := simplify pool precision l
    let r := simplify pool precision r
    onConstants pool Datum.concat l r (concat l r)
  | temporal op l r =>
    let l := simplify pool precision l
    let r := simplify pool precision r
    onConstants pool (Datum.temporal op) l r (temporal op l r)
  | compare op mode l r =>
    let l := simplify pool precision l
    let r := simplify pool precision r
    onConstants pool (Datum.compareAs op mode) l r (compare op mode l r)
  | equal mode negated l r =>
    let l := simplify pool precision l
    let r := simplify pool precision r
    onConstants pool (fun v w => v.equality w negated) l r (equal mode negated l r)
  | logic op shortCircuit l r =>
    simplifyLogic pool op shortCircuit (simplify pool precision l) (simplify pool precision r)
  | not c =>
    let c := simplify pool precision c
    onConstant pool Datum.not c (not c)
  | negate c =>
    let c := simplify pool precision c
    onConstant pool Datum.negate c (negate c)
  | dynamic op l r =>
    let l := simplify pool precision l
    let r := simplify pool precision r
    onConstants pool (Datum.dynamic op) l r (dynamic op l r)
  | ite c y n =>
    let c := simplify pool precision c
    let y := simplify pool precision y
    let n := simplify pool precision n
    match c.valueIn? pool with
    | some v => if v.isBool true then y else n
    | none => ite c y n
  | between v l h =>
    simplifyBetween pool (simplify pool precision v) (simplify pool precision l)
      (simplify pool precision h)
  | const v => const v
  | constRef i => constRef i
  | input => input
  | testInput => testInput
  | «local» n => «local» n
  | inputField n => inputField n
  | member s n => member (simplify pool precision s) n
  | list items => list (simplifyList pool precision items)
  | context es => context (simplifyEntries pool precision es)
  | range s e si ei =>
    range (simplifyOption pool precision s) (simplifyOption pool precision e) si ei
  | instanceOf v t => instanceOf (simplify pool precision v) t
  | filter s f kind => filter (simplify pool precision s) (simplify pool precision f) kind
  | forIn bs body => forIn (simplifyBindings pool precision bs) (simplify pool precision body)
  | quantified every bs c =>
    quantified every (simplifyBindings pool precision bs) (simplify pool precision c)
  | function ps body t => function ps (simplify pool precision body) t
  | call target args names =>
    call (simplifyTarget pool precision target) (simplifyList pool precision args) names
  | convert v t => convert (simplify pool precision v) t
  | unaryMatch t => unaryMatch (simplify pool precision t)
  | listContains l v => listContains (simplify pool precision l) (simplify pool precision v)
  | rangeContains r v => rangeContains (simplify pool precision r) (simplify pool precision v)
  | withTestInput s b => withTestInput (simplify pool precision s) (simplify pool precision b)
  | decision t => decision (simplifyMatrix pool precision t)

def simplifyList (pool : List Value) (precision : Nat) : List Code → List Code
  | [] => []
  | c :: cs => simplify pool precision c :: simplifyList pool precision cs

def simplifyEntries (pool : List Value) (precision : Nat) :
    List (String × Code) → List (String × Code)
  | [] => []
  | (n, c) :: es => (n, simplify pool precision c) :: simplifyEntries pool precision es

def simplifyOption (pool : List Value) (precision : Nat) : Option Code → Option Code
  | none => none
  | some c => some (simplify pool precision c)

def simplifyBindings (pool : List Value) (precision : Nat) :
    List (Binding Code) → List (Binding Code)
  | [] => []
  | ⟨n, d⟩ :: bs => ⟨n, simplifyDomain pool precision d⟩ :: simplifyBindings pool precision bs

def simplifyDomain (pool : List Value) (precision : Nat) : Domain Code → Domain Code
  | .values c => .values (simplify pool precision c)
  | .steps f l cursor s p =>
    .steps (simplify pool precision f) (simplify pool precision l) cursor
      (simplify pool precision s) (simplify pool precision p)

def simplifyTarget (pool : List Value) (precision : Nat) : Target Code → Target Code
  | .builtin n => .builtin n
  | .value c => .value (simplify pool precision c)

def simplifyMatrix (pool : List Value) (precision : Nat) :
    DecisionMatrix Code → DecisionMatrix Code
  | ⟨name, inputs, rules, outputs, policy, aggregation, single⟩ =>
    ⟨name, simplifyList pool precision inputs, simplifyRules pool precision rules,
      simplifyOutputs pool precision outputs, policy, aggregation, single⟩

def simplifyRules (pool : List Value) (precision : Nat) :
    List (MatrixRule Code) → List (MatrixRule Code)
  | [] => []
  | ⟨cs, os⟩ :: rs =>
    ⟨simplifyList pool precision cs, simplifyList pool precision os⟩ ::
      simplifyRules pool precision rs

def simplifyOutputs (pool : List Value) (precision : Nat) :
    List (MatrixOutput Code) → List (MatrixOutput Code)
  | [] => []
  | ⟨name, check, ps, fallback⟩ :: os =>
    ⟨name, simplifyOption pool precision check, simplifyList pool precision ps,
      simplifyOption pool precision fallback⟩ :: simplifyOutputs pool precision os

end

end Code

end Feel
