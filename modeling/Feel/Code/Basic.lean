import Feel.Value.Operators
import Feel.Value.Typing
import Feel.Table.Policy

/-!
# Executable code

Compiled expressions, unary tests and decision tables are trees of code. Operators have
been chosen, names resolved to locals and input fields, and constants may refer to the
pool of a program.

* `Code`: the trees.
* `Value`: the values whose functions have code as bodies.
* `Domain`, `Binding`: what iterations run over.
* `DecisionMatrix`: a decision table whose cells are of some type.
-/

namespace Feel

/-! ### Parts with cells of any type -/

/-- What a binding of an iteration runs over. -/
inductive Domain (ε : Type) where
  /-- The elements of a list, a range or a single value. -/
  | values (source : ε)
  /-- The steps from a first to a last value, both included. The next value is given in
  terms of the local `cursor`, which holds the current one. -/
  | steps (first last : ε) (cursor : String) (successor predecessor : ε)

/-- A name and what it runs over. -/
structure Binding (ε : Type) where
  name : String
  domain : Domain ε

/-- What a call invokes. -/
inductive Target (ε : Type) where
  | builtin (name : String)
  | value (callee : ε)

/-- A row of a decision table: tests on the inputs and outputs. -/
structure MatrixRule (ε : Type) where
  conditions : List ε
  outputs : List ε

/-- An output column of a decision table. -/
structure MatrixOutput (ε : Type) where
  name : Option String
  /-- The test of the allowed values. -/
  check : Option ε
  /-- The allowed values one by one, highest priority first. -/
  priorities : List ε
  /-- The entry for no match. -/
  fallback : Option ε

/-- A decision table with cells in `ε`. -/
structure DecisionMatrix (ε : Type) where
  name : String
  inputs : List ε
  rules : List (MatrixRule ε)
  outputs : List (MatrixOutput ε)
  hitPolicy : HitPolicy
  aggregation : Option Aggregation
  /-- Results are bare values and not contexts. -/
  singleOutput : Bool

/-- How a filter is used. -/
inductive FilterKind where
  /-- As a position in the list. -/
  | index
  /-- As a test of each element. -/
  | predicate
  /-- As the value decides. -/
  | dynamic
  deriving DecidableEq, Inhabited

/-! ### Code -/

/-- A tree of code. -/
inductive Code where
  | const (v : Datum Code)
  /-- An entry of the constant pool. -/
  | constRef (index : Nat)
  | input
  /-- The value under test. -/
  | testInput
  | «local» (name : String)
  /-- A field of the input, null where it is missing. -/
  | inputField (name : String)
  | member (source : Code) (name : String)
  /-- Arithmetic; unless `nullCheck` is set neither operand is ever null. -/
  | arith (op : Operator) (mode : NumericMode) (left right : Code) (nullCheck : Bool)
  | concat (left right : Code)
  | temporal (op : Operator) (left right : Code)
  | compare (op : Operator) (mode : CompareMode) (left right : Code)
  | equal (mode : EqualMode) (negated : Bool) (left right : Code)
  /-- Conjunction or disjunction; short-circuit is for operands that are booleans. -/
  | logic (op : Operator) (shortCircuit : Bool) (left right : Code)
  | not (operand : Code)
  | negate (operand : Code)
  /-- An operator chosen by the values it meets. -/
  | dynamic (op : Operator) (left right : Code)
  | ite (condition yes no : Code)
  | list (items : List Code)
  /-- Entries are evaluated in order and see those before them as locals. -/
  | context (entries : List (String × Code))
  | range (start finish : Option Code) (startIncluded endIncluded : Bool)
  | between (value low high : Code)
  | instanceOf (value : Code) (target : Ty)
  | filter (source filter : Code) (kind : FilterKind)
  | forIn (bindings : List (Binding Code)) (body : Code)
  | quantified (every : Bool) (bindings : List (Binding Code)) (condition : Code)
  | function (params : List String) (body : Code) (type : Ty)
  | call (target : Target Code) (args : List Code) (names : Option (List String))
  | convert (value : Code) (target : Ty)
  /-- A unary test whose kind the value of `test` decides. -/
  | unaryMatch (test : Code)
  | listContains (list value : Code)
  | rangeContains (range value : Code)
  /-- The body with the subject as the value under test. -/
  | withTestInput (subject body : Code)
  | decision (table : DecisionMatrix Code)

/-- A value whose functions have code as bodies. -/
abbrev Value := Datum Code

/-- A function value whose body is code. -/
abbrev FunctionValue := Function Code

namespace Code

instance : Inhabited Code := ⟨input⟩

/-- The null constant. -/
def null : Code := const .null

/-- Constants, inline or in the pool. -/
def isConstant : Code → Bool
  | const _ | constRef _ => true
  | _ => false

end Code

namespace Domain

/-- The cells of a domain, in order. -/
def cells {ε : Type} : Domain ε → List ε
  | values source => [source]
  | steps first last _ successor predecessor => [first, last, successor, predecessor]

end Domain

namespace DecisionMatrix

/-- The cells of a table: inputs, then rules, then output columns. -/
def cells {ε : Type} (m : DecisionMatrix ε) : List ε :=
  m.inputs ++ m.rules.flatMap (fun r => r.conditions ++ r.outputs) ++
    m.outputs.flatMap fun o => o.check.toList ++ o.priorities ++ o.fallback.toList

end DecisionMatrix

namespace Code

/-- The direct parts of a tree, in order. -/
def children : Code → List Code
  | const _ | constRef _ | input | testInput | «local» _ | inputField _ => []
  | member source _ => [source]
  | arith _ _ l r _ | concat l r | temporal _ l r | compare _ _ l r | equal _ _ l r
  | logic _ _ l r | dynamic _ l r => [l, r]
  | not c | negate c => [c]
  | ite c y n => [c, y, n]
  | list items => items
  | context entries => entries.map (·.2)
  | range s f _ _ => s.toList ++ f.toList
  | between v l h => [v, l, h]
  | instanceOf v _ | convert v _ => [v]
  | filter s f _ => [s, f]
  | forIn bs body => bs.flatMap (·.domain.cells) ++ [body]
  | quantified _ bs c => bs.flatMap (·.domain.cells) ++ [c]
  | function _ body _ => [body]
  | call (.builtin _) args _ => args
  | call (.value callee) args _ => callee :: args
  | unaryMatch t => [t]
  | listContains l v => [l, v]
  | rangeContains r v => [r, v]
  | withTestInput s b => [s, b]
  | decision t => t.cells

end Code

end Feel
