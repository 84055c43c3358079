import Feel.Builtin.Apply
import Feel.Eval.Decision
import Feel.Eval.Iteration

/-!
# The meaning of code

Each form of code has a combinator on actions, and the meaning of a tree is put together
from the meanings of its parts. Calls of function values go to the machine the code runs on.

* `Machine`: constants, precision and calls.
* `Code.denote`: the action of a tree.
* `Machine.invoke`: calls of function values, nested up to a limit.
* `Code.run`: the value of code in a frame.
-/

namespace Feel

/-- Calls of function values with arguments by position, over an input. -/
abbrev Caller := Site → FunctionValue → List Value → Value → Except EvalError Value

/-- What code runs on. -/
structure Machine where
  /-- The constant pool. -/
  constants : List Value
  /-- The significant digits of quotients. -/
  precision : Nat
  call : Caller

namespace Action

/-! ### Combinators -/

/-- An entry of the constant pool. -/
def constant (m : Machine) (index : Nat) : Action := fun _ _ =>
  match m.constants.drop index with
  | v :: _ => .ok v
  | [] => .error (.constantOutOfRange index)

/-- Arithmetic; a null on the left ends it early where it is checked. -/
def arith (m : Machine) (op : Operator) (mode : NumericMode) (nullCheck : Bool)
    (left right : Action) : Action := fun site frame => do
  let l ← left (0 :: site) frame
  if nullCheck && l.isNull then return .null
  let r ← right (1 :: site) frame
  return l.arith op r mode m.precision

/-- An operator chosen by values; quotients of numbers have the machine's precision. -/
def dynamicValue (precision : Nat) (op : Operator) (l r : Value) : Value :=
  match op, l, r with
  | .div, .number _, .number _ => l.arith op r .decimal precision
  | _, _, _ => Datum.dynamic op l r

/-- Conjunction or disjunction. The right operand is left out where the left one decides,
and it is the result where short-circuit is asked for. -/
def logic (op : Operator) (shortCircuit : Bool) (left right : Action) : Action :=
  fun site frame => do
    let l ← left (0 :: site) frame
    if l.isBool (op == .or) then return l
    let r ← right (1 :: site) frame
    return if shortCircuit then r else Datum.logic op l r

/-- The second action where the condition is true, else the third. Nothing of the condition
outlives the choice, so that the branch that is taken is at the place of the whole. -/
def ite (condition yes no : Action) : Action := fun site frame => do
  let c ← condition (0 :: site) frame
  if c.isBool true then yes site frame else no site frame

def list (items : List Action) : Action := fun site frame => do
  return .list (← all site frame 0 items)

/-- The entries of a context; each sees those before it. -/
def entries (site : Site) : Nat → Frame → List (String × Action) → List (String × Value) →
    Except EvalError (List (String × Value))
  | _, _, [], done => .ok done
  | i, frame, (name, a) :: rest, done => do
    let v ← a (i :: site) frame
    entries site (i + 1) (frame.bind name v) rest (Entries.insert done name v)

def context (es : List (String × Action)) : Action := fun site frame => do
  return .context (← entries site 0 frame es [])

/-- An optional action. -/
def optional (a : Option Action) (site : Site) (frame : Frame) :
    Except EvalError (Option Value) :=
  match a with
  | some a => (a site frame).map some
  | none => .ok none

def range (start finish : Option Action) (si ei : Bool) : Action := fun site frame => do
  let s ← optional start (0 :: site) frame
  let e ← optional finish (1 :: site) frame
  return .range s e si ei

/-- Between two bounds, both included. -/
def between (value low high : Action) : Action := fun site frame => do
  let v ← value (0 :: site) frame
  let l ← low (1 :: site) frame
  let h ← high (2 :: site) frame
  return (Datum.compare .ge v l).and (Datum.compare .le v h)

/-- A closure over the locals and the constants. -/
def closure (m : Machine) (params : List String) (body : Code) (type : Ty) : Action :=
  fun site frame => .ok (.function (.closure site params body frame.locals m.constants type))

/-- Applies a built-in function by name. -/
def callBuiltin (name : String) (args : List Value) (precision : Nat)
    (invoke : FunctionValue → List Value → Except EvalError Value) : Except EvalError Value :=
  match Builtin.ofName? name with
  | some f =>
    if f.inBounds args then f.apply args precision invoke else .error .sliceOutOfBounds
  | none => .error (.unknownFunction name)

/-- Arguments in the order of the parameters; a parameter that is not named gets null. -/
def arrange (params names : List String) (args : List Value) : List Value :=
  params.map fun p => ((names.zip args).lookup p).getD .null

/-- The arguments of a call as its function takes them. -/
def positional (f : FunctionValue) (names : Option (List String)) (args : List Value) :
    List Value :=
  match names with
  | some names => arrange f.paramNames names args
  | none => args

/-- A call: the arguments come first, then the function. What is no function gives null. -/
def call (m : Machine) (target : Target Action) (args : List Action)
    (names : Option (List String)) : Action := fun site frame => do
  let vs ← all (0 :: site) frame 0 args
  match target with
  | .builtin name =>
    callBuiltin name vs m.precision fun f vs => m.call (1 :: site) f vs frame.input
  | .value callee =>
    match ← callee (2 :: site) frame with
    | .function f => m.call (3 :: site) f (positional f names vs) frame.input
    | _ => return .null

/-- A unary test whose kind follows its value: membership, containment, a condition of its
own, or equality. -/
def matchTest (test input : Value) : Value :=
  match test, input with
  | .list items, _ => .boolean (items.any (·.equal input))
  | .range s e si ei, _ => .ofBool? (Datum.rangeContains? s e si ei input)
  | .boolean _, .boolean _ => input.equality test false
  | .boolean _, _ => test
  | _, _ => input.equality test false

def listContains (list v : Value) : Value :=
  match list with
  | .list items => .boolean (items.any (·.equal v))
  | _ => .null

def rangeContains (range v : Value) : Value :=
  match range with
  | .range s e si ei => .ofBool? (Datum.rangeContains? s e si ei v)
  | _ => .null

/-- Runs the body on the value of the subject. -/
def withTestInput (subject body : Action) : Action := fun site frame => do
  let v ← subject (0 :: site) frame
  body (1 :: site) (frame.withTest v)

end Action

/-! ### Meaning -/

namespace Code

mutual

/-- The action of a tree on a machine. -/
def denote (m : Machine) : Code → Action
  | const v => fun _ _ => .ok v
  | constRef index => Action.constant m index
  | input => fun _ frame => .ok frame.input
  | testInput => fun _ frame => .ok frame.tested
  | «local» name => fun _ frame => .ok (frame.lookup name)
  | inputField name => fun _ frame => .ok ((frame.input.get? name).getD .null)
  | member source name => Action.map (·.member name) (denote m source)
  | arith op mode l r nullCheck => Action.arith m op mode nullCheck (denote m l) (denote m r)
  | concat l r => Action.both Datum.concat (denote m l) (denote m r)
  | temporal op l r => Action.both (Datum.temporal op) (denote m l) (denote m r)
  | compare op mode l r => Action.both (Datum.compareAs op mode) (denote m l) (denote m r)
  | equal _ negated l r =>
    Action.both (fun a b => a.equality b negated) (denote m l) (denote m r)
  | logic op shortCircuit l r => Action.logic op shortCircuit (denote m l) (denote m r)
  | not c => Action.map Datum.not (denote m c)
  | negate c => Action.map Datum.negate (denote m c)
  | dynamic op l r => Action.both (Action.dynamicValue m.precision op) (denote m l) (denote m r)
  | ite c y n => Action.ite (denote m c) (denote m y) (denote m n)
  | list items => Action.list (denoteList m items)
  | context entries => Action.context (denoteEntries m entries)
  | range s e si ei => Action.range (denoteOption m s) (denoteOption m e) si ei
  | between v l h => Action.between (denote m v) (denote m l) (denote m h)
  | instanceOf v target => Action.map (fun v => .boolean (target.isInstance v)) (denote m v)
  | filter s f kind => Filter.run (denote m s) (denote m f) kind
  | forIn bindings body => Iteration.collect (denoteBindings m bindings) (denote m body)
  | quantified every bindings c =>
    Iteration.quantify every (denoteBindings m bindings) (denote m c)
  | function params body type => Action.closure m params body type
  | call target args names => Action.call m (denoteTarget m target) (denoteList m args) names
  | convert v target => Action.map (·.convert target) (denote m v)
  | unaryMatch t => fun site frame => do
    let v ← denote m t (0 :: site) frame
    return Action.matchTest v frame.tested
  | listContains l v => Action.both Action.listContains (denote m l) (denote m v)
  | rangeContains r v => Action.both Action.rangeContains (denote m r) (denote m v)
  | withTestInput s b => Action.withTestInput (denote m s) (denote m b)
  | decision t => Decision.run (denoteMatrix m t)

def denoteList (m : Machine) : List Code → List Action
  | [] => []
  | c :: cs => denote m c :: denoteList m cs

def denoteEntries (m : Machine) : List (String × Code) → List (String × Action)
  | [] => []
  | (name, c) :: es => (name, denote m c) :: denoteEntries m es

def denoteOption (m : Machine) : Option Code → Option Action
  | none => none
  | some c => some (denote m c)

def denoteBindings (m : Machine) : List (Binding Code) → List (Binding Action)
  | [] => []
  | ⟨name, domain⟩ :: bs => ⟨name, denoteDomain m domain⟩ :: denoteBindings m bs

def denoteDomain (m : Machine) : Domain Code → Domain Action
  | .values c => .values (denote m c)
  | .steps f l cursor s p => .steps (denote m f) (denote m l) cursor (denote m s) (denote m p)

def denoteTarget (m : Machine) : Target Code → Target Action
  | .builtin name => .builtin name
  | .value c => .value (denote m c)

def denoteMatrix (m : Machine) : DecisionMatrix Code → DecisionMatrix Action
  | ⟨name, inputs, rules, outputs, policy, aggregation, single⟩ =>
    ⟨name, denoteList m inputs, denoteRules m rules, denoteOutputs m outputs, policy,
      aggregation, single⟩

def denoteRules (m : Machine) : List (MatrixRule Code) → List (MatrixRule Action)
  | [] => []
  | ⟨conditions, outputs⟩ :: rs =>
    ⟨denoteList m conditions, denoteList m outputs⟩ :: denoteRules m rs

def denoteOutputs (m : Machine) : List (MatrixOutput Code) → List (MatrixOutput Action)
  | [] => []
  | ⟨name, check, priorities, fallback⟩ :: os =>
    ⟨name, denoteOption m check, denoteList m priorities, denoteOption m fallback⟩ ::
      denoteOutputs m os

end

section Steps

variable (m : Machine) (op : Operator) (name : String) (w : Value) (site : Site) (frame : Frame)

/-- Arithmetic goes on from the value of a local, which may be null. -/
theorem denote_arith_local (mode : NumericMode) (nullCheck : Bool) :
    (arith op mode («local» name) (const w) nullCheck).denote m site frame =
      .ok (if nullCheck && (frame.lookup name).isNull then .null
        else (frame.lookup name).arith op w mode m.precision) := by
  show (if nullCheck && (frame.lookup name).isNull then .ok .null else .ok _ :
    Except EvalError Value) = _
  exact (apply_ite Except.ok _ _ _).symm

/-- Arithmetic of dates, times and durations goes on from the value of a local. -/
theorem denote_temporal_local :
    (temporal op («local» name) (const w)).denote m site frame =
      .ok ((frame.lookup name).temporal op w) := rfl

end Steps

end Code

/-! ### Calls -/

/-- The functions that a host provides, by the number they are registered under. -/
abbrev Natives := Nat → List Value → Value

namespace Machine

/-- The deepest nesting of calls. -/
def callLimit : Nat := 10000

/-- The frame of a closure's body: parameters without an argument are null. -/
def closureFrame (input : Value) (captured : List (String × Value)) (params : List String)
    (args : List Value) : Frame :=
  let padded := args ++ List.replicate (params.length - args.length) .null
  { Frame.ofInput input with locals := (params.zip padded).reverse ++ captured }

/-- Calls a function value, with at most `depth` calls inside each other. The body of a
closure sees what the closure captured and its own constants. -/
def invoke (natives : Natives) (precision : Nat) : (depth : Nat) → Caller
  | 0 => fun _ _ _ _ => .error (.callsTooDeep callLimit)
  | depth + 1 => fun site f args input =>
    match f with
    | .closure _ params body captured constants _ =>
      body.denote ⟨constants, precision, invoke natives precision depth⟩ site
        (closureFrame input captured params args)
    | .native id _ _ => .ok (natives id args)
    | .builtin name _ =>
      Action.callBuiltin name args precision fun f args =>
        invoke natives precision depth (0 :: site) f args input

/-- A machine over a constant pool. -/
def ofPool (natives : Natives) (constants : List Value) (precision : Nat) : Machine :=
  ⟨constants, precision, invoke natives precision callLimit⟩

end Machine

namespace Code

/-- The value of code over a constant pool in a frame. -/
def run (code : Code) (natives : Natives) (constants : List Value) (precision : Nat)
    (frame : Frame) : Except EvalError Value :=
  code.denote (.ofPool natives constants precision) [] frame

end Code

end Feel
