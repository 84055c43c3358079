import Feel.Code.Basic

/-!
# Frames and failures

What code sees while it runs, and the few ways in which a run fails: most faults give null
and no failure.

* `Frame`: the input, the value under test and the locals.
* `EvalError`: the failures, and `EvalError.message` for their texts.
* `Action`: what code does in a frame.
-/

namespace Feel

/-! ### Failures -/

/-- Why an evaluation failed. -/
inductive EvalError where
  /-- Several rules match a table that allows one. -/
  | severalRules (decision : String) (rules : List Nat)
  /-- Rules of a table that has to agree give different outputs. -/
  | disagreeingRules (decision : String) (rules : List Nat)
  /-- An output of a rule is none of the allowed values. -/
  | ruleOutput (rule output : Nat)
  /-- A default output is none of the allowed values. -/
  | defaultOutput (output : Nat)
  | unknownFunction (name : String)
  | domainTooLarge (limit : Nat)
  | constantOutOfRange (index : Nat)
  /-- Calls are nested more deeply than the limit. -/
  | callsTooDeep (limit : Nat)
  /-- A slice of a list or a string does not lie within it. -/
  | sliceOutOfBounds
  deriving DecidableEq, Inhabited

namespace EvalError

/-- The text of a violated hit policy. -/
def violation (policy : HitPolicy) (decision : String) (rules : List Nat) (what : String) :
    String :=
  policy.text ++ " hit policy violated in '" ++ decision ++ "': rules " ++
    ", ".intercalate (rules.map toString) ++ what

def message : EvalError → String
  | severalRules decision rules => violation .unique decision rules " all match"
  | disagreeingRules decision rules =>
    violation .any decision rules " match with different outputs"
  | ruleOutput rule output =>
    "rule " ++ toString rule ++ " output " ++ toString output ++ " values check failed"
  | defaultOutput output => "default output " ++ toString output ++ " values check failed"
  | unknownFunction name => "Unknown function: " ++ name
  | domainTooLarge limit => "Iteration domain exceeds " ++ toString limit ++ " elements"
  | constantOutOfRange index => "Constant index out of bounds: " ++ toString index
  | callsTooDeep limit => "Runtime error: calls are nested more than " ++ toString limit ++ " deep"
  | sliceOutOfBounds => "Runtime error: slice out of bounds"

end EvalError

/-! ### Frames -/

/-- A place in a run: the turns taken to reach it, the last one first. Different steps of a
run whose values can meet are at different places. -/
abbrev Site := List Nat

/-- What code sees while it runs. -/
structure Frame where
  input : Value
  /-- The value under test. -/
  testInput : Option Value
  /-- The locals, innermost first. -/
  locals : List (String × Value)
  deriving Inhabited

namespace Frame

/-- The frame of a run over an input. -/
def ofInput (input : Value) : Frame := ⟨input, none, []⟩

/-- The innermost local with a name, null where there is none. -/
def lookup (frame : Frame) (name : String) : Value := (frame.locals.lookup name).getD .null

/-- The value under test, null where there is none. -/
def tested (frame : Frame) : Value := frame.testInput.getD .null

/-- A new innermost local. -/
def bind (frame : Frame) (name : String) (v : Value) : Frame :=
  { frame with locals := (name, v) :: frame.locals }

/-- New innermost locals, the last entry innermost. -/
def bindAll (frame : Frame) (entries : List (String × Value)) : Frame :=
  { frame with locals := entries.reverse ++ frame.locals }

/-- Another value under test. -/
def withTest (frame : Frame) (v : Value) : Frame := { frame with testInput := some v }

@[simp] theorem lookup_bind_self (frame : Frame) (name : String) (v : Value) :
    (frame.bind name v).lookup name = v := by
  simp [bind, lookup]

theorem lookup_bind_of_ne (frame : Frame) {name other : String} (v : Value)
    (h : other ≠ name) : (frame.bind name v).lookup other = frame.lookup other := by
  have h' : (other == name) = false := by simpa using h
  simp [bind, lookup, List.lookup_cons, h']

end Frame

/-! ### Actions -/

/-- What code does at a place in a run. -/
abbrev Action := Site → Frame → Except EvalError Value

namespace Action

/-- Runs actions in order. -/
def all (site : Site) (frame : Frame) : Nat → List Action → Except EvalError (List Value)
  | _, [] => .ok []
  | i, a :: as => do
    let v ← a (i :: site) frame
    let vs ← all site frame (i + 1) as
    return v :: vs

/-- Runs two actions in order and combines their values. -/
def both (f : Value → Value → Value) (left right : Action) : Action := fun site frame => do
  let l ← left (0 :: site) frame
  let r ← right (1 :: site) frame
  return f l r

/-- Runs an action and applies a function to its value. -/
def map (f : Value → Value) (a : Action) : Action := fun site frame => do
  let v ← a (0 :: site) frame
  return f v

/-- Runs an action on a value under test and asks whether it holds. -/
def holds (a : Action) (site : Site) (frame : Frame) (subject : Value) :
    Except EvalError Bool := do
  let v ← a site (frame.withTest subject)
  return v.isBool true

end Action

end Feel
