import Feel.Code.Fold
import Feel.Code.Json
import Feel.Eval.Denote

/-!
# Programs

A program is a tree of code with its constant pool, what is known of its result and where it
came from. A program is checked before it runs: it may refer to no constant beyond its pool
and to no built-in function that does not exist.

* `Program`: the compiled form of an expression, of unary tests or of a decision table.
* `Program.fault?`: the first fault that keeps a program from running.
* `Program.run`: the value of a program over an input.
-/

namespace Feel

/-- What a program was compiled from. -/
inductive SourceKind where
  | expression
  | unaryTest
  | decisionTable
  deriving DecidableEq, Inhabited

namespace SourceKind

def text : SourceKind → String
  | expression => "expression"
  | unaryTest => "unary test"
  | decisionTable => "decision table"

end SourceKind

/-- A program. -/
structure Program where
  /-- The name of the unit the program belongs to. -/
  unit : String
  /-- The name of its entry point. -/
  method : String
  kind : SourceKind
  source : Option String
  root : Code
  /-- The constant pool. -/
  constants : List Value
  resultType : Ty
  warnings : List String
  /-- The significant digits of quotients, where they are given. -/
  precision : Option Nat
  /-- The decision that a table makes. -/
  decision : Option String

/-- Why a program cannot run. -/
inductive ProgramFault where
  | constantOutside (index size : Nat)
  | noBuiltin (name : String)
  deriving DecidableEq

namespace ProgramFault

def message : ProgramFault → String
  | constantOutside index size =>
    "constant #" ++ toString index ++ " is outside a pool of " ++ toString size
  | noBuiltin name => "no built-in function named '" ++ name ++ "'"

end ProgramFault

namespace Program

/-- The version that programs are marked with. -/
def version : String := "0.1.0"

/-- Unit and entry point. -/
def name (p : Program) : String := p.unit ++ "." ++ p.method

/-! ### Checks -/

/-- The fault of a single form. -/
def ownFault? (size : Nat) : Code → Option ProgramFault
  | .constRef i => if size ≤ i then some (.constantOutside i size) else none
  | .call (.builtin name) _ _ =>
    if (Builtin.ofName? name).isSome then none else some (.noBuiltin name)
  | _ => none

/-- The first fault of a tree over a pool; a form comes before its parts. -/
def codeFault? (size : Nat) (c : Code) : Option ProgramFault :=
  c.fold fun c parts => (ownFault? size c).or (parts.findSome? id)

/-- The first fault of a program. -/
def fault? (p : Program) : Option ProgramFault := codeFault? p.constants.length p.root

/-! ### Runs -/

/-- The value of a program over an input and a value under test. -/
def run (p : Program) (natives : Natives) (input : Value) (test : Option Value) :
    Except EvalError Value :=
  p.root.run natives p.constants (p.precision.getD Number.defaultPrecision) ⟨input, test, []⟩

/-- Whether unary tests hold of a value; what is null or fails does not. -/
def holds (answer : Except EvalError Value) : Bool :=
  match answer with
  | .ok v => v.isBool true
  | .error _ => false

/-! ### Documents -/

/-- What is known of a program beside its code. -/
def metadataJson (p : Program) : Json :=
  let warnings := if p.warnings.isEmpty then [] else [("warnings", Json.strings p.warnings)]
  let custom :=
    ((p.decision.map fun d => ("decision", Json.string d)).toList) ++
      ((p.precision.map fun n => ("decimal_precision", Json.string (toString n))).toList)
  .object ([("unit_name", .string p.unit), ("source_type", .string p.kind.text),
    ("source", .optional (p.source.map .string))] ++ warnings ++
    [("custom", .object custom), ("compiler_version", .string version)])

/-- The document of a program. -/
def toJson (p : Program) : Json :=
  .object [("method_name", .string p.method), ("root", p.root.toJson),
    ("constants", .array (p.constants.map (·.toJson))), ("result_type", p.resultType.toJson),
    ("metadata", p.metadataJson)]

end Program

end Feel
