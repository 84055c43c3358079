import Feel.Engine.Cache
import Feel.Engine.Key
import Feel.Program.Compile

/-!
# Engines

An engine compiles what it is asked to and keeps the programs. Two requests with one key share
a program.

* `Config`: how an engine compiles and what it keeps.
* `Request`: what is to be compiled, against which types.
* `Engine.compile`: the program of a request, and the engine after it.
* `Engine.evaluate`: the value of an expression over an input.
-/

namespace Feel

/-! ### Configuration -/

/-- How an engine compiles and what it keeps. -/
structure Config where
  options : Options := {}
  /-- Whether programs are kept. -/
  caching : Bool := true
  /-- Keys of more bytes than this are replaced by their digest. -/
  hashThreshold : Nat := 64
  deriving DecidableEq, Inhabited

/-! ### Errors -/

/-- Why an engine has no program for a request. -/
inductive EngineError where
  /-- Quotients without any digits. -/
  | noPrecision
  | parse (e : ParseError)
  | compile (e : CompileError)
  | definition (e : DefinitionError)
  /-- The program of a unit cannot run. -/
  | rejected (unit : String) (fault : ProgramFault)
  /-- What is kept for a key is of another kind. -/
  | noEntryPoint (key : String)

namespace EngineError

def message : EngineError → String
  | noPrecision => "Configuration error: decimal precision must be at least 1"
  | parse e => "Parser error: " ++ e.message
  | compile e => "Compiler error: " ++ e.message
  | definition e => "Invalid decision table: " ++ e.message
  | rejected unit fault =>
    "Compilation service error: Failed to compile unit '" ++ unit ++ "': " ++ fault.message
  | noEntryPoint key => "Unit '" ++ key ++ "' has no loadable entry point"

/-- Faults of texts and definitions are told apart from those of their meaning. -/
def ofCompileError : CompileError → EngineError
  | .parse e => parse e
  | .definition e => definition e
  | e => compile e

end EngineError

/-! ### Requests -/

/-- What is to be compiled, against which types. -/
inductive Request where
  | expression (text : String) (inputType : Ty)
  | tests (text : String) (testType inputType : Ty)
  | table (definition : Definition) (inputType : Ty)

namespace Request

def kind : Request → SourceKind
  | expression _ _ => .expression
  | tests _ _ _ => .unaryTest
  | table _ _ => .decisionTable

/-- What tells requests of one kind apart. -/
def parts : Request → List String
  | expression text inputType => [Key.normalize text, inputType.text]
  | tests text testType inputType => [Key.normalize text, testType.text, inputType.text]
  | table definition inputType => [definition.toJson.text, inputType.text]

/-- The key of a request. -/
def key (r : Request) (threshold : Nat) : String := Key.ofParts r.kind.text r.parts threshold

/-- The program of a request in a scope. -/
def program (r : Request) (entry : EntryPoint) (scope : Scope) : Except CompileError Program :=
  match r with
  | expression text inputType =>
    Program.ofExpression entry { scope with inputType := inputType } text
  | tests text testType inputType =>
    Program.ofTests entry { scope with inputType := inputType, testType := some testType } text
  | table definition inputType =>
    Program.ofTable entry { scope with inputType := inputType } definition

/-- The program of a request, under the name that its key gives it. -/
def load (r : Request) (key : String) (scope : Scope) : Except EngineError Program := do
  let unit := Key.unitName key
  let p ← (r.program { unit := unit } scope).mapError EngineError.ofCompileError
  match p.fault? with
  | some fault => throw (.rejected unit fault)
  | none => return p

end Request

/-! ### Engines -/

/-- An engine. -/
structure Engine where
  config : Config
  /-- The types and functions that all requests see. -/
  scope : Scope
  natives : Natives
  cache : Cache Program := {}
  /-- How often something was compiled. -/
  compilations : Nat := 0

/-- Why an expression has no value. -/
inductive Failure where
  | engine (e : EngineError)
  | run (e : EvalError)

namespace Failure

def message : Failure → String
  | engine e => e.message
  | run e => e.message

end Failure

namespace Engine

/-- An engine with types and functions of a host; the built-in functions come last. -/
def build (config : Config) (types : List (String × Ty)) (libraries : Libraries)
    (natives : Natives) : Except EngineError Engine :=
  if config.options.precision = 0 then .error .noPrecision
  else .ok {
    config := config
    scope := { options := config.options, types := types, libraries := libraries ++ [.builtins] }
    natives := natives }

/-- What is kept for a key, or what is compiled for it now. -/
def fetch (e : Engine) (key : String) (make : Unit → Except EngineError Program) :
    Fetched EngineError Program :=
  if e.config.caching then e.cache.fetch key make else ⟨make (), e.cache, true⟩

/-- A program of the kind that a request asks for. -/
def ofKind (kind : SourceKind) (key : String) (p : Program) : Except EngineError Program :=
  if p.kind = kind then .ok p else .error (.noEntryPoint key)

/-- The program of a request, and the engine after it. -/
def compile (e : Engine) (r : Request) : Except EngineError Program × Engine :=
  let key := r.key e.config.hashThreshold
  let fetched := e.fetch key fun _ => r.load key e.scope
  let compilations := if fetched.made then e.compilations + 1 else e.compilations
  (fetched.result.bind (ofKind r.kind key),
    { e with cache := fetched.cache, compilations := compilations })

/-- The value of a program. -/
def run (e : Engine) (p : Program) (input : Value) (test : Option Value) :
    Except EvalError Value :=
  p.run e.natives input test

/-- The value of an expression over an input that it is typed after. -/
def evaluate (e : Engine) (text : String) (input : Value) : Except Failure Value × Engine :=
  let (program, e) := e.compile (.expression text input.type)
  (do
    let p ← program.mapError Failure.engine
    (e.run p input none).mapError Failure.run, e)

/-- Forgets all programs. -/
def clear (e : Engine) : Engine := { e with cache := {} }

end Engine

end Feel
