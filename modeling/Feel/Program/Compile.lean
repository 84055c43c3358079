import Feel.Code.Simplify
import Feel.Fragment.OfTable
import Feel.Program.Basic

/-!
# Compilation

The programs of expressions, unary tests and decision tables.

* `EntryPoint`: the names a program goes by.
* `Program.ofExpression`, `Program.ofTests`, `Program.ofTable`: the program of a text or a
  definition in a scope.
-/

namespace Feel

/-- The names a program goes by. -/
structure EntryPoint where
  unit : String := "FeelUnit"
  method : String := "evaluate"
  deriving DecidableEq, Inhabited

namespace Program

/-- The program of a fragment over what was gathered for it. -/
def ofFragment (entry : EntryPoint) (kind : SourceKind) (source : String)
    (decision : Option String) (options : Options) (fragment : Fragment) (draft : Draft) :
    Program where
  unit := entry.unit
  method := entry.method
  kind := kind
  source := some source
  root := if options.folding then fragment.code.simplify draft.constants options.precision
    else fragment.code
  constants := draft.constants
  resultType := fragment.type
  warnings := draft.warnings
  precision := some options.precision
  decision := decision

/-- The program of the text of an expression. -/
def ofExpression (entry : EntryPoint) (scope : Scope) (source : String) :
    Except CompileError Program := do
  let (fragment, draft) ← (Fragment.ofExpression source scope).run {}
  return ofFragment entry .expression source none scope.options fragment draft

/-- The scope of unary tests: a value under test of unknown type may be anything. -/
def testScope (scope : Scope) : Scope := scope.withTest (scope.testType.getD .any)

/-- The program of the text of unary tests. -/
def ofTests (entry : EntryPoint) (scope : Scope) (source : String) :
    Except CompileError Program := do
  let (fragment, draft) ← (Fragment.ofTestsText source (testScope scope)).run {}
  return ofFragment entry .unaryTest source none scope.options fragment draft

/-- The program of a decision table. -/
def ofTable (entry : EntryPoint) (scope : Scope) (d : Definition) :
    Except CompileError Program := do
  (d.validate).mapError CompileError.definition
  let (fragment, draft) ← (Fragment.ofTable d scope).run {}
  return ofFragment entry .decisionTable d.toJson.text (some d.name) scope.options fragment draft

end Program

end Feel
