import Feel.Fragment.OfTerm
import Feel.Surface.Parser
import Feel.Term.OfSurface

/-!
# From texts to fragments

* `Fragment.ofExpression`: the fragment of the text of an expression.
* `Fragment.ofTests`: the fragment of the text of unary tests.
-/

namespace Feel

namespace Fragment

/-- The outcome of parsing as a step. -/
def parsed (tree : Except ParseError Surface) : Lowering Surface :=
  liftM (tree.mapError CompileError.parse)

/-- The fragment of a term, with its warnings added. -/
def ofWarnedTerm (term : Term) : Lower := fun scope => do
  Lowering.warn term.warnings
  ofTerm term scope

/-- The fragment of the text of an expression. -/
def ofExpression (source : String) : Lower := fun scope => do
  let tree ← parsed (Surface.parseExpression source scope.knownNames)
  let term ← liftM (Term.ofSurface source tree scope)
  ofWarnedTerm term scope

/-- The parse tree of the text of unary tests. -/
def testsTree (source : String) (scope : Scope) : Lowering Surface :=
  parsed (Surface.parseTests source scope.knownNames)

/-- The fragment of unary tests that were read from a text. -/
def ofTestsTree (source : String) (tree : Surface) : Lower := fun scope => do
  let term ← liftM (Term.ofTests source tree scope)
  ofWarnedTerm term scope

/-- The fragment of the text of unary tests. -/
def ofTestsText (source : String) : Lower := fun scope => do
  let tree ← testsTree source scope
  ofTestsTree source tree scope

end Fragment

end Feel
