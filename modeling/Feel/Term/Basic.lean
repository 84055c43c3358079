import Feel.Scope
import Feel.Span

/-!
# Typed expressions

Expressions whose names are resolved and whose parts all have a type. Every node knows the
span it covers, the comments before it and what its author should be warned of.

* `Shape`: the forms of typed expressions, with parts of some type.
* `Term`: the trees.
-/

namespace Feel

/-- A name and what it runs over. -/
structure Iteration (ε : Type) where
  name : String
  domain : ε

/-- What is called. -/
inductive Callee (ε : Type) where
  /-- A function of a library at a type that its arguments fit. -/
  | named (name : String) (signature : Ty)
  | value (callee : ε)

/-- The forms of typed expressions. -/
inductive Shape (ε : Type) where
  | null
  | boolean (b : Bool)
  | number (n : Number)
  | string (s : String)
  | temporal (v : Value)
  | list (items : List ε)
  | context (entries : List (String × ε))
  | range (start finish : ε) (startIncluded endIncluded : Bool)
  | binary (op : Operator) (left right : ε)
  | negation (operand : ε)
  | between (value low high : ε)
  | isIn (value tests : ε)
  | instanceOf (value : ε) (target : Ty)
  | ite (condition yes no : ε)
  | forIn (iterations : List (Iteration ε)) (body : ε)
  | quantified (every : Bool) (iterations : List (Iteration ε)) (condition : ε)
  | filter (source filter : ε) (kind : FilterKind)
  | function (params : List (String × Ty)) (body : ε)
  /-- A call; names are kept where only the run can match them with parameters. -/
  | invocation (callee : Callee ε) (args : List ε) (names : Option (List String))
  | path (source : ε) (member : String)
  | name (name : String) (origin : Origin)
  /-- The value under test. -/
  | testInput
  | tests (negated : Bool) (tests : List ε)
  /-- The test that everything passes. -/
  | dash
  /-- A comparison of the value under test. -/
  | comparison (op : Operator) (value : ε)

/-- A typed expression. -/
inductive Term where
  | node (shape : Shape Term) (type : Ty) (span : Span) (comments warnings : List String)

namespace Term

/-- A node without comments and warnings. -/
def plain (shape : Shape Term) (type : Ty) (span : Span) : Term := node shape type span [] []

instance : Inhabited Term := ⟨plain .null .null default⟩

def shape : Term → Shape Term
  | node shape _ _ _ _ => shape

def type : Term → Ty
  | node _ type _ _ _ => type

def span : Term → Span
  | node _ _ span _ _ => span

/-- Comments behind those that a node has. -/
def withComments (t : Term) (more : List String) : Term :=
  match t with
  | node shape type span comments warnings => node shape type span (comments ++ more) warnings

/-- A warning behind those that a node has, where there is one. -/
def withWarning (t : Term) (more : Option String) : Term :=
  match t with
  | node shape type span comments warnings =>
    node shape type span comments (warnings ++ more.toList)

/-- A range with both bounds. -/
def rangeNode (start finish : Term) (startIncluded endIncluded : Bool) (span : Span) : Term :=
  plain (.range start finish startIncluded endIncluded)
    (.range (start.type.join finish.type) (some startIncluded) (some endIncluded)) span

/-- Whether a term is a literal of a single value. -/
def isLiteral (t : Term) : Bool :=
  match t.shape with
  | .null | .boolean _ | .number _ | .string _ | .temporal _ => true
  | _ => false

/-! ### Folds -/

mutual

/-- Combines the results for the direct parts of a term, in source order. -/
def fold {α : Type} (f : Term → List α → α) : Term → α
  | node shape type span comments warnings =>
    f (node shape type span comments warnings) (foldShape f shape)

def foldShape {α : Type} (f : Term → List α → α) : Shape Term → List α
  | .null | .boolean _ | .number _ | .string _ | .temporal _ | .name _ _ | .testInput
  | .dash => []
  | .list items => foldList f items
  | .context entries => foldEntries f entries
  | .range s e _ _ => [fold f s, fold f e]
  | .binary _ l r => [fold f l, fold f r]
  | .negation x => [fold f x]
  | .between v l h => [fold f v, fold f l, fold f h]
  | .isIn v tests => [fold f v, fold f tests]
  | .instanceOf v _ => [fold f v]
  | .ite c y n => [fold f c, fold f y, fold f n]
  | .forIn its body => foldIterations f its ++ [fold f body]
  | .quantified _ its c => foldIterations f its ++ [fold f c]
  | .filter s p _ => [fold f s, fold f p]
  | .function _ body => [fold f body]
  | .invocation callee args _ => foldCallee f callee ++ foldList f args
  | .path s _ => [fold f s]
  | .tests _ tests => foldList f tests
  | .comparison _ v => [fold f v]

def foldList {α : Type} (f : Term → List α → α) : List Term → List α
  | [] => []
  | t :: ts => fold f t :: foldList f ts

def foldEntries {α : Type} (f : Term → List α → α) : List (String × Term) → List α
  | [] => []
  | (_, t) :: es => fold f t :: foldEntries f es

def foldIterations {α : Type} (f : Term → List α → α) : List (Iteration Term) → List α
  | [] => []
  | ⟨_, domain⟩ :: its => fold f domain :: foldIterations f its

def foldCallee {α : Type} (f : Term → List α → α) : Callee Term → List α
  | .named _ _ => []
  | .value callee => [fold f callee]

end

/-- Whether a node is the value under test. -/
def isTestInput (t : Term) : Bool :=
  match t.shape with
  | .testInput => true
  | _ => false

/-- Whether a term mentions the value under test. -/
def usesTest (t : Term) : Bool := t.fold fun t parts => t.isTestInput || parts.any id

/-- The warnings of a single node. -/
def ownWarnings : Term → List String
  | node _ _ _ _ warnings => warnings

/-- The warnings of a term; those of a node come before those of its parts. -/
def warnings (t : Term) : List String := t.fold fun t parts => t.ownWarnings ++ parts.flatten

end Term

end Feel
