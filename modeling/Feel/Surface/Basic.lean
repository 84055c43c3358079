import Feel.Operator
import Feel.Span

/-!
# Parse trees

The trees that texts are read into. Names are plain texts here, and types are left as they
are written. Every node knows the span it covers and the comments that stand before it.

* `TypeExpr`: a type as it is written.
* `Form`: the forms of expressions and unary tests, with parts of some type.
* `Surface`: the trees.
-/

namespace Feel

/-! ### Types as they are written -/

/-- A type as it is written. -/
inductive TypeExpr where
  | named (name : String)
  | list (element : TypeExpr)
  | context (fields : List (String × TypeExpr))
  | range (element : TypeExpr) (startIncluded endIncluded : Option Bool)
  | function (params : List TypeExpr) (result : TypeExpr)
  deriving Inhabited

namespace TypeExpr

/-- The bracket of a bound whose kind is given. -/
def boundText (included excluded : String) : Option Bool → String
  | some true => included
  | some false => excluded
  | none => ""

mutual

/-- The text of a type. -/
def text : TypeExpr → String
  | named name => name
  | list element => "list<" ++ text element ++ ">"
  | context fields => "context<" ++ ", ".intercalate (fieldTexts fields) ++ ">"
  | range element s e =>
    "range" ++ boundText "[" "(" s ++ boundText "]" ")" e ++ "<" ++ text element ++ ">"
  | function params result =>
    "function<" ++ ", ".intercalate (texts params) ++ ">->" ++ text result

def texts : List TypeExpr → List String
  | [] => []
  | t :: ts => text t :: texts ts

def fieldTexts : List (String × TypeExpr) → List String
  | [] => []
  | (name, t) :: fields => (name ++ ": " ++ text t) :: fieldTexts fields

end

end TypeExpr

/-! ### Forms -/

/-- The arguments of a call. -/
inductive Arguments (ε : Type) where
  | positional (args : List ε)
  | named (args : List (String × ε))

/-- A name and what it runs over; with an end, the domain is the range up to it. -/
structure Iterator (ε : Type) where
  name : String
  domain : ε
  finish : Option ε

/-- The forms of expressions and unary tests. -/
inductive Form (ε : Type) where
  | null
  | boolean (b : Bool)
  /-- A number as it is written. -/
  | number (text : String)
  | string (s : String)
  /-- The text of a date, a time, an instant or a duration. -/
  | temporal (s : String)
  | name (name : String)
  /-- The value under test. -/
  | testInput
  /-- The test that everything passes. -/
  | dash
  | list (items : List ε)
  | context (entries : List (String × ε))
  | interval (start finish : ε) (startIncluded endIncluded : Bool)
  | binary (op : Operator) (left right : ε)
  | negation (operand : ε)
  | between (value low high : ε)
  | isIn (value : ε) (tests : List ε)
  | instanceOf (value : ε) (target : TypeExpr)
  | ite (condition yes no : ε)
  | forIn (iterators : List (Iterator ε)) (body : ε)
  | quantified (every : Bool) (iterators : List (Iterator ε)) (condition : ε)
  | filter (source filter : ε)
  | function (params : List (String × Option TypeExpr)) (body : ε)
  | invocation (callee : ε) (args : Arguments ε)
  | path (source : ε) (member : String)
  /-- A comparison of the value under test. -/
  | comparison (op : Operator) (value : ε)
  | tests (negated : Bool) (tests : List ε)

/-- A parse tree. -/
inductive Surface where
  | node (form : Form Surface) (span : Span) (comments : List String)

namespace Surface

instance : Inhabited Surface := ⟨node .null default []⟩

def form : Surface → Form Surface
  | node form _ _ => form

def span : Surface → Span
  | node _ span _ => span

/-- The comments before a node. -/
def comments : Surface → List String
  | node _ _ comments => comments

/-- A node without comments. -/
def plain (form : Form Surface) (span : Span) : Surface := node form span []

/-- Puts comments in front of those that a node has. -/
def withLeading (s : Surface) (comments : List String) : Surface :=
  match s with
  | node form span own => node form span (comments ++ own)

/-- Puts comments behind those that a node has. -/
def withTrailing (s : Surface) (comments : List String) : Surface :=
  match s with
  | node form span own => node form span (own ++ comments)

end Surface

end Feel
