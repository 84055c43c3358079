/-!
# Infix operators

The thirteen infix operators and the three families they fall into: arithmetic,
comparison and logic.
-/

namespace Feel

/-- An infix operator. -/
inductive Operator where
  | add
  | sub
  | mul
  | div
  | pow
  | lt
  | le
  | gt
  | ge
  | eq
  | ne
  | and
  | or
  deriving DecidableEq, Inhabited

namespace Operator

/-- Every operator once. -/
def all : List Operator := [add, sub, mul, div, pow, lt, le, gt, ge, eq, ne, and, or]

/-- The way the operator is written. -/
def symbol : Operator → String
  | add => "+"
  | sub => "-"
  | mul => "*"
  | div => "/"
  | pow => "**"
  | lt => "<"
  | le => "<="
  | gt => ">"
  | ge => ">="
  | eq => "="
  | ne => "!="
  | and => "and"
  | or => "or"

/-- The sum, the difference, the product, the quotient and the power. -/
def isArithmetic : Operator → Bool
  | add | sub | mul | div | pow => true
  | _ => false

/-- The four comparisons that need an order. -/
def isOrdering : Operator → Bool
  | lt | le | gt | ge => true
  | _ => false

/-- Equality and its negation. -/
def isEquality : Operator → Bool
  | eq | ne => true
  | _ => false

/-- Conjunction and disjunction. -/
def isLogic : Operator → Bool
  | and | or => true
  | _ => false

/-- Whether an ordering of the operands satisfies the comparison. What is no comparison
asks for equality. -/
def holds : Operator → Ordering → Bool
  | lt, o => o.isLT
  | le, o => o.isLE
  | gt, o => o.isGT
  | ge, o => o.isGE
  | ne, o => o.isNe
  | _, o => o.isEq

theorem mem_all (o : Operator) : o ∈ all := by cases o <;> decide

/-- The families cover the operators. -/
theorem family (o : Operator) :
    o.isArithmetic || o.isOrdering || o.isEquality || o.isLogic := by
  cases o <;> rfl

end Operator

end Feel
