/-!
# Hit policies

What a decision table does with the rules that match: take one, check that they agree, or
return them all in some order. A table that collects may aggregate what it collected.
-/

namespace Feel

/-- What a table does with the rules that match. -/
inductive HitPolicy where
  | unique
  | first
  | priority
  | any
  | collect
  | ruleOrder
  | outputOrder
  deriving DecidableEq, Inhabited

namespace HitPolicy

/-- The result is a list of every matching rule's outputs. -/
def isMultiHit : HitPolicy → Bool
  | collect | ruleOrder | outputOrder => true
  | _ => false

/-- The name of a policy in messages. -/
def text : HitPolicy → String
  | unique => "UNIQUE"
  | first => "FIRST"
  | priority => "PRIORITY"
  | any => "ANY"
  | collect => "COLLECT"
  | ruleOrder => "RULE ORDER"
  | outputOrder => "OUTPUT ORDER"

/-- The name of a policy in documents. -/
def key : HitPolicy → String
  | ruleOrder => "RULE_ORDER"
  | outputOrder => "OUTPUT_ORDER"
  | p => p.text

def all : List HitPolicy := [unique, first, priority, any, collect, ruleOrder, outputOrder]

/-- The policy with a given name in documents. -/
def ofKey? (s : String) : Option HitPolicy := all.find? (·.key == s)

theorem ofKey?_key (p : HitPolicy) : ofKey? p.key = some p := by cases p <;> decide

end HitPolicy

/-- How the outputs of a collecting table are combined. -/
inductive Aggregation where
  | sum
  | min
  | max
  | count
  deriving DecidableEq, Inhabited

namespace Aggregation

/-- The name of an aggregation. -/
def text : Aggregation → String
  | sum => "SUM"
  | min => "MIN"
  | max => "MAX"
  | count => "COUNT"

def all : List Aggregation := [sum, min, max, count]

/-- The aggregation with a given name. -/
def ofKey? (s : String) : Option Aggregation := all.find? (·.text == s)

theorem ofKey?_text (a : Aggregation) : ofKey? a.text = some a := by cases a <;> decide

end Aggregation

end Feel
