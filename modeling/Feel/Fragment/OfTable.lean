import Feel.Fragment.OfText
import Feel.Text.Characters

/-!
# From decision tables to fragments

Input expressions, cells and outputs of a table are lowered one after the other into one
draft. The cells of a column are tests of the value of its expression. The allowed values of
an output are lowered twice: as a whole, which is the check, and test by test, which gives the
order of priority.

* `Fragment.InputColumn`: a lowered input column.
* `Fragment.ofTable`: the fragment of a definition.
-/

namespace Feel

namespace Fragment

/-! ### Columns -/

/-- A lowered input column. -/
structure InputColumn where
  code : Code
  type : Ty
  /-- The test of the allowed values. -/
  allowed : Option Code

/-- The code of unary tests of a value of some type. -/
def testsOn (subject : Ty) (source : String) (scope : Scope) : Lowering Code := do
  return (← ofTestsText source (scope.withTest subject)).code

def inputColumn (scope : Scope) (clause : InputClause) : Lowering InputColumn := do
  let input ← ofExpression clause.expression scope
  let allowed ← clause.allowedValues.mapM (testsOn input.type · scope)
  return ⟨input.code, input.type, allowed⟩

/-- The tests of an allowed-values list one by one. A negated list and the test that
everything passes have none. -/
def priorities (source : String) (scope : Scope) : Lowering (List Code) := do
  let tree ← testsTree source scope
  match tree.form with
  | .tests false tests =>
    tests.mapM fun test => do
      let single := Surface.plain (.tests false [test]) test.span
      return (← ofTestsTree source single (scope.withTest .any)).code
  | _ => return []

def outputColumn (scope : Scope) (clause : OutputClause) : Lowering (MatrixOutput Code) := do
  let check ← clause.allowedValues.mapM (testsOn .any · scope)
  let priorities ← match clause.allowedValues with
    | some allowed => priorities allowed scope
    | none => pure []
  let fallback ← clause.defaultEntry.mapM fun entry => do
    return (← ofExpression entry scope).code
  return ⟨clause.name, check, priorities, fallback⟩

/-! ### Rules -/

/-- The code of a cell. A lone dash stands for the allowed values of its column. -/
def cell (scope : Scope) (column : InputColumn) (entry : String) : Lowering Code :=
  match Text.trim entry == "-", column.allowed with
  | true, some allowed => return allowed
  | _, _ => testsOn column.type entry scope

/-- The code of a rule, and the types of its outputs. -/
def rule (scope : Scope) (columns : List InputColumn) (r : RuleDefinition) :
    Lowering (MatrixRule Code × List Ty) := do
  let conditions ← (columns.zip r.inputEntries).mapM fun (column, entry) =>
    cell scope column entry
  let outputs ← r.outputEntries.mapM fun entry => ofExpression entry scope
  return (⟨conditions, outputs.map (·.code)⟩, outputs.map (·.type))

/-! ### Tables -/

/-- The types of the output columns, from those of the outputs of each rule. -/
def columnTypes (columns : Nat) (rows : List (List Ty)) : List Ty :=
  (List.range columns).map fun j => Ty.joinAll (rows.filterMap (·[j]?))

/-- The type of the outputs of one rule. -/
def rowType (d : Definition) (columns : List Ty) : Ty :=
  if d.singleUnnamed then columns.headD .any
  else .context ((d.outputs.map fun clause => clause.name.getD "").zip columns)

/-- The type of the result of a table. -/
def tableType (d : Definition) (columns : List Ty) : Ty :=
  let row := rowType d columns
  if !d.hitPolicy.isMultiHit then row
  else
    match d.aggregation with
    | some .count => .number .integer
    | some .sum => .number .number
    | some .min | some .max => row
    | none => .list row

/-- The fragment of a definition. -/
def ofTable (d : Definition) : Lower := fun scope => do
  let columns ← d.inputs.mapM (inputColumn scope)
  let rules ← d.rules.mapM (rule scope columns)
  let outputs ← d.outputs.mapM (outputColumn scope)
  let table : DecisionMatrix Code := {
    name := d.name
    inputs := columns.map (·.code)
    rules := rules.map (·.1)
    outputs := outputs
    hitPolicy := d.hitPolicy
    aggregation := d.aggregation
    singleOutput := d.singleUnnamed }
  return .computed (.decision table)
    (tableType d (columnTypes d.outputs.length (rules.map (·.2))))

end Fragment

end Feel
