import Feel.Builtin.Lists
import Feel.Eval.Frame

/-!
# Decisions

Evaluation of decision tables. The inputs are evaluated once, the rules whose tests all hold
give rows of outputs, and the hit policy makes a result of the rows.

* `Decision.matching`: the rules that match.
* `Decision.rows`: their outputs, checked against the allowed values.
* `Decision.ranks`: the priorities of rows.
* `Decision.settle`: what a hit policy makes of the rows.
* `Decision.run`: evaluation of a table.
-/

namespace Feel

namespace Decision

/-- The values of one rule's outputs. -/
abbrev Row := List Value

/-- A rule that matched: its number, from one, and its row. -/
abbrev Hit := Nat × Row

/-! ### Matching -/

/-- Whether every test holds of its input. -/
def accepts (site : Site) (frame : Frame) : Nat → List Action → List Value →
    Except EvalError Bool
  | i, c :: cs, v :: vs => do
    if ← c.holds (i :: site) frame v then accepts site frame (i + 1) cs vs else return false
  | _, _, _ => .ok true

/-- The rules that match with their numbers; where one is enough, only the first. -/
def matching (site : Site) (frame : Frame) (inputs : List Value) (onlyFirst : Bool) :
    Nat → List (MatrixRule Action) → Except EvalError (List (Nat × MatrixRule Action))
  | _, [] => .ok []
  | i, rule :: rules => do
    if ← accepts (i :: site) frame 0 rule.conditions inputs then
      if onlyFirst then return [(i, rule)]
      return (i, rule) :: (← matching site frame inputs onlyFirst (i + 1) rules)
    matching site frame inputs onlyFirst (i + 1) rules

/-! ### Rows -/

/-- Whether a value is among the allowed values of its column; null always is. -/
def allowed (site : Site) (frame : Frame) (column : MatrixOutput Action) (v : Value) :
    Except EvalError Bool :=
  match column.check with
  | some check => if v.isNull then .ok true else check.holds site frame v
  | none => .ok true

/-- The checked outputs of a rule from column `j` on. -/
def row (site : Site) (frame : Frame) (rule : Nat) : Nat → List Action →
    List (MatrixOutput Action) → Except EvalError Row
  | j, a :: as, column :: columns => do
    let v ← a ((2 * j) :: site) frame
    if ← allowed ((2 * j + 1) :: site) frame column v then
      return v :: (← row site frame rule (j + 1) as columns)
    throw (.ruleOutput rule (j + 1))
  | _, _, _ => .ok []

/-- The rows of the rules that matched. -/
def rows (site : Site) (frame : Frame) (columns : List (MatrixOutput Action)) :
    List (Nat × MatrixRule Action) → Except EvalError (List Hit)
  | [] => .ok []
  | (i, rule) :: rest => do
    let r ← row (i :: site) frame i 0 rule.outputs columns
    return (i, r) :: (← rows site frame columns rest)

/-- The checked default outputs from column `j` on; a column without one gives null. -/
def defaults (site : Site) (frame : Frame) : Nat → List (MatrixOutput Action) →
    Except EvalError Row
  | _, [] => .ok []
  | j, column :: columns => do
    let v ← match column.fallback with
      | some a => a ((2 * j) :: site) frame
      | none => .ok .null
    if ← allowed ((2 * j + 1) :: site) frame column v then
      return v :: (← defaults site frame (j + 1) columns)
    throw (.defaultOutput (j + 1))

/-! ### Priorities -/

/-- The place of the first allowed value that accepts `v`; their number where none does. -/
def rank (site : Site) (frame : Frame) (v : Value) : Nat → List Action → Except EvalError Nat
  | i, [] => .ok i
  | i, a :: as => do
    if ← a.holds (i :: site) frame v then return i
    rank site frame v (i + 1) as

/-- The priority of a row: the ranks of its outputs in order. -/
def rowRank (site : Site) (frame : Frame) : Nat → List (MatrixOutput Action) → Row →
    Except EvalError (List Nat)
  | j, column :: columns, v :: vs => do
    let r ← rank (j :: site) frame v 0 column.priorities
    return r :: (← rowRank site frame (j + 1) columns vs)
  | _, _, _ => .ok []

/-- The rows with their priorities. -/
def ranks (site : Site) (frame : Frame) (columns : List (MatrixOutput Action)) :
    List Hit → Except EvalError (List (List Nat × Row))
  | [] => .ok []
  | (i, r) :: rest => do
    let rank ← rowRank (i :: site) frame 0 columns r
    return (rank, r) :: (← ranks site frame columns rest)

/-- Whether the first list of ranks comes no later, in lexicographic order. -/
def rankLe : List Nat → List Nat → Bool
  | [], _ => true
  | _ :: _, [] => false
  | a :: as, b :: bs => a < b || (a == b && rankLe as bs)

/-- The row of the best rank, the first of equals. -/
def best : List Nat × Row → List (List Nat × Row) → Row
  | b, [] => b.2
  | b, r :: rs => best (if rankLe b.1 r.1 then b else r) rs

/-! ### Results -/

/-- What the collected outputs are combined to. -/
def aggregate (aggregation : Aggregation) (vs : List Value) : Value :=
  match aggregation with
  | .count => .long (Builtin.distinct vs).length
  | .sum => Builtin.reduce .add vs
  | .min => Builtin.extreme .lt vs
  | .max => Builtin.extreme .gt vs

/-- A row as a result: the bare value, or a context with an entry for each column. -/
def shape (table : DecisionMatrix Action) (r : Row) : Value :=
  if table.singleOutput then r.headD .null
  else .context (Entries.ofList ((table.outputs.map fun o => o.name.getD "").zip r))

/-- Whether two rows are equal value by value. -/
def sameRow (a b : Row) : Bool :=
  a.length == b.length && (a.zip b).all fun (v, w) => v.equal w

/-- Whether each row equals the next. -/
def agreeing : List Row → Bool
  | a :: b :: rest => sameRow a b && agreeing (b :: rest)
  | _ => true

/-- The result where no rule matches: the defaults, or nothing. -/
def unmatched (table : DecisionMatrix Action) (site : Site) (frame : Frame) :
    Except EvalError Value := do
  let multi := table.hitPolicy.isMultiHit
  if table.outputs.any (·.fallback.isSome) then
    let r ← defaults site frame 0 table.outputs
    return if multi then
      match table.aggregation with
      | some aggregation => aggregate aggregation [r.headD .null]
      | none => .list [shape table r]
    else shape table r
  else
    return if multi then
      match table.aggregation with
      | some .count => .int 0
      | some _ => .null
      | none => .list []
    else .null

/-- The result of the rules that matched, of which there is at least one. -/
def settle (table : DecisionMatrix Action) (site : Site) (frame : Frame) (hits : List Hit) :
    Except EvalError Value :=
  let first := shape table ((hits.map (·.2)).headD [])
  match table.hitPolicy with
  | .unique =>
    if 1 < hits.length then .error (.severalRules table.name (hits.map (·.1))) else .ok first
  | .first => .ok first
  | .any =>
    if agreeing (hits.map (·.2)) then .ok first
    else .error (.disagreeingRules table.name (hits.map (·.1)))
  | .priority => do
    match ← ranks site frame table.outputs hits with
    | [] => return shape table []
    | r :: rs => return shape table (best r rs)
  | .collect =>
    match table.aggregation with
    | some aggregation => .ok (aggregate aggregation (hits.map fun h => h.2.headD .null))
    | none => .ok (.list (hits.map fun h => shape table h.2))
  | .ruleOrder => .ok (.list (hits.map fun h => shape table h.2))
  | .outputOrder => do
    let ranked ← ranks site frame table.outputs hits
    return .list ((ranked.mergeSort fun a b => rankLe a.1 b.1).map fun r => shape table r.2)

/-- Evaluates a decision table. -/
def run (table : DecisionMatrix Action) : Action := fun site frame => do
  let inputs ← Action.all (0 :: site) frame 0 table.inputs
  let rules ← matching (1 :: site) frame inputs (table.hitPolicy == .first) 1 table.rules
  if rules.isEmpty then unmatched table (2 :: site) frame
  else
    let hits ← rows (3 :: site) frame table.outputs rules
    settle table (4 :: site) frame hits

end Decision

end Feel
