import Feel.Code.Basic
import Feel.Value.Json

/-!
# Documents of code

The JSON documents of types, operators and code. A form with parts is an object whose only
key is the name of the form; a form without parts is its name.

* `Ty.toJson`: the document of a type.
* `Code.toJson`: the document of a tree.
-/

namespace Feel

namespace Json

/-- A form with one part. -/
def form (name : String) (part : Json) : Json := .object [(name, part)]

/-- A form with named parts. -/
def record (name : String) (parts : List (String × Json)) : Json := form name (.object parts)

/-- A document that may be missing. -/
def optional : Option Json → Json
  | some j => j
  | none => .null

def strings (ss : List String) : Json := .array (ss.map .string)

end Json

/-! ### Types -/

namespace NumberKind

/-- The name of a kind in documents. -/
def key : NumberKind → String
  | integer => "Integer"
  | long => "Long"
  | double => "Double"
  | decimal => "BigDecimal"
  | number => "Number"

end NumberKind

namespace Ty

mutual

/-- The document of a type. -/
def toJson : Ty → Json
  | any => .string "Any"
  | null => .string "Null"
  | number kind => .form "Number" (.string kind.key)
  | string => .string "String"
  | boolean => .string "Boolean"
  | date => .string "Date"
  | time => .string "Time"
  | dateTime => .string "DateTime"
  | dayTimeDuration => .string "DayTimeDuration"
  | yearMonthDuration => .string "YearMonthDuration"
  | list element => .form "List" (toJson element)
  | context fields => .form "Context" (.array (fieldsJson fields))
  | range element si ei =>
    .record "Range" [("element", toJson element),
      ("start_inclusive", .optional (si.map .bool)),
      ("end_inclusive", .optional (ei.map .bool))]
  | function params names result =>
    .record "Function" [("params", .array (toJsonAll params)),
      ("names", .optional (names.map .strings)), ("ret", toJson result)]

def toJsonAll : List Ty → List Json
  | [] => []
  | t :: ts => toJson t :: toJsonAll ts

def fieldsJson : List (String × Ty) → List Json
  | [] => []
  | (name, t) :: fields => .array [.string name, toJson t] :: fieldsJson fields

end

end Ty

/-! ### Choices -/

namespace Operator

/-- The name of an operator in documents. -/
def key : Operator → String
  | add => "Add"
  | sub => "Sub"
  | mul => "Mul"
  | div => "Div"
  | pow => "Pow"
  | lt => "Lt"
  | le => "Le"
  | gt => "Gt"
  | ge => "Ge"
  | eq => "Eq"
  | ne => "Ne"
  | and => "And"
  | or => "Or"

def toJson (op : Operator) : Json := .string op.key

end Operator

def NumericMode.key : NumericMode → String
  | .native => "Native"
  | .decimal => "Decimal"

def CompareMode.key : CompareMode → String
  | .decimal => "Decimal"
  | .double => "Double"
  | .natural => "Natural"

def EqualMode.key : EqualMode → String
  | .primitive => "Primitive"
  | .numeric => "Numeric"
  | .structural => "Structural"

def FilterKind.key : FilterKind → String
  | .index => "Index"
  | .predicate => "Predicate"
  | .dynamic => "Dynamic"

/-! ### Code -/

namespace Code

mutual

/-- The document of a tree. -/
def toJson : Code → Json
  | const v => .form "Const" v.toJson
  | constRef i => .form "ConstRef" (.int i)
  | input => .string "Input"
  | testInput => .string "TestInput"
  | «local» name => .form "Local" (.string name)
  | inputField name => .form "InputField" (.string name)
  | member s name => .record "Member" [("source", toJson s), ("name", .string name)]
  | arith op mode l r nullCheck =>
    .record "Arith" [("op", op.toJson), ("mode", .string mode.key), ("left", toJson l),
      ("right", toJson r), ("null_check", .bool nullCheck)]
  | concat l r => .record "Concat" [("left", toJson l), ("right", toJson r)]
  | temporal op l r =>
    .record "Temporal" [("op", op.toJson), ("left", toJson l), ("right", toJson r)]
  | compare op mode l r =>
    .record "Compare" [("op", op.toJson), ("mode", .string mode.key), ("left", toJson l),
      ("right", toJson r)]
  | equal mode negated l r =>
    .record "Equal" [("mode", .string mode.key), ("negated", .bool negated),
      ("left", toJson l), ("right", toJson r)]
  | logic op shortCircuit l r =>
    .record "Logic" [("op", op.toJson), ("short_circuit", .bool shortCircuit),
      ("left", toJson l), ("right", toJson r)]
  | not c => .form "Not" (toJson c)
  | negate c => .form "Negate" (toJson c)
  | dynamic op l r =>
    .record "Dynamic" [("op", op.toJson), ("left", toJson l), ("right", toJson r)]
  | ite c y n =>
    .record "If" [("condition", toJson c), ("then", toJson y), ("otherwise", toJson n)]
  | list items => .form "List" (.array (toJsonList items))
  | context entries => .form "Context" (.array (toJsonEntries entries))
  | range s e si ei =>
    .record "Range" [("start", toJsonOption s), ("end", toJsonOption e),
      ("start_inclusive", .bool si), ("end_inclusive", .bool ei)]
  | between v l h =>
    .record "Between" [("value", toJson v), ("low", toJson l), ("high", toJson h)]
  | instanceOf v t => .record "InstanceOf" [("value", toJson v), ("target", t.toJson)]
  | filter s f kind =>
    .record "Filter" [("source", toJson s), ("filter", toJson f), ("kind", .string kind.key)]
  | forIn bindings body =>
    .record "For" [("iterators", .array (toJsonBindings bindings)), ("body", toJson body)]
  | quantified every bindings c =>
    .record "Quantified" [("every", .bool every),
      ("iterators", .array (toJsonBindings bindings)), ("condition", toJson c)]
  | function params body t =>
    .record "Function" [("params", .strings params), ("body", toJson body), ("ftype", t.toJson)]
  | call target args names =>
    .record "Call" [("target", toJsonTarget target), ("args", .array (toJsonList args)),
      ("names", .optional (names.map .strings))]
  | convert v t => .record "Convert" [("value", toJson v), ("target", t.toJson)]
  | unaryMatch t => .record "UnaryMatch" [("test", toJson t)]
  | listContains l v => .record "ListContains" [("list", toJson l), ("value", toJson v)]
  | rangeContains r v => .record "RangeContains" [("range", toJson r), ("value", toJson v)]
  | withTestInput s b => .record "WithTestInput" [("subject", toJson s), ("body", toJson b)]
  | decision t => .form "DecisionTable" (toJsonMatrix t)

def toJsonList : List Code → List Json
  | [] => []
  | c :: cs => toJson c :: toJsonList cs

def toJsonEntries : List (String × Code) → List Json
  | [] => []
  | (name, c) :: es => .array [.string name, toJson c] :: toJsonEntries es

def toJsonOption : Option Code → Json
  | none => .null
  | some c => toJson c

def toJsonBindings : List (Binding Code) → List Json
  | [] => []
  | ⟨name, domain⟩ :: bs =>
    .object [("name", .string name), ("domain", toJsonDomain domain)] :: toJsonBindings bs

def toJsonDomain : Domain Code → Json
  | .values c => .form "Values" (toJson c)
  | .steps f l cursor s p =>
    .record "Steps" [("first", toJson f), ("last", toJson l), ("cursor", .string cursor),
      ("successor", toJson s), ("predecessor", toJson p)]

def toJsonTarget : Target Code → Json
  | .builtin name => .form "Builtin" (.string name)
  | .value c => .form "Value" (toJson c)

def toJsonMatrix : DecisionMatrix Code → Json
  | ⟨name, inputs, rules, outputs, policy, aggregation, single⟩ =>
    .object [("name", .string name), ("inputs", .array (toJsonList inputs)),
      ("rules", .array (toJsonRules rules)), ("outputs", .array (toJsonOutputs outputs)),
      ("hit_policy", .string policy.key),
      ("aggregation", .optional (aggregation.map fun a => .string a.text)),
      ("single_output", .bool single)]

def toJsonRules : List (MatrixRule Code) → List Json
  | [] => []
  | ⟨cs, os⟩ :: rs =>
    .object [("conditions", .array (toJsonList cs)), ("outputs", .array (toJsonList os))] ::
      toJsonRules rs

def toJsonOutputs : List (MatrixOutput Code) → List Json
  | [] => []
  | ⟨name, check, ps, fallback⟩ :: os =>
    .object [("name", .optional (name.map .string)), ("check", toJsonOption check),
      ("priorities", .array (toJsonList ps)), ("default", toJsonOption fallback)] ::
      toJsonOutputs os

end

end Code

end Feel
