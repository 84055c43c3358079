import Feel.Surface.Json
import Feel.Term.Basic

/-!
# Documents of typed expressions

* `Number.toJson`: the document of a number with its representation.
* `Term.toJson`: the document of a typed expression.
-/

namespace Feel

namespace Number

/-- The document of a number, under the name of its representation. -/
def toJson : Number → Json
  | integer n => .form "Integer" (.int n.toInt)
  | long n => .form "Long" (.int n.toInt)
  | double x => .form "Double" (.double x)
  | decimal d => .form "Decimal" (.string d.text)

end Number

namespace Term

mutual

/-- The document of a typed expression. -/
def toJson : Term → Json
  | node shape type span comments warnings =>
    .object ([("kind", shapeJson shape), ("ftype", type.toJson), ("span", span.toJson)] ++
      (if comments.isEmpty then [] else [("comments", .strings comments)]) ++
      (if warnings.isEmpty then [] else [("warnings", .strings warnings)]))

def shapeJson : Shape Term → Json
  | .null => .string "Null"
  | .boolean b => .form "Boolean" (.bool b)
  | .number n => .form "Number" n.toJson
  | .string s => .form "String" (.string s)
  | .temporal v => .form "Temporal" v.toJson
  | .list items => .form "List" (.array (toJsonList items))
  | .context entries => .form "Context" (.array (toJsonEntries entries))
  | .range s e si ei =>
    .record "Range" [("start", toJson s), ("end", toJson e), ("start_inclusive", .bool si),
      ("end_inclusive", .bool ei)]
  | .binary op l r => .record "Infix" [("op", op.toJson), ("left", toJson l), ("right", toJson r)]
  | .negation x => .form "Negation" (toJson x)
  | .between v l h =>
    .record "Between" [("value", toJson v), ("low", toJson l), ("high", toJson h)]
  | .isIn v tests => .record "In" [("value", toJson v), ("tests", toJson tests)]
  | .instanceOf v target => .record "InstanceOf" [("value", toJson v), ("target", target.toJson)]
  | .ite c y n =>
    .record "If" [("condition", toJson c), ("then", toJson y), ("otherwise", toJson n)]
  | .forIn its body =>
    .record "For" [("iterators", .array (toJsonIterations its)), ("body", toJson body)]
  | .quantified every its c =>
    .record "Quantified" [("every", .bool every), ("iterators", .array (toJsonIterations its)),
      ("condition", toJson c)]
  | .filter s p kind =>
    .record "Filter" [("source", toJson s), ("filter", toJson p), ("kind", .string kind.key)]
  | .function params body =>
    .record "FunctionDefinition" [
      ("params", .array (params.map fun (name, t) => .array [.string name, t.toJson])),
      ("body", toJson body)]
  | .invocation callee args names =>
    .record "Invocation" [("callee", toJsonCallee callee), ("args", .array (toJsonList args)),
      ("names", .optional (names.map .strings))]
  | .path s member => .record "Path" [("source", toJson s), ("member", .string member)]
  | .name name origin => .record "Name" [("name", .string name), ("origin", .string origin.key)]
  | .testInput => .string "TestInput"
  | .tests negated tests =>
    .record "UnaryTests" [("negated", .bool negated), ("tests", .array (toJsonList tests))]
  | .dash => .string "Dash"
  | .comparison op v => .record "UnaryComparison" [("op", op.toJson), ("value", toJson v)]

def toJsonList : List Term → List Json
  | [] => []
  | t :: ts => toJson t :: toJsonList ts

def toJsonEntries : List (String × Term) → List Json
  | [] => []
  | (name, t) :: es => .object [("name", .string name), ("value", toJson t)] :: toJsonEntries es

def toJsonIterations : List (Iteration Term) → List Json
  | [] => []
  | ⟨name, domain⟩ :: its =>
    .object [("name", .string name), ("domain", toJson domain)] :: toJsonIterations its

def toJsonCallee : Callee Term → Json
  | .named name signature =>
    .record "Named" [("name", .string name), ("signature", signature.toJson)]
  | .value callee => .form "Value" (toJson callee)

end

end Term

end Feel
