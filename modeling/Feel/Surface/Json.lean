import Feel.Code.Json
import Feel.Surface.Basic

/-!
# Documents of parse trees

* `Span.toJson`: the document of a span.
* `Surface.toJson`: the document of a parse tree.
-/

namespace Feel

namespace Span

def toJson (s : Span) : Json :=
  .object [("start", .int s.start), ("end", .int s.stop), ("start_line", .int s.startsAt.line),
    ("start_column", .int s.startsAt.column), ("end_line", .int s.endsAt.line),
    ("end_column", .int s.endsAt.column)]

end Span

namespace TypeExpr

mutual

/-- The document of a type as it is written. -/
def toJson : TypeExpr → Json
  | named name => .form "Named" (.string name)
  | list element => .form "List" (toJson element)
  | context fields => .form "Context" (.array (fieldsJson fields))
  | range element si ei =>
    .record "Range" [("element", toJson element),
      ("start_inclusive", .optional (si.map .bool)),
      ("end_inclusive", .optional (ei.map .bool))]
  | function params result =>
    .record "Function" [("params", .array (toJsonAll params)), ("ret", toJson result)]

def toJsonAll : List TypeExpr → List Json
  | [] => []
  | t :: ts => toJson t :: toJsonAll ts

def fieldsJson : List (String × TypeExpr) → List Json
  | [] => []
  | (name, t) :: fields => .array [.string name, toJson t] :: fieldsJson fields

end

end TypeExpr

namespace Surface

mutual

/-- The document of a parse tree. -/
def toJson : Surface → Json
  | node form span comments =>
    .object ([("kind", formJson form), ("span", span.toJson)] ++
      if comments.isEmpty then [] else [("comments", .strings comments)])

def formJson : Form Surface → Json
  | .null => .string "Null"
  | .boolean b => .form "Boolean" (.bool b)
  | .number text => .form "Number" (.string text)
  | .string s => .form "String" (.string s)
  | .temporal s => .form "Temporal" (.string s)
  | .name name => .form "Name" (.string name)
  | .testInput => .string "TestInput"
  | .dash => .string "Dash"
  | .list items => .form "List" (.array (toJsonList items))
  | .context entries => .form "Context" (.array (toJsonEntries entries))
  | .interval start finish si ei =>
    .record "Interval" [("start", toJson start), ("end", toJson finish),
      ("start_inclusive", .bool si), ("end_inclusive", .bool ei)]
  | .binary op l r =>
    .record "Binary" [("op", op.toJson), ("left", toJson l), ("right", toJson r)]
  | .negation x => .form "Negation" (toJson x)
  | .between v l h =>
    .record "Between" [("value", toJson v), ("low", toJson l), ("high", toJson h)]
  | .isIn v tests => .record "In" [("value", toJson v), ("tests", .array (toJsonList tests))]
  | .instanceOf v target => .record "InstanceOf" [("value", toJson v), ("target", target.toJson)]
  | .ite c y n =>
    .record "If" [("condition", toJson c), ("then", toJson y), ("otherwise", toJson n)]
  | .forIn iterators body =>
    .record "For" [("iterators", .array (toJsonIterators iterators)), ("body", toJson body)]
  | .quantified every iterators c =>
    .record "Quantified" [("every", .bool every),
      ("iterators", .array (toJsonIterators iterators)), ("condition", toJson c)]
  | .filter s f => .record "Filter" [("source", toJson s), ("filter", toJson f)]
  | .function params body =>
    .record "FunctionDefinition" [
      ("params", .array (params.map fun (name, t) =>
        .array [.string name, .optional (t.map TypeExpr.toJson)])),
      ("body", toJson body)]
  | .invocation callee args =>
    .record "Invocation" [("callee", toJson callee), ("args", toJsonArguments args)]
  | .path s member => .record "Path" [("source", toJson s), ("member", .string member)]
  | .comparison op v => .record "UnaryComparison" [("op", op.toJson), ("value", toJson v)]
  | .tests negated tests =>
    .record "UnaryTests" [("negated", .bool negated), ("tests", .array (toJsonList tests))]

def toJsonList : List Surface → List Json
  | [] => []
  | s :: ss => toJson s :: toJsonList ss

def toJsonEntries : List (String × Surface) → List Json
  | [] => []
  | (name, s) :: es => .array [.string name, toJson s] :: toJsonEntries es

def toJsonOption : Option Surface → Json
  | none => .null
  | some s => toJson s

def toJsonIterators : List (Iterator Surface) → List Json
  | [] => []
  | ⟨name, domain, finish⟩ :: its =>
    .object [("name", .string name), ("domain", toJson domain), ("end", toJsonOption finish)] ::
      toJsonIterators its

def toJsonArguments : Arguments Surface → Json
  | .positional args => .form "Positional" (.array (toJsonList args))
  | .named args => .form "Named" (.array (toJsonEntries args))

end

end Surface

end Feel
