import Feel.Fragment.Calls
import Feel.Fragment.Operators
import Feel.Term.Basic

/-!
# From typed expressions to fragments

Every form of a typed expression has code of its own. Where folding is wanted, a form whose
parts are all known is its value.

* `Lower`: how a part is lowered in a scope.
* `Fragment.ofTerm`: the fragment of a term in a scope.
-/

namespace Feel

/-- How a part is lowered in a scope. -/
abbrev Lower := Scope → Lowering Fragment

/-- A unary test as it is lowered. -/
structure TestPart where
  /-- Whether the test speaks of the value under test by itself. -/
  isComplete : Bool
  span : Span
  lower : Lower

/-- The bounds of a range as they are lowered. -/
structure BoundParts where
  start : Lower
  finish : Lower
  startIncluded : Bool
  endIncluded : Bool

/-- What a binding runs over, as it is lowered. -/
structure DomainPart where
  name : String
  element : Ty
  /-- The bounds of a domain that is written as a range. -/
  bounds : Option BoundParts
  whole : Lower

/-- What is called, as it is lowered. -/
inductive CalleePart where
  | named (name : String) (signature : Ty)
  | value (callee : Lower)

namespace Lower

/-- Lowers parts in order. -/
def all (scope : Scope) : List Lower → Lowering (List Fragment)
  | [] => return []
  | l :: ls => do
    let f ← l scope
    return f :: (← all scope ls)

/-! ### Structures -/

def list (items : List Lower) (type : Ty) : Lower := fun scope => do
  let items ← all scope items
  match Fragment.values? scope.options items with
  | some vs => Fragment.ofConstant (.list vs) type
  | none => return (Fragment.computed (.list (items.map (·.code))) type).nonNull

def context (entries : List (String × Lower)) (type : Ty) : Lower := fun scope => do
  let names := entries.map (·.1)
  let parts ← all scope (entries.map (·.2))
  match Fragment.values? scope.options parts with
  | some vs => Fragment.ofConstant (.context (Entries.ofList (names.zip vs))) type
  | none => return (Fragment.computed (.context (names.zip (parts.map (·.code)))) type).nonNull

def range (start finish : Lower) (si ei : Bool) (type : Ty) : Lower := fun scope => do
  let start ← start scope
  let finish ← finish scope
  match Fragment.operands? scope.options start finish with
  | some (a, b) => Fragment.ofConstant (.range (some a) (some b) si ei) type
  | none =>
    return (Fragment.computed (.range (some start.code) (some finish.code) si ei) type).nonNull

/-! ### Operators -/

def binary (op : Operator) (left right : Lower) (span : Span) : Lower := fun scope => do
  let left ← left scope
  let right ← right scope
  Fragment.binary scope.options span op left right

def negation (operand : Lower) (type : Ty) : Lower := fun scope => do
  let operand ← operand scope
  match operand.value? scope.options with
  | some v => Fragment.ofConstant v.negate type
  | none =>
    return (Fragment.computed (.negate operand.code) type).withNullable operand.nullable

def between (value low high : Lower) : Lower := fun scope => do
  let value ← value scope
  let low ← low scope
  let high ← high scope
  return .computed (.between value.code low.code high.code) .boolean

def isIn (value tests : Lower) : Lower := fun scope => do
  let value ← value scope
  let tests ← tests (scope.withTest value.type)
  return .computed (.withTestInput value.code tests.code) .boolean

def instanceOf (value : Lower) (target : Ty) : Lower := fun scope => do
  let value ← value scope
  match value.value? scope.options with
  | some v => Fragment.ofValue (.boolean (target.isInstance v))
  | none => return (Fragment.computed (.instanceOf value.code target) .boolean).nonNull

/-! ### Control -/

/-- A conditional; of one whose condition is known only the branch that is taken is left. -/
def ite (condition yes no : Lower) (type : Ty) : Lower := fun scope => do
  let condition ← condition scope
  let yes ← yes scope
  let no ← no scope
  match condition.value? scope.options with
  | some v => return { (if v.isBool true then yes else no) with type := type }
  | none =>
    return (Fragment.computed (.ite condition.code yes.code no.code) type).withNullable
      (yes.nullable || no.nullable)

/-- The number of nanoseconds in a day. -/
def dayNanos : Int := 86400 * 1000000000

/-- The value next to the one in a cursor, `offset` steps away. -/
def stepCode (element : Ty) (cursor : String) (offset : Int) : Code :=
  match element with
  | .number _ =>
    .arith .add (if Fragment.isExact element then .decimal else .native) (.local cursor)
      (.const (.int offset)) false
  | _ => .temporal .add (.local cursor) (.const (.dayTimeDuration (offset * dayNanos)))

/-- The types whose values can be stepped through. -/
def hasSteps (element : Ty) : Bool := element.isNumber || element == .date

/-- The domain of a binding: steps through a closed range where its values have steps, and
the elements of the whole otherwise. -/
def domain (part : DomainPart) (scope : Scope) : Lowering (Domain Code) := do
  let values : Lowering (Domain Code) := do
    return .values (← part.whole scope).code
  match part.bounds with
  | none => values
  | some bounds =>
    let start ← bounds.start scope
    let finish ← bounds.finish scope
    if bounds.startIncluded && bounds.endIncluded && hasSteps part.element then
      let cursor ← Lowering.fresh "cursor"
      return .steps start.code finish.code cursor (stepCode part.element cursor 1)
        (stepCode part.element cursor (-1))
    else values

def bindings (scope : Scope) : List DomainPart → Lowering (List (Binding Code))
  | [] => return []
  | part :: parts => do
    let domain ← domain part scope
    return ⟨part.name, domain⟩ :: (← bindings scope parts)

def forIn (parts : List DomainPart) (body : Lower) (type : Ty) : Lower := fun scope => do
  let bindings ← bindings scope parts
  let body ← body scope
  return (Fragment.computed (.forIn bindings body.code) type).nonNull

def quantified (every : Bool) (parts : List DomainPart) (condition : Lower) : Lower :=
  fun scope => do
    let bindings ← bindings scope parts
    let condition ← condition scope
    return .computed (.quantified every bindings condition.code) .boolean

def filter (source filter : Lower) (kind : FilterKind) (type : Ty) : Lower := fun scope => do
  let source ← source scope
  let filter ← filter scope
  return .computed (.filter source.code filter.code kind) type

def path (source : Lower) (member : String) (span : Span) : Lower := fun scope => do
  let source ← source scope
  match source.type.member? member with
  | some type => return .computed (.member source.code member) type
  | none => throw (.unresolved member span)

/-! ### Functions and names -/

def function (params : List (String × Ty)) (body : Lower) (type : Ty) : Lower := fun scope => do
  let body ← body scope
  return (Fragment.computed (.function (params.map (·.1)) body.code type) type).nonNull

/-- A call. What a library leaves open has the type that was found for the call. -/
def invocation (callee : CalleePart) (args : List Lower) (names : Option (List String))
    (type : Ty) (span : Span) : Lower := fun scope => do
  let args ← all scope args
  match callee with
  | .named name signature =>
    match scope.libraries.lower? name (Fragment.convertAll args signature) with
    | none => throw (.typing (.noLibrary name) span [])
    | some lowered =>
      let f ← lowered
      return if f.type.isAny then { f with type := type } else f
  | .value callee =>
    let callee ← callee scope
    return .computed (.call (.value callee.code) (args.map (·.code)) names) type

def name (name : String) (origin : Origin) (type : Ty) (span : Span) : Lower := fun scope =>
  match origin with
  | .bound => return .computed (.local name) type
  | .input | .dynamic => return .computed (.inputField name) type
  | .function =>
    match scope.libraries.value? name with
    | none => throw (.unresolved name span)
    | some f => do
      let i ← Lowering.intern (.function f)
      return (Fragment.computed (.constRef i) type).nonNull

/-! ### Unary tests -/

/-- The type of the value under test; where it is not known it is any type. -/
def subjectType (scope : Scope) : Ty := scope.testType.getD .any

/-- A comparison of the value under test. -/
def comparison (op : Operator) (value : Lower) (span : Span) : Lower := fun scope => do
  let subject := Fragment.computed .testInput (subjectType scope)
  let value ← value scope
  Fragment.binary scope.options span op subject value

/-- How a value serves as a test of a subject: lists and ranges contain it, a condition holds,
what is not known is decided by the run, and anything else equals it. -/
def matching (options : Options) (span : Span) (subject : Ty) (value : Fragment) :
    Lowering Fragment :=
  let whole (code : Code) : Lowering Fragment := return .computed code .boolean
  let equal : Lowering Fragment :=
    Fragment.binary options span .eq (.computed .testInput subject) value
  match value.type with
  | .list _ => if subject.isList then equal else whole (.listContains value.code .testInput)
  | .range _ _ _ => whole (.rangeContains value.code .testInput)
  | .boolean =>
    if subject.isAny then whole (.unaryMatch value.code)
    else if subject.isBoolean then equal
    else return value
  | .any => whole (.unaryMatch value.code)
  | _ => equal

/-- One test of a subject. -/
def test (scope : Scope) (part : TestPart) : Lowering Fragment := do
  let value ← part.lower scope
  if part.isComplete then return value
  else matching scope.options part.span (subjectType scope) value

/-- The disjunction of a first test and those after it. -/
def anyOf (scope : Scope) (span : Span) : Fragment → List TestPart → Lowering Fragment
  | first, [] => return first
  | first, part :: parts => do
    let next ← test scope part
    let both ← Fragment.binary scope.options span .or first next
    anyOf scope span both parts

/-- The disjunction of tests; none hold of no tests. -/
def disjunction (scope : Scope) (span : Span) : List TestPart → Lowering Fragment
  | [] => Fragment.ofValue (.boolean false)
  | part :: parts => do
    let first ← test scope part
    anyOf scope span first parts

def tests (negated : Bool) (parts : List TestPart) (span : Span) : Lower := fun scope => do
  let whole ← disjunction scope span parts
  if !negated then return whole
  else
    match whole.value? scope.options with
    | some v => Fragment.ofValue v.not
    | none => return .computed (.not whole.code) .boolean

end Lower

/-! ### Terms -/

namespace Term

/-- Whether a test speaks of the value under test by itself. -/
def isCompleteTest (t : Term) : Bool :=
  match t.shape with
  | .dash | .comparison _ _ => true
  | _ => t.usesTest

end Term

namespace Fragment

mutual

/-- The fragment of a term in a scope. -/
def ofTerm : Term → Lower
  | .node shape type span _ _ => ofShape type span shape

def ofShape (type : Ty) (span : Span) : Shape Term → Lower
  | .null => fun _ => return null
  | .boolean b => fun _ => ofValue (.boolean b)
  | .number n => fun _ => ofConstant (.number n) type
  | .string s => fun _ => ofValue (.string s)
  | .temporal v => fun _ => ofConstant v type
  | .list items => .list (ofList items) type
  | .context entries => .context (ofEntries entries) type
  | .range start finish si ei => .range (ofTerm start) (ofTerm finish) si ei type
  | .binary op left right => .binary op (ofTerm left) (ofTerm right) span
  | .negation operand => .negation (ofTerm operand) type
  | .between value low high => .between (ofTerm value) (ofTerm low) (ofTerm high)
  | .isIn value tests => .isIn (ofTerm value) (ofTerm tests)
  | .instanceOf value target => .instanceOf (ofTerm value) target
  | .ite condition yes no => .ite (ofTerm condition) (ofTerm yes) (ofTerm no) type
  | .forIn its body => .forIn (ofIterations its) (ofTerm body) type
  | .quantified every its condition => .quantified every (ofIterations its) (ofTerm condition)
  | .filter source filter kind => .filter (ofTerm source) (ofTerm filter) kind type
  | .function params body => .function params (ofTerm body) type
  | .invocation callee args names =>
    .invocation (ofCallee callee) (ofList args) names type span
  | .path source member => .path (ofTerm source) member span
  | .name name origin => .name name origin type span
  | .testInput => fun _ => return computed .testInput type
  | .tests negated tests => .tests negated (ofTests tests) span
  | .dash => fun _ => ofValue (.boolean true)
  | .comparison op value => .comparison op (ofTerm value) span

def ofList : List Term → List Lower
  | [] => []
  | t :: ts => ofTerm t :: ofList ts

def ofEntries : List (String × Term) → List (String × Lower)
  | [] => []
  | (name, t) :: es => (name, ofTerm t) :: ofEntries es

def ofTests : List Term → List TestPart
  | [] => []
  | t :: ts => ⟨t.isCompleteTest, t.span, ofTerm t⟩ :: ofTests ts

def ofIterations : List (Iteration Term) → List DomainPart
  | [] => []
  | ⟨name, domain⟩ :: its =>
    ⟨name, domain.type.elementType, ofBounds domain, ofTerm domain⟩ :: ofIterations its

def ofBounds : Term → Option BoundParts
  | .node shape _ _ _ _ => ofShapeBounds shape

def ofShapeBounds : Shape Term → Option BoundParts
  | .range start finish si ei => some ⟨ofTerm start, ofTerm finish, si, ei⟩
  | _ => none

def ofCallee : Callee Term → CalleePart
  | .named name signature => .named name signature
  | .value callee => .value (ofTerm callee)

end

end Fragment

end Feel
