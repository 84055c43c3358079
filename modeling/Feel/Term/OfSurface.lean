import Feel.CompileError
import Feel.Surface.Basic
import Feel.Term.Basic
import Feel.Value.Text

/-!
# From parse trees to typed expressions

Names are resolved against a scope, written types become types, and every node gets the type
of its value. An operator that can only give null is kept, with a warning.

* `TypeExpr.resolve`: the type that is written, or its first unknown name.
* `Elaboration`: how a part becomes a term in a scope.
* `Term.ofSurface`: the term of a parse tree in a scope.
* `Term.ofTests`: the same where the whole is a list of unary tests.
-/

namespace Feel

/-! ### Types -/

namespace TypeExpr

mutual

/-- The type that is written. Fails with the first name that stands for no type. -/
def resolve (typeNamed? : String → Option Ty) : TypeExpr → Except String Ty
  | named name =>
    match typeNamed? name with
    | some t => .ok t
    | none => .error name
  | list element => return .list (← resolve typeNamed? element)
  | context fields => return .context (← resolveFields typeNamed? fields)
  | range element s e => return .range (← resolve typeNamed? element) s e
  | function params result => do
    let params ← resolveAll typeNamed? params
    return .function params none (← resolve typeNamed? result)

def resolveAll (typeNamed? : String → Option Ty) : List TypeExpr → Except String (List Ty)
  | [] => .ok []
  | t :: ts => do
    let t ← resolve typeNamed? t
    return t :: (← resolveAll typeNamed? ts)

def resolveFields (typeNamed? : String → Option Ty) :
    List (String × TypeExpr) → Except String (List (String × Ty))
  | [] => .ok []
  | (name, t) :: fields => do
    let t ← resolve typeNamed? t
    return (name, t) :: (← resolveFields typeNamed? fields)

end

end TypeExpr

/-! ### Parts -/

/-- How a part becomes a term in a scope. -/
abbrev Elaboration := Scope → Except CompileError Term

namespace Elaboration

/-- Elaborates parts in one scope, in order. -/
def all (scope : Scope) : List Elaboration → Except CompileError (List Term)
  | [] => .ok []
  | e :: es => do
    let t ← e scope
    return t :: (← all scope es)

/-- The type that a written one stands for. -/
def writtenType (scope : Scope) (span : Span) (t : TypeExpr) : Except CompileError Ty :=
  (t.resolve scope.typeNamed?).mapError fun name => .unresolved name span

/-- The type of the value under test. -/
def testType (scope : Scope) (span : Span) : Except CompileError Ty :=
  match scope.testType with
  | some t => .ok t
  | none => .error (.unresolved "?" span)

/-- The warning for an operator that gives null whatever its operands are. -/
def nullWarning? (source : String) (op : Operator) (left right : Ty) (span : Span) :
    Option String :=
  if left.isNull || right.isNull || !(op.resultType left right).isNull then none
  else
    some ("operator '" ++ op.symbol ++ "' is not defined for " ++ left.text ++ " and " ++
      right.text ++ " in '" ++ (span.slice? source).getD "" ++ "'; the result is always null")

/-! ### Literals and references -/

/-- The number that a literal stands for; the sign of a negative one is applied last. -/
def literal? (text : String) : Option Number :=
  match text.toList with
  | '-' :: cs => (Number.parse? (String.ofList cs)).map Number.neg
  | _ => Number.parse? text

def number (text : String) (span : Span) : Elaboration := fun _ =>
  match literal? text with
  | some n => .ok (.plain (.number n) (.number n.kind) span)
  | none => .error (.typing (.invalidNumber text) span [])

def temporal (text : String) (span : Span) : Elaboration := fun _ =>
  match (Datum.parseTemporal? text : Option Value) with
  | some v => .ok (.plain (.temporal v) v.type span)
  | none => .error (.typing (.invalidTemporal text) span [])

def name (name : String) (span : Span) : Elaboration := fun scope =>
  match scope.resolve? name with
  | some ref => .ok (.plain (.name name ref.origin) ref.type span)
  | none => .error (.unresolved name span)

def testInput (span : Span) : Elaboration := fun scope => do
  return .plain .testInput (← testType scope span) span

/-! ### Structures -/

def list (items : List Elaboration) (span : Span) : Elaboration := fun scope => do
  let items ← all scope items
  return .plain (.list items) (.list (Ty.joinAll (items.map (·.type)))) span

/-- Elaborates entries in order; each is a local of those after it. -/
def entries : Scope → List (String × Elaboration) → Except CompileError (List (String × Term))
  | _, [] => .ok []
  | scope, (name, e) :: es => do
    let t ← e scope
    return (name, t) :: (← entries (scope.declare name t.type) es)

def context (es : List (String × Elaboration)) (span : Span) : Elaboration := fun scope => do
  let es ← entries (scope.push false) es
  return .plain (.context es) (.context (es.map fun (name, t) => (name, t.type))) span

def interval (start finish : Elaboration) (si ei : Bool) (span : Span) : Elaboration :=
  fun scope => do
    let start ← start scope
    let finish ← finish scope
    return .rangeNode start finish si ei span

/-! ### Operators -/

def binary (source : String) (op : Operator) (left right : Elaboration) (span : Span) :
    Elaboration := fun scope => do
  let left ← left scope
  let right ← right scope
  let term := Term.plain (.binary op left right) (op.resultType left.type right.type) span
  return term.withWarning (nullWarning? source op left.type right.type span)

/-- The type of a negation. -/
def negationType : Ty → Ty
  | .any => .any
  | .number k => .number k
  | .dayTimeDuration => .dayTimeDuration
  | .yearMonthDuration => .yearMonthDuration
  | _ => .null

def negation (operand : Elaboration) (span : Span) : Elaboration := fun scope => do
  let operand ← operand scope
  let type := negationType operand.type
  let warning := if type.isNull && !operand.type.isNull then
      some ("negation of " ++ operand.type.text ++ " is always null") else none
  return (Term.plain (.negation operand) type span).withWarning warning

def between (value low high : Elaboration) (span : Span) : Elaboration := fun scope => do
  let value ← value scope
  let low ← low scope
  let high ← high scope
  return .plain (.between value low high) .boolean span

/-- The span that covers all spans. -/
def mergedSpan (whole : Span) : List Span → Span
  | [] => whole
  | s :: ss => ss.foldl Span.merge s

/-- A value that is put to tests, whose spans are given. -/
def isIn (value : Elaboration) (tests : List Elaboration) (spans : List Span) (span : Span) :
    Elaboration := fun scope => do
  let value ← value scope
  let tests ← all (scope.withTest value.type) tests
  let tests := Term.plain (.tests false tests) .boolean (mergedSpan span spans)
  return .plain (.isIn value tests) .boolean span

def instanceOf (value : Elaboration) (target : TypeExpr) (span : Span) : Elaboration :=
  fun scope => do
    let value ← value scope
    return .plain (.instanceOf value (← writtenType scope span target)) .boolean span

def comparison (source : String) (op : Operator) (value : Elaboration) (span : Span) :
    Elaboration := fun scope => do
  let value ← value scope
  let subject ← testType scope span
  let term := Term.plain (.comparison op value) .boolean span
  return term.withWarning (nullWarning? source op subject value.type span)

def tests (negated : Bool) (tests : List Elaboration) (span : Span) : Elaboration :=
  fun scope => do
    return .plain (.tests negated (← all scope tests)) .boolean span

/-! ### Control -/

def ite (condition yes no : Elaboration) (span : Span) : Elaboration := fun scope => do
  let condition ← condition scope
  let yes ← yes scope
  let no ← no scope
  return .plain (.ite condition yes no) (yes.type.join no.type) span

/-- What an iterator runs over. -/
def domain (scope : Scope) (it : Iterator Elaboration) : Except CompileError Term := do
  let start ← it.domain scope
  match it.finish with
  | none => return start
  | some finish =>
    let finish ← finish scope
    return .rangeNode start finish true true (start.span.merge finish.span)

/-- Elaborates iterators in order; each is a local of those after it and of the body. -/
def iterations : Scope → List (Iterator Elaboration) →
    Except CompileError (List (Iteration Term) × Scope)
  | scope, [] => .ok ([], scope)
  | scope, it :: its => do
    let domain ← domain scope it
    let (rest, inner) ← iterations (scope.declare it.name domain.type.elementType) its
    return (⟨it.name, domain⟩ :: rest, inner)

def forIn (its : List (Iterator Elaboration)) (body : Elaboration) (span : Span) :
    Elaboration := fun scope => do
  let (its, inner) ← iterations (scope.push false) its
  let body ← body inner
  return .plain (.forIn its body) (.list body.type) span

def quantified (every : Bool) (its : List (Iterator Elaboration)) (condition : Elaboration)
    (span : Span) : Elaboration := fun scope => do
  let (its, inner) ← iterations (scope.push false) its
  let condition ← condition inner
  return .plain (.quantified every its condition) .boolean span

/-- The scope of a filter over elements of a type: their fields, and the element itself. -/
def filterScope (scope : Scope) (element : Ty) : Scope :=
  let inner := match element with
    | .context fields => (scope.push false).declareAll fields
    | _ => scope.push true
  inner.declare "item" element

/-- How a filter is used, and the type of what it leaves. -/
def filterKind (element : Ty) : Ty → FilterKind × Ty
  | .number _ => (.index, element)
  | .any => (.dynamic, .any)
  | _ => (.predicate, .list element)

def filter (source filter : Elaboration) (span : Span) : Elaboration := fun scope => do
  let source ← source scope
  let element := source.type.elementType
  let filter ← filter (filterScope scope element)
  let (kind, type) := filterKind element filter.type
  return .plain (.filter source filter kind) type span

def path (source : Elaboration) (member : String) (span : Span) : Elaboration := fun scope => do
  let source ← source scope
  match source.type.member? member with
  | some type => return .plain (.path source member) type span
  | none => throw (.unresolved member span)

/-! ### Functions -/

/-- The types of parameters; one that is not given is any type. -/
def paramTypes (scope : Scope) (span : Span) :
    List (String × Option TypeExpr) → Except CompileError (List (String × Ty))
  | [] => .ok []
  | (name, none) :: ps => return (name, .any) :: (← paramTypes scope span ps)
  | (name, some t) :: ps => do
    let t ← writtenType scope span t
    return (name, t) :: (← paramTypes scope span ps)

def function (params : List (String × Option TypeExpr)) (body : Elaboration) (span : Span) :
    Elaboration := fun scope => do
  let params ← paramTypes scope span params
  let body ← body ((scope.push false).declareAll params)
  return .plain (.function params body) (.named params body.type) span

/-- The names of arguments, where they have names. -/
def argumentNames : Arguments Elaboration → Option (List String)
  | .positional _ => none
  | .named args => some (args.map (·.1))

def argumentParts : Arguments Elaboration → List Elaboration
  | .positional args => args
  | .named args => args.map (·.2)

/-- The parameter names of an overload. -/
def paramNames? : Ty → Option (List String)
  | .function _ names _ => names
  | _ => none

/-- The shortest list, the first of equally short ones. -/
def shortest? (lists : List (List String)) : Option (List String) :=
  lists.foldl (fun best names => match best with
    | none => some names
    | some b => if names.length < b.length then some names else some b) none

/-- The arguments that parameters take, each the first one of its name. An argument is taken
once, and a parameter without an argument is null. -/
def fill (span : Span) : List String → List (String × Term) → List Term
  | [], _ => []
  | p :: ps, given =>
    (given.lookup p).getD (.plain .null .null span) :: fill span ps (given.filter (·.1 != p))

/-- Arguments in the order of the parameters: of the overloads that have all the names, the
one with the fewest parameters counts. -/
def arrange (function : String) (overloads : List Ty) (names : List String) (args : List Term)
    (span : Span) : Except CompileError (List Term) :=
  match shortest? ((overloads.filterMap paramNames?).filter fun ps => names.all ps.contains) with
  | none => .error (.typing (.noParameters function names) span [])
  | some params => .ok (fill span params (names.zip args))

/-- The type at which a function of a library is called. Where an argument may be anything,
so may the result. -/
def signature (libraries : Libraries) (function : String) (args : List Ty) (span : Span) :
    Except CompileError Ty :=
  match libraries.signature? function args with
  | some t => .ok t
  | none =>
    if args.any Ty.isAny then .ok (.function args none .any)
    else .error (.typing (.noOverload function args) span [])

/-- A call of a function that a library declares. -/
def namedCall (function : String) (overloads : List Ty) (names : Option (List String))
    (args : List Term) (span : Span) : Elaboration := fun scope => do
  let args ← match names with
    | some names => arrange function overloads names args span
    | none => pure args
  let type ← signature scope.libraries function (args.map (·.type)) span
  return .plain (.invocation (.named function type) args none) (type.result?.getD .any) span

/-- The name that nothing is known of. -/
def unknownName? (t : Term) : Option String :=
  match t.shape with
  | .name name .dynamic => some name
  | _ => none

/-- A call of a function value. -/
def valueCall (source : String) (callee : Elaboration) (names : Option (List String))
    (args : List Term) (span : Span) : Elaboration := fun scope => do
  let callee ← callee scope
  match unknownName? callee with
  | some name => throw (.unresolved name span)
  | none =>
    let made := fun (type : Ty) => Term.plain (.invocation (.value callee) args names) type span
    match callee.type with
    | .function _ _ result => return made result
    | .any => return made .any
    | type =>
      let text := (callee.span.slice? source).getD ""
      throw (.typing (.notFunction text type) span [])

/-- A call. A name that a library declares and no local hides is a function of the library. -/
def invocation (source : String) (calleeName : Option String) (callee : Elaboration)
    (args : Arguments Elaboration) (span : Span) : Elaboration := fun scope => do
  let names := argumentNames args
  let args ← all scope (argumentParts args)
  match calleeName.filter (!scope.isLocal ·) with
  | some name =>
    match scope.libraries.overloads? name with
    | some overloads => namedCall name overloads names args span scope
    | none => valueCall source callee names args span scope
  | none => valueCall source callee names args span scope

end Elaboration

/-! ### Trees -/

namespace Surface

/-- The name that a tree consists of. -/
def name? (s : Surface) : Option String :=
  match s.form with
  | .name name => some name
  | _ => none

end Surface

namespace Term

mutual

/-- The term of a parse tree in a scope. -/
def ofSurface (source : String) : Surface → Elaboration
  | .node form span comments => fun scope => do
    let term ← ofForm source span form scope
    return term.withComments comments

def ofForm (source : String) (span : Span) : Form Surface → Elaboration
  | .null => fun _ => .ok (.plain .null .null span)
  | .boolean b => fun _ => .ok (.plain (.boolean b) .boolean span)
  | .number text => .number text span
  | .string s => fun _ => .ok (.plain (.string s) .string span)
  | .temporal text => .temporal text span
  | .name name => .name name span
  | .testInput => .testInput span
  | .dash => fun _ => .ok (.plain .dash .boolean span)
  | .list items => .list (ofList source items) span
  | .context entries => .context (ofEntries source entries) span
  | .interval start finish si ei =>
    .interval (ofSurface source start) (ofSurface source finish) si ei span
  | .binary op left right =>
    .binary source op (ofSurface source left) (ofSurface source right) span
  | .negation operand => .negation (ofSurface source operand) span
  | .between value low high =>
    .between (ofSurface source value) (ofSurface source low) (ofSurface source high) span
  | .isIn value tests =>
    .isIn (ofSurface source value) (ofList source tests) (tests.map Surface.span) span
  | .instanceOf value target => .instanceOf (ofSurface source value) target span
  | .ite condition yes no =>
    .ite (ofSurface source condition) (ofSurface source yes) (ofSurface source no) span
  | .forIn its body => .forIn (ofIterators source its) (ofSurface source body) span
  | .quantified every its condition =>
    .quantified every (ofIterators source its) (ofSurface source condition) span
  | .filter list filter => .filter (ofSurface source list) (ofSurface source filter) span
  | .function params body => .function params (ofSurface source body) span
  | .invocation callee args =>
    .invocation source callee.name? (ofSurface source callee) (ofArguments source args) span
  | .path value member => .path (ofSurface source value) member span
  | .comparison op value => .comparison source op (ofSurface source value) span
  | .tests negated tests => .tests negated (ofList source tests) span

def ofList (source : String) : List Surface → List Elaboration
  | [] => []
  | s :: ss => ofSurface source s :: ofList source ss

def ofEntries (source : String) : List (String × Surface) → List (String × Elaboration)
  | [] => []
  | (name, s) :: es => (name, ofSurface source s) :: ofEntries source es

def ofOption (source : String) : Option Surface → Option Elaboration
  | none => none
  | some s => some (ofSurface source s)

def ofIterators (source : String) : List (Iterator Surface) → List (Iterator Elaboration)
  | [] => []
  | ⟨name, domain, finish⟩ :: its =>
    ⟨name, ofSurface source domain, ofOption source finish⟩ :: ofIterators source its

def ofArguments (source : String) : Arguments Surface → Arguments Elaboration
  | .positional args => .positional (ofList source args)
  | .named args => .named (ofEntries source args)

end

/-- The term of unary tests; a single test is a list of one. -/
def ofTests (source : String) (s : Surface) : Elaboration := fun scope => do
  let term ← ofSurface source s scope
  match s.form with
  | .tests _ _ => return term
  | _ => return (plain (.tests false [term]) .boolean s.span).withComments s.comments

end Term

end Feel
