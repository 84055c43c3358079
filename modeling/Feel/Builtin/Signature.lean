import Feel.Builtin.Basic

/-!
# Signatures

The types at which functions can be called. A function has one or more overloads, and a
call takes the one that its argument types are closest to. Functions over a list can also be
called with the items themselves.

* `Ty.resolve?`: the closest overload.
* `Builtin.overloads`: the declared overloads of a built-in function.
* `Builtin.signature?`: the type at which a built-in function is called.
* `Builtin.functionValue`: a built-in function as a value.
-/

namespace Feel

namespace Ty

/-! ### Overloads -/

/-- How far arguments are from parameters: the worst single distance and their sum. None
where the numbers differ or an argument is incompatible. -/
def distance? (args params : List Ty) : Option (Nat × Nat) :=
  if args.length ≠ params.length then none
  else
    let ranks := (args.zip params).map fun (arg, param) => arg.compat param
    if ranks.contains .incompatible then none
    else
      let ranks := ranks.map Compat.rank
      some (ranks.foldl Nat.max 0, ranks.foldl (· + ·) 0)

/-- The distance of arguments from an overload. -/
def overloadDistance? (args : List Ty) : Ty → Option (Nat × Nat)
  | function params _ _ => distance? args params
  | _ => none

/-- Whether the first distance is strictly smaller. -/
def nearer (a b : Nat × Nat) : Bool := a.1 < b.1 || (a.1 == b.1 && a.2 < b.2)

/-- The overload closest to the arguments, the first of equally close ones. -/
def resolve? (overloads args : List Ty) : Option Ty :=
  let step (best : Option ((Nat × Nat) × Ty)) (overload : Ty) : Option ((Nat × Nat) × Ty) :=
    match overloadDistance? args overload, best with
    | none, best => best
    | some d, none => some (d, overload)
    | some d, some b => if nearer d b.1 then some (d, overload) else some b
  (overloads.foldl step none).map (·.2)

/-- The result of a function type. -/
def result? : Ty → Option Ty
  | function _ _ result => some result
  | _ => none

end Ty

namespace Builtin

/-! ### Declarations -/

/-- The declared overloads. -/
def overloads : Builtin → List Ty :=
  let num : Ty := .number .number
  let int : Ty := .number .integer
  let items : Ty := .list .any
  fun
  | date => [.named [("from", .string)] .date, .named [("from", .dateTime)] .date,
      .named [("year", num), ("month", num), ("day", num)] .date]
  | time => [.named [("from", .string)] .time, .named [("from", .dateTime)] .time,
      .named [("hour", num), ("minute", num), ("second", num)] .time]
  | dateAndTime => [.named [("from", .string)] .dateTime,
      .named [("date", .date), ("time", .time)] .dateTime]
  | number => [.named [("from", .string)] num,
      .named [("from", .string), ("grouping separator", .string),
        ("decimal separator", .string)] num]
  | string => [.named [("from", .any)] .string]
  | duration => [.named [("from", .string)] .any]
  | yearsAndMonthsDuration => [.named [("from", .date), ("to", .date)] .yearMonthDuration,
      .named [("from", .dateTime), ("to", .dateTime)] .yearMonthDuration]
  | not => [.named [("negand", .any)] .boolean]
  | is => [.named [("value1", .any), ("value2", .any)] .boolean]
  | substring => [.named [("string", .string), ("start position", num)] .string,
      .named [("string", .string), ("start position", num), ("length", num)] .string]
  | stringLength => [.named [("string", .string)] int]
  | upperCase | lowerCase => [.named [("string", .string)] .string]
  | substringBefore | substringAfter => [.named [("string", .string), ("match", .string)] .string]
  | contains | startsWith | endsWith =>
    [.named [("string", .string), ("match", .string)] .boolean]
  | replace => [.named [("input", .string), ("pattern", .string), ("replacement", .string)] .string,
      .named [("input", .string), ("pattern", .string), ("replacement", .string),
        ("flags", .string)] .string]
  | «matches» => [.named [("input", .string), ("pattern", .string)] .boolean,
      .named [("input", .string), ("pattern", .string), ("flags", .string)] .boolean]
  | split => [.named [("string", .string), ("delimiter", .string)] (.list .string)]
  | listContains => [.named [("list", items), ("element", .any)] .boolean]
  | count => [.named [("list", items)] int]
  | min | max => [.named [("list", items)] .any]
  | sum | mean | product | median | stddev => [.named [("list", items)] num]
  | mode => [.named [("list", items)] (.list num)]
  | all | any => [.named [("list", items)] .boolean]
  | sublist => [.named [("list", items), ("start position", num)] items,
      .named [("list", items), ("start position", num), ("length", num)] items]
  | append => [.named [("list", items), ("item", .any)] items]
  | concatenate | union => [.named [("list", items)] items]
  | insertBefore => [.named [("list", items), ("position", num), ("newItem", .any)] items]
  | remove => [.named [("list", items), ("position", num)] items]
  | reverse | distinctValues | flatten => [.named [("list", items)] items]
  | indexOf => [.named [("list", items), ("match", .any)] (.list num)]
  | sort => [.named [("list", items)] items, .named [("list", items), ("precedes", .any)] items]
  | decimal => [.named [("n", num), ("scale", num)] num]
  | floor | ceiling | abs | sqrt | log | exp => [.named [("n", num)] num]
  | modulo => [.named [("dividend", num), ("divisor", num)] num]
  | odd | even => [.named [("number", num)] .boolean]
  | before | after | meets | metBy | overlaps | finishes | finishedBy | starts | startedBy
  | coincides => [.named [("range1", .any), ("range2", .any)] .boolean]
  | dayOfYear | weekOfYear => [.named [("date", .date)] int, .named [("date", .dateTime)] int]
  | dayOfWeek | monthOfYear =>
    [.named [("date", .date)] .string, .named [("date", .dateTime)] .string]
  | getValue => [.named [("m", .context []), ("key", .string)] .any]
  | getEntries =>
    [.named [("m", .context [])] (.list (.context [("key", .string), ("value", .any)]))]

/-- The functions that take one list or any number of items. -/
def isVariadic : Builtin → Bool
  | min | max | sum | mean | all | any | product | median | stddev | mode | concatenate | union
  | append => true
  | _ => false

/-! ### Calls -/

/-- The result of a call with loose items that join to `element`. -/
def looseResult (f : Builtin) (element : Ty) : Ty :=
  match f with
  | min | max => element
  | all | any => .boolean
  | mode => .list (.number .number)
  | concatenate | union => .list element.elementType
  | _ => .number .number

/-- A call with one list: the least and the greatest item have the type of the elements. -/
def listSignature? (f : Builtin) (arg : Ty) : Option Ty :=
  (Ty.resolve? f.overloads [arg]).map fun t =>
    match f, t with
    | min, .function params names _ => .function params names arg.elementType
    | max, .function params names _ => .function params names arg.elementType
    | _, t => t

/-- The type at which a function over items is called. -/
def variadicSignature? (f : Builtin) (args : List Ty) : Option Ty :=
  match f, args with
  | append, [] => none
  | append, list :: rest =>
    if list.isList || list.isAny then
      some (.function args none (.list (rest.foldl Ty.join list.elementType)))
    else none
  | _, [] => none
  | f, first :: rest =>
    if rest.isEmpty && first.isList then f.listSignature? first
    else some (.function args none (f.looseResult (rest.foldl Ty.join first)))

/-- The type at which a built-in function is called with arguments of some types. -/
def signature? (f : Builtin) (args : List Ty) : Option Ty :=
  if f.isVariadic then f.variadicSignature? args else Ty.resolve? f.overloads args

/-- A built-in function as a value, at its first overload. -/
def functionValue (f : Builtin) : FunctionValue := .builtin f.name (f.overloads.headD .any)

end Builtin

end Feel
