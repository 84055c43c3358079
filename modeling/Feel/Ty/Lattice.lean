import Feel.Ty.Basic

/-!
# Compatibility and joins of types

The distance from one type to another says how a value of the first is used where the
second is expected: as it is, as a value of a subtype, after a conversion, or not at all.
Overloads are chosen by it. The join unifies the types of branches and elements; the meet
is the type that both sides convert into.

* `Compat`: the distances, closest first.
* `Ty.compat`: the distance from one type to another.
* `Ty.join`: the least common supertype.
* `Ty.meet`: the most specific type that both sides convert into.
-/

namespace Feel

/-- The distance from one type to another, closest first. -/
inductive Compat where
  | equal
  /-- The source is a subtype. -/
  | conforms
  /-- The source converts without loss. -/
  | convertible
  /-- The source converts and may lose information. -/
  | lossy
  /-- Only a run can tell. -/
  | runtime
  | incompatible
  deriving DecidableEq, Inhabited

namespace Compat

/-- The place of a distance among the distances. -/
def rank : Compat → Nat
  | equal => 0
  | conforms => 1
  | convertible => 2
  | lossy => 3
  | runtime => 4
  | incompatible => 5

/-- The greater of two distances. -/
def max (a b : Compat) : Compat := if a.rank ≤ b.rank then b else a

def isConforming : Compat → Bool
  | equal | conforms => true
  | _ => false

def isConvertible : Compat → Bool
  | incompatible => false
  | _ => true

end Compat

namespace NumberKind

/-- The distance between number kinds: integers widen, anything converts to a decimal. -/
def compat (source target : NumberKind) : Compat :=
  if source = target then .equal
  else if target = .number then .conforms
  else if target = .decimal then .convertible
  else if source.width < target.width then .conforms
  else .lossy

end NumberKind

namespace Ty

/-! ### Distance -/

mutual

/-- The distance from `source` to the type; it follows the target. -/
def compatTo : Ty → Ty → Compat
  | any, source => if source = any then .equal else .conforms
  | null, source =>
    match source with
    | null => .equal
    | any => .runtime
    | _ => .incompatible
  | number k, source =>
    match source with
    | any => .runtime
    | null => .conforms
    | number j => j.compat k
    | _ => .incompatible
  | date, source =>
    match source with
    | date => .equal
    | any => .runtime
    | null => .conforms
    | dateTime => .convertible
    | _ => .incompatible
  | time, source =>
    match source with
    | time => .equal
    | any => .runtime
    | null => .conforms
    | dateTime => .convertible
    | _ => .incompatible
  | dateTime, source =>
    match source with
    | dateTime => .equal
    | any => .runtime
    | null => .conforms
    | date => .lossy
    | _ => .incompatible
  | list b, source =>
    match source with
    | any => .runtime
    | null => .conforms
    | list a =>
      if a = b then .equal
      else match compatTo b a with
        | .conforms => .convertible
        | rank => rank
    | _ => .incompatible
  | context b, source =>
    match source with
    | any => .runtime
    | null => .conforms
    | context a =>
      match compatFields b a .equal with
      | .equal => if b.length < a.length then .conforms else .equal
      | rank => rank
    | _ => .incompatible
  | range b sb eb, source =>
    match source with
    | any => .runtime
    | null => .conforms
    | range a sa ea =>
      if a = b ∧ sa = sb ∧ ea = eb then .equal
      else if (sb.isSome && sa != sb) || (eb.isSome && ea != eb) then .incompatible
      else match compatTo b a with
        | .equal => if sa != sb || ea != eb then .conforms else .equal
        | rank => rank
    | _ => .incompatible
  | function pb nb rb, source =>
    match source with
    | any => .runtime
    | null => .conforms
    | function pa na ra =>
      if function pa na ra = function pb nb rb then .equal
      else if pa.length != pb.length then .incompatible
      else compatParams pb pa (compatTo rb ra)
    | _ => .incompatible
  | target, source =>
    if source = target then .equal
    else match source with
      | any => .runtime
      | null => .conforms
      | _ => .incompatible

/-- The greatest distance over the fields of the target; a missing field is incompatible. -/
def compatFields : List (String × Ty) → List (String × Ty) → Compat → Compat
  | [], _, rank => rank
  | (name, expected) :: fields, source, rank =>
    match source.lookup name with
    | some actual => compatFields fields source (rank.max (compatTo expected actual))
    | none => .incompatible

/-- The greatest distance over parameters, taken pairwise. -/
def compatParams : List Ty → List Ty → Compat → Compat
  | b :: bs, a :: as, rank => compatParams bs as (rank.max (compatTo b a))
  | _, _, rank => rank

end

/-- The distance from a type to a target. -/
def compat (source target : Ty) : Compat := target.compatTo source

/-- A value of the type is used as it is where the target is expected. -/
def conformsTo (source target : Ty) : Bool := (source.compat target).isConforming

/-- Some conversion leads to the target. -/
def convertsTo (source target : Ty) : Bool := (source.compat target).isConvertible

/-! ### Meet -/

mutual

/-- The most specific type that both sides convert into, `null` if there is none. -/
def meet : Ty → Ty → Ty
  | a, b =>
    if a = b then a
    else if !a.convertsTo b || !b.convertsTo a then null
    else match a, b with
      | any, t => t
      | t, any => t
      | number .number, number k => number k
      | number k, number .number => number k
      | number j, number k => number (j.max k)
      | date, dateTime => dateTime
      | time, dateTime => dateTime
      | dateTime, date => dateTime
      | dateTime, time => dateTime
      | list a, list b => list (meet a b)
      | context a, context b => context (meetFields a b)
      | range a sa ea, range b sb eb => range (meet a b) (sa.or sb) (ea.or eb)
      | function pa na ra, function pb _ rb => function (meetParams pa pb) na (meet ra rb)
      | _, _ => null

def meetFields : List (String × Ty) → List (String × Ty) → List (String × Ty)
  | [], _ => []
  | (name, t) :: fields, other =>
    match other.lookup name with
    | some u => (name, meet t u) :: meetFields fields other
    | none => meetFields fields other

def meetParams : List Ty → List Ty → List Ty
  | a :: as, b :: bs => meet a b :: meetParams as bs
  | _, _ => []

end

@[simp] theorem meet_self (t : Ty) : t.meet t = t := by
  unfold meet
  exact if_pos rfl

/-! ### Join -/

/-- Fields in the order of their names. -/
def sortFields (fields : List (String × Ty)) : List (String × Ty) :=
  fields.mergeSort fun a b => !decide (b.1 < a.1)

mutual

/-- The least common supertype, `any` when nothing narrower unifies. A join of contexts
keeps the common fields, sorted by name. -/
def join : Ty → Ty → Ty
  | a, b =>
    if a = b then a
    else match a, b with
      | null, t => t
      | t, null => t
      | number _, number _ => number .number
      | date, dateTime => date
      | dateTime, date => date
      | time, dateTime => time
      | dateTime, time => time
      | list a, list b => list (join a b)
      | context a, context b => context (sortFields (joinFields a b))
      | range a sa ea, range b sb eb =>
        range (join a b) (if sa = sb then sa else none) (if ea = eb then ea else none)
      | function pa na ra, function pb nb rb =>
        if pa.length = pb.length then
          function (joinParams pa pb) (if na = nb then na else none) (join ra rb)
        else any
      | _, _ => any

def joinFields : List (String × Ty) → List (String × Ty) → List (String × Ty)
  | [], _ => []
  | (name, t) :: fields, other =>
    match other.lookup name with
    | some u => (name, join t u) :: joinFields fields other
    | none => joinFields fields other

def joinParams : List Ty → List Ty → List Ty
  | a :: as, b :: bs => join a b :: joinParams as bs
  | _, _ => []

end

@[simp] theorem join_self (t : Ty) : t.join t = t := by
  cases t <;> simp [join]

/-- The least common supertype of all types, from the first one on; nothing has any type. -/
def joinAll : List Ty → Ty
  | [] => any
  | t :: ts => ts.foldl join t

/-! ### Operators -/

/-- Whether values of two types can be ordered against each other. -/
def comparable : Ty → Ty → Bool
  | any, _ | null, _ | _, any | _, null => true
  | date, date | date, dateTime | dateTime, date | dateTime, dateTime => true
  | list _, _ | context _, _ | function _ _ _, _ => false
  | a, b => a.sameFamily b

/-- The type of an operator on dates, times and durations, where it has one. -/
def temporalResult? : Operator → Ty → Ty → Option Ty
  | .sub, date, date | .sub, date, dateTime | .sub, dateTime, date | .sub, dateTime, dateTime
  | .sub, time, time => some dayTimeDuration
  | .add, date, dayTimeDuration | .sub, date, dayTimeDuration => some date
  | .add, dateTime, dayTimeDuration | .sub, dateTime, dayTimeDuration => some dateTime
  | .add, time, dayTimeDuration | .sub, time, dayTimeDuration => some time
  | .add, date, yearMonthDuration | .sub, date, yearMonthDuration => some date
  | .add, dateTime, yearMonthDuration | .sub, dateTime, yearMonthDuration => some dateTime
  | .add, dayTimeDuration, date => some date
  | .add, dayTimeDuration, dateTime => some dateTime
  | .add, dayTimeDuration, time => some time
  | .add, yearMonthDuration, date => some date
  | .add, yearMonthDuration, dateTime => some dateTime
  | .add, dayTimeDuration, dayTimeDuration | .sub, dayTimeDuration, dayTimeDuration =>
    some dayTimeDuration
  | .add, yearMonthDuration, yearMonthDuration | .sub, yearMonthDuration, yearMonthDuration =>
    some yearMonthDuration
  | .mul, dayTimeDuration, number _ | .div, dayTimeDuration, number _ => some dayTimeDuration
  | .mul, yearMonthDuration, number _ | .div, yearMonthDuration, number _ =>
    some yearMonthDuration
  | .mul, number _, dayTimeDuration => some dayTimeDuration
  | .mul, number _, yearMonthDuration => some yearMonthDuration
  | .div, dayTimeDuration, dayTimeDuration | .div, yearMonthDuration, yearMonthDuration =>
    some (number .number)
  | _, _, _ => none

/-- The type of an arithmetic operator on numbers. -/
def numberResult (op : Operator) (a b : NumberKind) : Ty :=
  match op with
  | .pow => number .number
  | .div => if a = .number ∨ b = .number then number .number else number .decimal
  | _ => number (a.max b)

end Ty

/-- The type of an operator applied to operands of two types; `null` means that the
operands can only give null. -/
def Operator.resultType (op : Operator) (left right : Ty) : Ty :=
  if op.isEquality || op.isLogic then .boolean
  else if op.isOrdering then (if left.comparable right then .boolean else .null)
  else if left.isAny || right.isAny then .any
  else if op = .add && (left.isString || right.isString) then .string
  else match Ty.temporalResult? op left right with
    | some t => t
    | none =>
      match left, right with
      | .number a, .number b => Ty.numberResult op a b
      | _, _ => .null

end Feel
