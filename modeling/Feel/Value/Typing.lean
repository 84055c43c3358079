import Feel.Value.Basic

/-!
# Types of values

Every value has a type of its own, in which the elements of a list are joined. A value is
an instance of a type when it can be used there as it is.

* `Datum.type`: the type of a value.
* `Ty.isInstance`: whether a value is an instance of a type.
-/

namespace Feel

namespace Datum

variable {κ : Type}

mutual

/-- The type of a value. The elements of a list are joined, and a range takes the type of
the first bound it has. -/
def type : Datum κ → Ty
  | null => .null
  | boolean _ => .boolean
  | number n => .number n.kind
  | string _ => .string
  | date _ => .date
  | time _ => .time
  | dateTime _ => .dateTime
  | dayTimeDuration _ => .dayTimeDuration
  | yearMonthDuration _ => .yearMonthDuration
  | list items =>
    match types items with
    | [] => .list .any
    | t :: ts => .list (ts.foldl Ty.join t)
  | context entries => .context (entryTypes entries)
  | range start finish si ei =>
    .range (((boundType? start).or (boundType? finish)).getD .any) (some si) (some ei)
  | function f => f.type

def types : List (Datum κ) → List Ty
  | [] => []
  | v :: vs => type v :: types vs

def entryTypes : List (String × Datum κ) → List (String × Ty)
  | [] => []
  | (name, v) :: entries => (name, type v) :: entryTypes entries

def boundType? : Option (Datum κ) → Option Ty
  | none => none
  | some v => some (type v)

end

end Datum

namespace Ty

variable {κ : Type}

mutual

/-- Whether a value is an instance of the type. Null is an instance of `any` and of the
null type only. -/
def isInstance : Ty → Datum κ → Bool
  | any, _ => true
  | null, v => v.isNull || v.type.conformsTo null
  | list element, v =>
    match v with
    | .list items => items.all (isInstance element)
    | v => !v.isNull && v.type.conformsTo (list element)
  | context fields, v =>
    match v with
    | .context entries => areInstances fields entries
    | v => !v.isNull && v.type.conformsTo (context fields)
  | range element si ei, v =>
    match v with
    | .range start finish _ _ =>
      start.all (isInstance element) && finish.all (isInstance element)
    | v => !v.isNull && v.type.conformsTo (range element si ei)
  | t, v => !v.isNull && v.type.conformsTo t

/-- Whether every field has an entry that is an instance of its type. -/
def areInstances : List (String × Ty) → List (String × Datum κ) → Bool
  | [], _ => true
  | (name, t) :: fields, entries =>
    (match entries.lookup name with
      | some v => isInstance t v
      | none => false) && areInstances fields entries

end

end Ty

end Feel
