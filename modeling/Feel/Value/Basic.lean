import Feel.Ty.Lattice
import Feel.Calendar.Text
import Feel.Value.Entries

/-!
# Values

The values of expressions: null, booleans, numbers, strings, dates, times, durations,
lists, contexts, ranges and functions. The bodies of function values are left open: `κ` is
the type of the code they hold.

* `Datum`: the values over a type of code.
* `Function`: closures, host functions and built-in functions.
* `Datum.familyName`: the name of the family a value belongs to.
-/

namespace Feel

mutual

/-- A value whose functions have bodies in `κ`. -/
inductive Datum (κ : Type) where
  | null
  | boolean (b : Bool)
  | number (n : Number)
  | string (s : String)
  | date (d : Date)
  | time (t : Time)
  | dateTime (t : DateTime)
  /-- Signed nanoseconds. -/
  | dayTimeDuration (nanos : Int)
  /-- Signed months. -/
  | yearMonthDuration (months : Int64)
  | list (items : List (Datum κ))
  /-- Entries in the order in which they were written, each name once. -/
  | context (entries : List (String × Datum κ))
  /-- A range; an absent bound leaves its side unbounded. -/
  | range (start finish : Option (Datum κ)) (startIncluded endIncluded : Bool)
  | function (f : Function κ)

/-- A function value. -/
inductive Function (κ : Type) where
  /-- A function definition with the locals and the constants it was evaluated with. The
  site is the place in the run at which the definition was evaluated, and tells apart
  closures that agree otherwise. -/
  | closure (site : List Nat) (params : List String) (body : κ)
      (captured : List (String × Datum κ)) (constants : List (Datum κ)) (type : Ty)
  /-- A host function, registered under a number. -/
  | native (id : Nat) (name : String) (type : Ty)
  | builtin (name : String) (type : Ty)

end

namespace Function

variable {κ : Type}

def type : Function κ → Ty
  | closure _ _ _ _ _ type => type
  | native _ _ type => type
  | builtin _ type => type

/-- The names of the parameters, where the type or the definition has them. -/
def paramNames (f : Function κ) : List String :=
  match f.type with
  | .function _ (some names) _ => names
  | _ =>
    match f with
    | closure _ params _ _ _ _ => params
    | _ => []

/-- Closures are the same when they come from one evaluation of a definition, host
functions when they are registered under one number, built-in functions by name. -/
def same : Function κ → Function κ → Bool
  | closure a _ _ _ _ _, closure b _ _ _ _ _ => a == b
  | native a _ _, native b _ _ => a == b
  | builtin a _, builtin b _ => a == b
  | _, _ => false

end Function

namespace Datum

variable {κ : Type}

instance : Inhabited (Datum κ) := ⟨null⟩

/-- A number without fraction in 32 bits. -/
def int (n : Int) : Datum κ := number (.integer (Int32.ofInt n))

/-- A number without fraction in 64 bits. -/
def long (n : Int) : Datum κ := number (.long (Int64.ofInt n))

/-- A length or a position: 32 bits where they suffice. -/
def count (n : Nat) : Datum κ := number (.ofInt n)

def isNull : Datum κ → Bool
  | null => true
  | _ => false

def asBool? : Datum κ → Option Bool
  | boolean b => some b
  | _ => none

def asNumber? : Datum κ → Option Number
  | number n => some n
  | _ => none

def asString? : Datum κ → Option String
  | string s => some s
  | _ => none

def asList? : Datum κ → Option (List (Datum κ))
  | list items => some items
  | _ => none

def asContext? : Datum κ → Option (List (String × Datum κ))
  | context entries => some entries
  | _ => none

/-- An entry of a context; other values have none. -/
def get? (v : Datum κ) (name : String) : Option (Datum κ) :=
  v.asContext?.bind (·.lookup name)

/-- The value of an optional boolean, null where it is absent. -/
def ofBool? : Option Bool → Datum κ
  | some b => boolean b
  | none => null

/-- The value of an optional number, null where it is absent. -/
def ofNumber? : Option Number → Datum κ
  | some n => number n
  | none => null

/-- The name of the family a value belongs to. -/
def familyName : Datum κ → String
  | null => "null"
  | boolean _ => "boolean"
  | number _ => "number"
  | string _ => "string"
  | date _ => "date"
  | time _ => "time"
  | dateTime _ => "date and time"
  | dayTimeDuration _ => "days and time duration"
  | yearMonthDuration _ => "years and months duration"
  | list _ => "list"
  | context _ => "context"
  | range _ _ _ _ => "range"
  | function _ => "function"

end Datum

end Feel
