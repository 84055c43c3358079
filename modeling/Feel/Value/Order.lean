import Feel.Value.Basic

/-!
# Order and equality of values

Values of one family are ordered, a date counting as its midnight against an instant.
Equality holds across the representations of numbers, compares lists by position and
contexts by name, and takes null as equal to itself.

* `Datum.order?`: the order of two values, where they have one.
* `Datum.same`: structural equality.
* `Datum.equal`: equality of expressions, where dates also equal their midnights.
* `Datum.rangeContains?`: containment in a range.
-/

namespace Feel

namespace Datum

variable {κ : Type}

/-- The order of two values of one family. -/
def order? : Datum κ → Datum κ → Option Ordering
  | number a, number b => a.order? b
  | string a, string b => some (compare a b)
  | boolean a, boolean b => some (compare a.toNat b.toNat)
  | date a, date b => some (a.order b)
  | time a, time b => some (a.order b)
  | dateTime a, dateTime b => some (a.order b)
  | date a, dateTime b => some ((DateTime.atMidnight a).order b)
  | dateTime a, date b => some (a.order (DateTime.atMidnight b))
  | dayTimeDuration a, dayTimeDuration b => some (compare a b)
  | yearMonthDuration a, yearMonthDuration b => some (compare a.toInt b.toInt)
  | _, _ => none

mutual

/-- Structural equality; numbers are equal by value and contexts whatever their order. -/
def same : Datum κ → Datum κ → Bool
  | null, null => true
  | boolean a, boolean b => a == b
  | number a, number b => a.equal b
  | string a, string b => a == b
  | date a, date b => a == b
  | time a, time b => a == b
  | dateTime a, dateTime b => a == b
  | dayTimeDuration a, dayTimeDuration b => a == b
  | yearMonthDuration a, yearMonthDuration b => a == b
  | list a, list b => sameList a b
  | context a, context b => a.length == b.length && sameEntries a b
  | range s e si ei, range t f ti fi => sameBound s t && sameBound e f && si == ti && ei == fi
  | function a, function b => a.same b
  | _, _ => false
termination_by structural a => a

def sameList : List (Datum κ) → List (Datum κ) → Bool
  | [], [] => true
  | a :: as, b :: bs => same a b && sameList as bs
  | _, _ => false
termination_by structural as => as

/-- Every entry of the first has an equal entry in the second. -/
def sameEntries : List (String × Datum κ) → List (String × Datum κ) → Bool
  | [], _ => true
  | (name, a) :: entries, other =>
    (match other.lookup name with
      | some b => same a b
      | none => false) && sameEntries entries other
termination_by structural entries => entries

def sameBound : Option (Datum κ) → Option (Datum κ) → Bool
  | none, none => true
  | some a, some b => same a b
  | _, _ => false
termination_by structural bound => bound

end

/-- Equality of two values; a date equals the midnight it begins with. -/
def equal (a b : Datum κ) : Bool :=
  match a, b with
  | date _, dateTime _ | dateTime _, date _ => a.order? b == some .eq
  | _, _ => a.same b

/-- Whether a value is the boolean `b`. -/
def isBool (b : Bool) : Datum κ → Bool
  | boolean c => b == c
  | _ => false

/-! ### Ranges -/

/-- Whether a value is on the inner side of a lower bound. -/
def above? (v : Datum κ) (included : Bool) : Option (Datum κ) → Option Bool
  | none => some true
  | some start => (v.order? start).map fun
    | .lt => false
    | .eq => included
    | .gt => true

/-- Whether a value is on the inner side of an upper bound. -/
def below? (v : Datum κ) (included : Bool) : Option (Datum κ) → Option Bool
  | none => some true
  | some finish => (v.order? finish).map fun
    | .lt => true
    | .eq => included
    | .gt => false

/-- Containment in a range; undefined where the value has no order to a bound that
decides. The lower bound is asked first. -/
def rangeContains? (start finish : Option (Datum κ)) (startIncluded endIncluded : Bool)
    (v : Datum κ) : Option Bool :=
  match v.above? startIncluded start with
  | some true => v.below? endIncluded finish
  | other => other

end Datum

end Feel
