import Feel.Code.Basic
import Feel.Number.Overflow
import Feel.Value.Convert

/-!
# Built-in functions

The functions every expression can call, by name.

* `Builtin`: the functions.
* `Builtin.name`, `Builtin.ofName?`: their names.
* `Args`: views of the arguments of a call.
* `Position.offset?`, `Position.stop?`, `slice?`: parts of a sequence by position.
-/

namespace Feel

/-- A built-in function. -/
inductive Builtin where
  | date | time | dateAndTime | number | string | duration | yearsAndMonthsDuration
  | not | is
  | substring | stringLength | upperCase | lowerCase | substringBefore | substringAfter
  | replace | contains | startsWith | endsWith | matches | split
  | listContains | count | min | max | sum | mean | all | any | sublist | append
  | concatenate | insertBefore | remove | reverse | indexOf | union | distinctValues
  | flatten | product | median | stddev | mode | sort
  | decimal | floor | ceiling | abs | modulo | sqrt | log | exp | odd | even
  | before | after | meets | metBy | overlaps | finishes | finishedBy | starts | startedBy
  | coincides
  | dayOfYear | dayOfWeek | monthOfYear | weekOfYear
  | getValue | getEntries
  deriving DecidableEq, Inhabited

namespace Builtin

/-- The name a function is called by. -/
def name : Builtin → String
  | date => "date"
  | time => "time"
  | dateAndTime => "date and time"
  | number => "number"
  | string => "string"
  | duration => "duration"
  | yearsAndMonthsDuration => "years and months duration"
  | not => "not"
  | is => "is"
  | substring => "substring"
  | stringLength => "string length"
  | upperCase => "upper case"
  | lowerCase => "lower case"
  | substringBefore => "substring before"
  | substringAfter => "substring after"
  | replace => "replace"
  | contains => "contains"
  | startsWith => "starts with"
  | endsWith => "ends with"
  | «matches» => "matches"
  | split => "split"
  | listContains => "list contains"
  | count => "count"
  | min => "min"
  | max => "max"
  | sum => "sum"
  | mean => "mean"
  | all => "all"
  | any => "any"
  | sublist => "sublist"
  | append => "append"
  | concatenate => "concatenate"
  | insertBefore => "insert before"
  | remove => "remove"
  | reverse => "reverse"
  | indexOf => "index of"
  | union => "union"
  | distinctValues => "distinct values"
  | flatten => "flatten"
  | product => "product"
  | median => "median"
  | stddev => "stddev"
  | mode => "mode"
  | sort => "sort"
  | decimal => "decimal"
  | floor => "floor"
  | ceiling => "ceiling"
  | abs => "abs"
  | modulo => "modulo"
  | sqrt => "sqrt"
  | log => "log"
  | exp => "exp"
  | odd => "odd"
  | even => "even"
  | before => "before"
  | after => "after"
  | meets => "meets"
  | metBy => "met by"
  | overlaps => "overlaps"
  | finishes => "finishes"
  | finishedBy => "finished by"
  | starts => "starts"
  | startedBy => "started by"
  | coincides => "coincides"
  | dayOfYear => "day of year"
  | dayOfWeek => "day of week"
  | monthOfYear => "month of year"
  | weekOfYear => "week of year"
  | getValue => "get value"
  | getEntries => "get entries"

/-- Every function once. -/
def functions : List Builtin :=
  [date, time, dateAndTime, number, string, duration, yearsAndMonthsDuration, not, is,
    substring, stringLength, upperCase, lowerCase, substringBefore, substringAfter, replace,
    contains, startsWith, endsWith, «matches», split, listContains, count, min, max, sum, mean,
    all, any, sublist, append, concatenate, insertBefore, remove, reverse, indexOf, union,
    distinctValues, flatten, product, median, stddev, mode, sort, decimal, floor, ceiling, abs,
    modulo, sqrt, log, exp, odd, even, before, after, meets, metBy, overlaps, finishes,
    finishedBy, starts, startedBy, coincides, dayOfYear, dayOfWeek, monthOfYear, weekOfYear,
    getValue, getEntries]

/-- The function with a name. -/
def ofName? (s : String) : Option Builtin := functions.find? (·.name == s)

end Builtin

/-! ### Arguments -/

namespace Args

/-- An argument, null where it is missing. -/
def get (args : List Value) (i : Nat) : Value := args.getD i .null

def text? (args : List Value) (i : Nat) : Option String := (get args i).asString?

/-- The 64-bit integer of a number without fraction. -/
def int64? (v : Value) : Option Int64 := v.asNumber?.bind (·.toInt64?)

/-- The integer of a number without fraction. -/
def int? (v : Value) : Option Int := (int64? v).map (·.toInt)

/-- An integer that null leaves open. -/
def optionalInt64? : Value → Option (Option Int64)
  | .null => some none
  | v => (int64? v).map some

def decimal? (v : Value) : Option Decimal := v.asNumber?.map (·.toDecimal)

/-- The items of a function over a list, which takes one list or the items themselves. -/
def items : List Value → List Value
  | [.list items] => items
  | args => args

end Args

/-! ### Positions

Positions count from one, and negative positions count from the end; offsets count from zero.
Both are integers of 64 bits. The offset behind a slice is a sum that may exceed them, and a
slice does not exist where its offsets are not in order within the sequence. -/

namespace Position

/-- The offset of a position. It is negative where a position from the end lies before the
first item. -/
def offset? (o : Overflow) (length position : Int64) : Option Int64 :=
  if 0 < position then o.sub? position 1 else o.add? length position

/-- The offset behind `size` items, but no more than the end; without a size it is the end. -/
def stop? (o : Overflow) (length start : Int64) : Option Int64 → Option Int64
  | none => some length
  | some size => (o.add? start size).map (min · length)

end Position

/-- The items from one offset up to another, if the offsets are in order within the list. -/
def slice? {α : Type} (items : List α) (start stop : Int64) : Option (List α) :=
  if 0 ≤ start.toInt ∧ start.toInt ≤ stop.toInt ∧ stop.toInt ≤ items.length then
    some ((items.drop start.toInt.toNat).take (stop.toInt - start.toInt).toNat)
  else none

end Feel
