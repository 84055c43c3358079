import Feel.Builtin.Basic
import Feel.Value.Text

/-!
# Conversion functions

Functions that make values of one family from values of others, the calendar functions on
dates, and the functions on contexts.

* `Builtin.dateOf?`, `Builtin.timeOf?`, `Builtin.dateTimeOf?`: dates, times and instants from
  texts and from parts.
* `Builtin.numberOf?`: numbers from texts with grouping and decimal separators.
* `Builtin.monthsBetween`: whole months from one instant to another.
-/

namespace Feel

namespace Builtin

/-! ### Dates and times -/

/-- A date from a text, a date, an instant or year, month and day. -/
def dateOf? : List Value → Option Date
  | [.string s] => (Date.parse? s).or ((DateTime.parse? s).map (·.date))
  | [.date d] => some d
  | [.dateTime t] => some t.date
  | [year, month, day] => do
    let year ← Args.int? year
    let month ← Args.int? month
    let day ← Args.int? day
    if month < 0 ∨ day < 0 then none else Date.ofYmd? year month.toNat day.toNat
  | _ => none

/-- The time of hours, minutes and seconds; seconds are rounded to milliseconds, each part
on its own. -/
def timeOfParts? (hour minute : Int) (seconds : Float) : Option Time :=
  if hour < 0 ∨ minute < 0 ∨ seconds < 0 then none
  else
    let millis := (Binary64.round (Binary64.fract seconds * 1000)).toUInt32.toNat
    let whole := (Binary64.trunc seconds).toUInt32.toNat
    Time.ofHms? hour.toNat minute.toNat whole (millis * 1000000)

/-- A time from a text, a time, an instant or hours, minutes and seconds. -/
def timeOf? : List Value → Option Time
  | [.string s] => Time.parse? s
  | [.time t] => some t
  | [.dateTime t] => some t.time
  | [hour, minute, second] => do
    let hour ← Args.int? hour
    let minute ← Args.int? minute
    let seconds ← second.asNumber?
    timeOfParts? hour minute seconds.toFloat
  | _ => none

/-- An instant from a text, a date, an instant, or a date and a time. -/
def dateTimeOf? : List Value → Option DateTime
  | [.string s] => DateTime.parse? s
  | [.dateTime t] => some t
  | [.date d] => some (DateTime.atMidnight d)
  | [.date d, .time t] => some ⟨d, t⟩
  | [.dateTime d, .time t] => some ⟨d.date, t⟩
  | _ => none

/-- The whole months from one instant to another, toward zero. -/
def monthsBetween (a b : DateTime) : Int :=
  let months := (b.date.year - a.date.year) * 12 + b.date.month - a.date.month
  let order := (compare b.date.day a.date.day).then (b.time.order a.time)
  if 0 < months ∧ order = .lt then months - 1
  else if months < 0 ∧ order = .gt then months + 1
  else months

/-- `years and months duration(from, to)`. -/
def yearsAndMonths (a b : Value) : Value :=
  match a.instant?, b.instant? with
  | some a, some b => .yearMonthDuration (Int64.ofInt (monthsBetween a b))
  | _, _ => .null

/-! ### Numbers -/

/-- A text without the grouping separator, which has to be a blank, a comma or a point. -/
def ungrouped? (cs : List Char) : Value → Option (List Char)
  | .string sep =>
    match sep.toList with
    | [c] => if [' ', ',', '.'].contains c then some (cs.filter (· != c)) else none
    | _ => none
  | _ => some cs

/-- A text with a point for the decimal separator, which has to be a comma or a point. -/
def pointed? (cs : List Char) : Value → Option (List Char)
  | .string sep =>
    match sep.toList with
    | [c] =>
      if [',', '.'].contains c then some (cs.map fun d => if d == c then '.' else d) else none
    | _ => none
  | _ => some cs

/-- `number(from, grouping separator, decimal separator)`. -/
def numberOf? (args : List Value) : Option Number := do
  let text ← Args.text? args 0
  let cs ← ungrouped? (Text.trim text).toList (Args.get args 1)
  let cs ← pointed? cs (Args.get args 2)
  Number.parse? (String.ofList cs)

/-! ### The calendar -/

def dayNames : List String :=
  ["Monday", "Tuesday", "Wednesday", "Thursday", "Friday", "Saturday", "Sunday"]

def monthNames : List String :=
  ["January", "February", "March", "April", "May", "June", "July", "August", "September",
    "October", "November", "December"]

/-- A function of the date of a date or an instant. -/
def onDate (args : List Value) (f : Date → Value) : Value :=
  match Args.get args 0 with
  | .date d => f d
  | .dateTime t => f t.date
  | _ => .null

/-! ### Contexts -/

/-- The entry of a context under a key. -/
def entryOf (context key : Value) : Value :=
  match key with
  | .string key => (context.get? key).getD .null
  | _ => .null

/-- The entries of a context as contexts of key and value. -/
def entriesOf : Value → Value
  | .context entries =>
    .list (entries.map fun (key, value) => .context [("key", .string key), ("value", value)])
  | _ => .null

end Builtin

end Feel
