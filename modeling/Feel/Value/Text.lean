import Feel.Value.Basic

/-!
# Texts and values

The text of a value is what a string concatenation shows: strings stand without quotes,
times without their fractions, and functions by their types. The other way round, the text
of a duration, an instant, a date or a time of day gives the value it denotes.

* `Datum.text`: the text of a value.
* `Datum.parseTemporal?`: the value of a temporal text.
-/

namespace Feel

namespace Datum

variable {κ : Type}

/-! ### The texts of values -/

mutual

/-- The text of a value. -/
def text : Datum κ → String
  | null => "null"
  | boolean b => if b then "true" else "false"
  | number n => n.text
  | string s => s
  | date d => d.text
  | time t => t.text
  | dateTime t => t.text
  | dayTimeDuration nanos => Duration.dayTimeText nanos
  | yearMonthDuration months => Duration.yearMonthText months.toInt
  | list items => "[" ++ ", ".intercalate (texts items) ++ "]"
  | context entries => "\x7b" ++ ", ".intercalate (entryTexts entries) ++ "\x7d"
  | range start finish si ei =>
    (if si then "[" else "(") ++ boundText start ++ ".." ++ boundText finish ++
      (if ei then "]" else ")")
  | function f => f.type.text

def texts : List (Datum κ) → List String
  | [] => []
  | v :: vs => text v :: texts vs

def entryTexts : List (String × Datum κ) → List String
  | [] => []
  | (name, v) :: entries => (name ++ ": " ++ text v) :: entryTexts entries

def boundText : Option (Datum κ) → String
  | none => ""
  | some v => text v

end

/-! ### The values of texts -/

def ofDuration : Duration.Parsed → Datum κ
  | .dayTime nanos => dayTimeDuration nanos
  | .yearMonth months => yearMonthDuration months

/-- The value of a duration text. -/
def parseDuration? (s : String) : Option (Datum κ) := (Duration.parse? s).map ofDuration

/-- The value of a temporal text. What begins with `P` is a duration, what holds a `T` an
instant, and anything else a date or a time. -/
def parseTemporal? (s : String) : Option (Datum κ) :=
  let s := Text.trim s
  match s.toList with
  | 'P' :: _ | '-' :: 'P' :: _ => parseDuration? s
  | cs =>
    if cs.contains 'T' then (DateTime.parse? s).map dateTime
    else ((Date.parse? s).map date).or ((Time.parse? s).map time)

end Datum

end Feel
