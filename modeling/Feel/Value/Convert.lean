import Feel.Value.Typing
import Feel.Text.LetterCase

/-!
# Conversion and members

Conversion brings a value to a type; what cannot be converted becomes null. A list of one
element and its element stand for each other. Members are the entries of a context and the
properties that values of other families have; a list passes a member that is not its own
on to its elements.

* `Datum.convert`: a value at a type.
* `Datum.member`: a member of a value.
-/

namespace Feel

namespace Datum

variable {κ : Type}

/-! ### Conversion -/

/-- The element of a list of one, as often as there is one. -/
def unwrap : Datum κ → Datum κ
  | list [v] => unwrap v
  | v => v

/-- A number in another representation; one with a fraction is cut where an integer is
asked for. -/
def convertNumber (n : Number) (kind : NumberKind) : Datum κ :=
  ofNumber? ((n.convert? kind).or ((n.convert? .long).bind (·.convert? kind)))

/-- A value that is neither null nor a list of one, at a type that is no list. -/
def convertSingle (target : Ty) (v : Datum κ) : Datum κ :=
  match v, target with
  | null, _ => null
  | number n, .number kind => convertNumber n kind
  | date d, .dateTime => dateTime (DateTime.atMidnight d)
  | dateTime t, .date => date t.date
  | v, target => if target.isInstance v then v else null

/-- A value at a type, null where there is no conversion. -/
def convert : Ty → Datum κ → Datum κ
  | .any, v => v
  | .list element, v =>
    match v with
    | null => null
    | list items => list (items.map (convert element))
    | v => list [convert element v]
  | target, v => convertSingle target v.unwrap

/-! ### Members -/

def dateMember (d : Date) : String → Datum κ
  | "year" => int d.year
  | "month" => int d.month
  | "day" | "dayOfMonth" => int d.day
  | "dayOfYear" => int d.ordinal
  | "weekday" => int (d.weekday + 1)
  | "isLeapYear" => boolean (Date.isLeap d.year)
  | "lengthOfYear" => int (Date.daysInYear d.year)
  | "epochDay" | "value" => long d.epochDay
  | _ => null

def timeMember (t : Time) : String → Datum κ
  | "hour" => int t.hour
  | "minute" => int t.minute
  | "second" => int t.second
  | "value" => long t.secs
  | _ => null

def dateTimeMember (t : DateTime) : String → Datum κ
  | "date" => date t.date
  | "time" => time t.time
  | "hour" => int t.time.hour
  | "minute" => int t.time.minute
  | "second" => int t.time.second
  | "epochSecond" | "value" => long t.epochSecond
  | name => dateMember t.date name

def stringMember (s : String) : String → Datum κ
  | "length" => count s.length
  | "trim" | "strip" => string (Text.trim s)
  | "upperCase" => string (Text.upper s)
  | "lowerCase" => string (Text.lower s)
  | "isBlank" => boolean (Text.trim s).isEmpty
  | "isEmpty" => boolean s.isEmpty
  | _ => null

def dayTimeMember (nanos : Int) : String → Datum κ
  | "days" => long ((Duration.seconds nanos).tdiv 86400)
  | "hours" => long (((Duration.seconds nanos).tdiv 3600).tmod 24)
  | "minutes" => long (((Duration.seconds nanos).tdiv 60).tmod 60)
  | "seconds" => long ((Duration.seconds nanos).tmod 60)
  | "value" => long (Duration.seconds nanos)
  | _ => null

def yearMonthMember (months : Int) : String → Datum κ
  | "years" => long (months.tdiv 12)
  | "months" => long (months.tmod 12)
  | "value" => long months
  | _ => null

def functionMember (f : Function κ) (name : String) : Datum κ :=
  match name, f.type with
  | "returnType", .function _ _ result => string result.text
  | "parameterTypes", .function params _ _ => list (params.map fun t => string t.text)
  | "parameterNames", _ => list (f.paramNames.map string)
  | _, _ => null

mutual

/-- A member of a value, null where it has none. -/
def member (name : String) : Datum κ → Datum κ
  | context entries => (entries.lookup name).getD null
  | list items =>
    match name with
    | "size" => count items.length
    | "isEmpty" => boolean items.isEmpty
    | "isNotEmpty" => boolean !items.isEmpty
    | _ => list (members name items)
  | string s => stringMember s name
  | date d => dateMember d name
  | time t => timeMember t name
  | dateTime t => dateTimeMember t name
  | dayTimeDuration nanos => dayTimeMember nanos name
  | yearMonthDuration months => yearMonthMember months.toInt name
  | range start finish si ei =>
    match name with
    | "start" => start.getD null
    | "end" => finish.getD null
    | "start included" => boolean si
    | "end included" => boolean ei
    | _ => null
  | function f => functionMember f name
  | null | boolean _ | number _ => null

def members (name : String) : List (Datum κ) → List (Datum κ)
  | [] => []
  | v :: vs => member name v :: members name vs

end

end Datum

end Feel
