import Feel.Binary64.Basic
import Feel.Calendar.Time
import Feel.Decimal.Text
import Feel.Number.Overflow
import Feel.Text.Characters

/-!
# Texts of dates, times and durations

Dates are written `YYYY-MM-DD` and times `hh:mm:ss` with an optional fraction; durations
follow ISO 8601 and are either years and months or days and time, never both. Readers
allow blanks before each number and one digit where two are written.

* `Date.parse?`, `Time.parse?`, `DateTime.parse?`: readers.
* `Duration.parse?`: a duration of either kind.
* `Date.text`, `Time.text`, `Time.fullText`, `DateTime.text`: writers.
* `Duration.dayTimeText`, `Duration.yearMonthText`: writers of durations.
-/

namespace Feel

/-! ### Reading numbers -/

namespace Calendar

/-- The value of a row of digits. -/
def natOfDigits (cs : List Char) : Nat :=
  cs.foldl (fun n c => n * 10 + (c.toNat - '0'.toNat)) 0

/-- Reads between one and `most` digits. -/
def digits? (most : Nat) (cs : List Char) : Option (Nat × List Char) :=
  let ds := (cs.take most).takeWhile Char.isDigit
  if ds.isEmpty then none
  else
    let n := natOfDigits ds
    if n < 0x8000000000000000 then some (n, cs.drop ds.length) else none

/-- Reads a number of at most two digits after blanks. -/
def twoDigits? (cs : List Char) : Option (Nat × List Char) := digits? 2 (Text.trimStart cs)

/-- Reads a year after blanks: four digits, or any number of them after a sign. -/
def year? (cs : List Char) : Option (Int × List Char) :=
  match Text.trimStart cs with
  | '-' :: rest => (digits? rest.length rest).map fun (n, rest) => (-(n : Int), rest)
  | '+' :: rest => (digits? rest.length rest).map fun (n, rest) => ((n : Int), rest)
  | cs => (digits? 4 cs).map fun (n, rest) => ((n : Int), rest)

/-- Reads one given character. -/
def char? (c : Char) : List Char → Option (List Char)
  | d :: rest => if d = c then some rest else none
  | [] => none

/-- Reads an optional fraction of a second into nanoseconds; digits beyond the ninth are
dropped. -/
def fraction? : List Char → Option (Nat × List Char)
  | '.' :: cs => (digits? 9 cs).map fun (n, rest) =>
    (n * pow10 (9 - (cs.length - rest.length)), rest.dropWhile Char.isDigit)
  | cs => some (0, cs)

/-- A number written with at least `width` digits. -/
def padded (width : Nat) (n : Nat) : String :=
  let digits := toString n
  Decimal.zeros (width - digits.length) ++ digits

end Calendar

open Calendar

/-! ### Dates -/

namespace Date

/-- Reads a date and nothing after it. -/
def parseChars? (cs : List Char) : Option Date := do
  let (year, cs) ← year? cs
  let cs ← char? '-' cs
  let (month, cs) ← twoDigits? cs
  let cs ← char? '-' cs
  let (day, cs) ← twoDigits? cs
  if cs.isEmpty then ofYmd? year month day else none

/-- Reads a date, blanks around it being ignored. -/
def parse? (s : String) : Option Date := parseChars? (Text.trim s).toList

/-- The text of a date; years outside of 0000 to 9999 have a sign. -/
def text (d : Date) : String :=
  let year := padded 4 d.year.natAbs
  let sign := if d.year < 0 then "-" else if 9999 < d.year then "+" else ""
  sign ++ year ++ "-" ++ padded 2 d.month ++ "-" ++ padded 2 d.day

end Date

/-! ### Times -/

namespace Time

/-- A leap second is written as second sixty. -/
def ofWritten? (hour minute second nanos : Nat) : Option Time :=
  if second = 60 then ofHms? hour minute 59 (1000000000 + nanos)
  else ofHms? hour minute second nanos

/-- Reads hours, minutes and seconds with an optional fraction. -/
def parseSeconds? (cs : List Char) : Option Time := do
  let (hour, cs) ← twoDigits? cs
  let cs ← char? ':' cs
  let (minute, cs) ← twoDigits? cs
  let cs ← char? ':' cs
  let (second, cs) ← twoDigits? cs
  let (nanos, cs) ← fraction? cs
  if cs.isEmpty then ofWritten? hour minute second nanos else none

/-- Reads hours and minutes. -/
def parseMinutes? (cs : List Char) : Option Time := do
  let (hour, cs) ← twoDigits? cs
  let cs ← char? ':' cs
  let (minute, cs) ← twoDigits? cs
  if cs.isEmpty then ofHms? hour minute 0 0 else none

/-- Reads a local time; blanks around it and a final `Z` are ignored. -/
def parse? (s : String) : Option Time :=
  let cs := ((Text.trim s).toList.reverse.dropWhile (· == 'Z')).reverse
  (parseSeconds? cs).or (parseMinutes? cs)

/-- The text of a time without its fraction. -/
def text (t : Time) : String :=
  padded 2 t.hour ++ ":" ++ padded 2 t.minute ++ ":" ++
    padded 2 (t.second + t.nanos / 1000000000)

/-- The fraction in three, six or nine digits, or nothing. -/
def fractionText (nanos : Nat) : String :=
  if nanos = 0 then ""
  else if nanos % 1000000 = 0 then "." ++ padded 3 (nanos / 1000000)
  else if nanos % 1000 = 0 then "." ++ padded 6 (nanos / 1000)
  else "." ++ padded 9 nanos

/-- The text of a time with its fraction. -/
def fullText (t : Time) : String := t.text ++ fractionText (t.nanos % 1000000000)

end Time

/-! ### Instants -/

namespace DateTime

/-- Reads a date and a time divided by `T`; a date alone means its midnight. -/
def parse? (s : String) : Option DateTime :=
  let cs := (Text.trim s).toList
  match Decimal.splitAtFirst (· == 'T') cs with
  | (date, some time) => do
    let date ← Date.parse? (String.ofList date)
    let time ← Time.parse? (String.ofList time)
    some ⟨date, time⟩
  | (date, none) => (Date.parse? (String.ofList date)).map atMidnight

def text (t : DateTime) : String := t.date.text ++ "T" ++ t.time.text

def fullText (t : DateTime) : String := t.date.text ++ "T" ++ t.time.fullText

end DateTime

/-! ### Durations -/

namespace Duration

/-- A duration of either kind. -/
inductive Parsed where
  /-- Years and months, as months. -/
  | yearMonth (months : Int64)
  /-- Days and time, as nanoseconds. -/
  | dayTime (nanos : Int)
  deriving DecidableEq

/-- Splits `1Y2M` into amounts and units. Each unit follows an amount, and nothing is left
over. -/
def components? : List Char → List Char → Option (List (List Char × Char))
  | [], amount => if amount.isEmpty then some [] else none
  | c :: cs, amount =>
    if c.isAlpha then
      if amount.isEmpty then none
      else (components? cs []).map ((amount.reverse, c) :: ·)
    else components? cs (c :: amount)

/-- A number that fits 64 bits. -/
def fits? (n : Int) : Option Int :=
  if -0x8000000000000000 ≤ n ∧ n < 0x8000000000000000 then some n else none

/-- Reads a whole amount with an optional sign, within 64 bits. -/
def whole? (cs : List Char) : Option Int := (Decimal.parseExponent? cs).bind fits?

/-- Reads an amount that may have a sign and a fraction. -/
def amount? (cs : List Char) : Option Float :=
  let (negative, cs) := match cs with
    | '-' :: rest => (true, rest)
    | '+' :: rest => (false, rest)
    | cs => (false, cs)
  let (lead, trail) := Decimal.splitAtFirst (· == '.') cs
  let trail := trail.getD []
  let ds := lead ++ trail
  if ds.isEmpty || !ds.all Char.isDigit then none
  else
    let x := Float.ofScientific (natOfDigits ds) true trail.length
    some (if negative then -x else x)

/-- The date part of a duration. -/
structure DatePart where
  months : Int
  days : Int
  /-- Years or months were written. -/
  yearMonth : Bool

/-- Adds up years and months; the last number of days counts. -/
def datePart? : List (List Char × Char) → DatePart → Option DatePart
  | [], p => some p
  | (amount, unit) :: rest, p => do
    let n ← whole? amount
    match unit with
    | 'Y' =>
      let months ← fits? (p.months + (← fits? (n * 12)))
      datePart? rest { p with months, yearMonth := true }
    | 'M' =>
      let months ← fits? (p.months + n)
      datePart? rest { p with months, yearMonth := true }
    | 'D' => datePart? rest { p with days := n }
    | _ => none

/-- Adds up hours, minutes and seconds in milliseconds, each rounded to the nearest. -/
def timePart? : List (List Char × Char) → Int → Option Int
  | [], millis => some millis
  | (amount, unit) :: rest, millis => do
    let scale : Float ← match unit with
      | 'H' => some 3600000
      | 'M' => some 60000
      | 'S' => some 1000
      | _ => none
    let x ← amount? amount
    let millis ← fits? (millis + (Binary64.toInt64 (Binary64.round (x * scale))).toInt)
    timePart? rest millis

/-- The opposite of a duration that has a sign. There is none where the opposite of a number of
months stops the program. -/
def Parsed.signed? (o : Overflow) (negative : Bool) : Parsed → Option Parsed
  | yearMonth months => (if negative then o.neg? months else some months).map yearMonth
  | dayTime nanos => some (dayTime (if negative then -nanos else nanos))

/-- Takes the sign off a text. -/
def splitSign : List Char → Bool × List Char
  | '-' :: cs => (true, cs)
  | cs => (false, cs)

/-- Reads a duration without its sign. -/
def readBody? (cs : List Char) : Option Parsed := do
  let rest ← char? 'P' cs
  if rest.isEmpty then none
  let (date, time) := Decimal.splitAtFirst (· == 'T') rest
  if time == some [] then none
  let p ← datePart? (← components? date []) ⟨0, 0, false⟩
  if p.yearMonth then
    if p.days != 0 || time.isSome then none
    else some (.yearMonth (Int64.ofInt p.months))
  else
    let days ← fits? (p.days * 86400000)
    let millis ← match time with
      | none => some days
      | some time => timePart? (← components? time []) days
    let nanos ← inRange? (millis * millisecond)
    some (.dayTime nanos)

/-- Reads a duration of either kind, if the text is one, blanks around it being ignored. The sign
is applied to the sum of the components, which may stop the program. -/
def read? (o : Overflow) (s : String) : Option (Option Parsed) :=
  let (negative, cs) := splitSign (Text.trim s).toList
  (readBody? cs).elim (some none) fun p => (p.signed? o negative).map some

/-- Reads a duration of either kind, blanks around it being ignored. -/
def parse? (s : String) : Option Parsed := (read? .wraps s).join

/-- The text of a days-and-time duration, to the millisecond. -/
def dayTimeText (nanos : Int) : String :=
  let total := (milliseconds nanos).natAbs
  let days := total / 86400000
  let hours := total / 3600000 % 24
  let minutes := total / 60000 % 60
  let millis := total % 60000
  let seconds :=
    if millis % 1000 = 0 then toString (millis / 1000) ++ "S"
    else toString (millis / 1000) ++ "." ++ padded 3 (millis % 1000) ++ "S"
  let time :=
    if hours = 0 ∧ minutes = 0 ∧ millis = 0 ∧ days ≠ 0 then ""
    else "T" ++ (if hours = 0 then "" else toString hours ++ "H") ++
      (if minutes = 0 then "" else toString minutes ++ "M") ++
      (if 0 < millis ∨ (hours = 0 ∧ minutes = 0) then seconds else "")
  (if nanos < 0 then "-P" else "P") ++ (if days = 0 then "" else toString days ++ "D") ++ time

/-- The text of a years-and-months duration. -/
def yearMonthText (months : Int) : String :=
  let sign := if months < 0 then "-" else ""
  let years := months.natAbs / 12
  let rest := months.natAbs % 12
  if years = 0 then sign ++ "P" ++ toString rest ++ "M"
  else if rest = 0 then sign ++ "P" ++ toString years ++ "Y"
  else sign ++ "P" ++ toString years ++ "Y" ++ toString rest ++ "M"

end Duration

end Feel
