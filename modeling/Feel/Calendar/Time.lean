import Feel.Calendar.Date

/-!
# Times of day and instants

A time is the number of whole seconds since midnight and a fraction in nanoseconds. A
fraction of a billion or more lies in a leap second, which follows the last second of its
minute. A days-and-time duration is a signed number of nanoseconds.

* `Time.ofHms?`: a time from hours, minutes, seconds and nanoseconds.
* `Time.add`: shifting a time around the clock, with the days that were passed.
* `Time.since`, `DateTime.since`: the duration between two times.
* `DateTime.add?`: shifting an instant.
-/

namespace Feel

/-! ### Durations -/

namespace Duration

/-- Nanoseconds of a second. -/
def second : Int := 1000000000

/-- Nanoseconds of a millisecond. -/
def millisecond : Int := 1000000

/-- The longest duration in nanoseconds: the milliseconds fit 64 bits. -/
def limit : Int := 0x7FFFFFFFFFFFFFFF * millisecond

/-- The duration, if it is within the limits. -/
def inRange? (nanos : Int) : Option Int :=
  if -limit ≤ nanos ∧ nanos ≤ limit then some nanos else none

/-- Whole milliseconds, toward zero. -/
def milliseconds (nanos : Int) : Int := nanos.tdiv millisecond

/-- Whole seconds, toward zero. -/
def seconds (nanos : Int) : Int := nanos.tdiv second

end Duration

/-! ### Times -/

/-- A time of day. -/
structure Time where
  /-- Whole seconds since midnight. -/
  secs : Nat
  /-- The fraction in nanoseconds; a leap second has a billion or more. -/
  nanos : Nat
  valid : secs < 86400 ∧ nanos < 2000000000
  deriving DecidableEq

namespace Time

def midnight : Time := ⟨0, 0, by decide⟩

/-- The time, if both parts are in range. -/
def of? (secs nanos : Nat) : Option Time :=
  if h : secs < 86400 ∧ nanos < 2000000000 then some ⟨secs, nanos, h⟩ else none

/-- The time of hours, minutes, seconds and nanoseconds. Only the last second of a minute
has room for a leap second. -/
def ofHms? (hour minute second nanos : Nat) : Option Time :=
  if 24 ≤ hour ∨ 60 ≤ minute ∨ 60 ≤ second ∨ (1000000000 ≤ nanos ∧ second ≠ 59) then none
  else of? (hour * 3600 + minute * 60 + second) nanos

def hour (t : Time) : Nat := t.secs / 3600

def minute (t : Time) : Nat := t.secs / 60 % 60

def second (t : Time) : Nat := t.secs % 60

/-- The order of times is that of their seconds and fractions. -/
def order (a b : Time) : Ordering := (compare a.secs b.secs).then (compare a.nanos b.nanos)

/-- The duration from `b` to `a` in nanoseconds. A leap second that lies between them
counts. -/
def since (a b : Time) : Int :=
  let leap : Int :=
    if b.secs < a.secs ∧ 1000000000 ≤ b.nanos then 1
    else if a.secs < b.secs ∧ 1000000000 ≤ a.nanos then -1
    else 0
  ((a.secs : Int) - b.secs + leap) * Duration.second + ((a.nanos : Int) - b.nanos)

/-- The time on a clock of `total` nanoseconds since midnight, and the seconds of the whole
days that passed. -/
def wrap (total : Int) : Time × Int :=
  let secs := total / Duration.second
  let inDay := secs % 86400
  let time : Time := ⟨inDay.toNat, (total % Duration.second).toNat, by
    simp only [Duration.second, inDay]; omega⟩
  (time, secs - inDay)

/-- The time shifted by a duration, and the seconds of the whole days that were passed.
A shift that stays within a leap second keeps it. -/
def add (t : Time) (delta : Int) : Time × Int :=
  let whole := Duration.seconds delta
  let part := delta - whole * Duration.second
  let plain : Int := t.secs * Duration.second + t.nanos
  if t.nanos < 1000000000 then wrap (plain + delta)
  else if 0 < whole ∨ (0 < part ∧ 2000000000 ≤ (t.nanos : Int) + part) then
    wrap (plain - Duration.second + delta)
  else if whole < 0 then wrap (plain + delta)
  else
    match of? t.secs ((t.nanos : Int) + part).toNat with
    | some t => (t, 0)
    | none => (t, 0)

end Time

/-! ### Instants -/

/-- A date and a time of day. -/
structure DateTime where
  date : Date
  time : Time
  deriving DecidableEq

namespace DateTime

/-- The start of a day. -/
def atMidnight (d : Date) : DateTime := ⟨d, Time.midnight⟩

def order (a b : DateTime) : Ordering := (a.date.order b.date).then (a.time.order b.time)

/-- The duration from `b` to `a` in nanoseconds. -/
def since (a b : DateTime) : Int :=
  a.date.daysSince b.date * 86400 * Duration.second + a.time.since b.time

/-- The instant shifted by a duration, if it stays in the calendar. -/
def add? (t : DateTime) (delta : Int) : Option DateTime :=
  let (time, passed) := t.time.add delta
  (t.date.addDays? (passed / 86400)).map fun date => ⟨date, time⟩

/-- The seconds since the start of 1970. -/
def epochSecond (t : DateTime) : Int := t.date.epochDay * 86400 + t.time.secs

end DateTime

end Feel
