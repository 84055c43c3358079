import Feel.Builtin.Apply
import Feel.Proofs.CivilDays
import Feel.Proofs.PaddedDigits

/-!
# Dates and times read back

Dates, times and instants are written with a fixed number of digits in each place and are read place
by place. A text has no fraction of a second, so that what is read back is the value without it; a
leap second is written as second sixty and is read as such.

* `Calendar.twoDigits?_padded`, `Calendar.year?_padded`: the places.
* `Date.parse?_text`, `Time.parse?_text`, `DateTime.parse?_text`: the three families.
* `Builtin.Makes.apply_text`: the functions that make them of their texts.
* `Datum.parseTemporal?_text`: what is read from a text, written and read again.
-/

namespace Feel

/-! ### Places -/

namespace Calendar

variable {cs ds rest : List Char} {n w : ℕ}

/-- A row of digits is read up to the most digits or the first other character. -/
theorem digits?_append (h : IsDigits ds n) (hlength : ds.length ≤ w) (hn : n < 2 ^ 63)
    (hrest : ds.length = w ∨ ∀ c ∈ rest.head?, c.isDigit = false) :
    digits? w (ds ++ rest) = some (n, rest) := by
  have hend : (rest.take (w - ds.length)).takeWhile Char.isDigit = [] := by
    rcases hrest with hfull | hother
    · rw [hfull, Nat.sub_self, List.take_zero, List.takeWhile_nil]
    · cases rest with
      | nil => rw [List.take_nil, List.takeWhile_nil]
      | cons c rest =>
        cases w - ds.length with
        | zero => rfl
        | succ k => rw [List.take_succ_cons, List.takeWhile_cons_of_neg (by simp [hother c rfl])]
  have htaken : ((ds ++ rest).take w).takeWhile Char.isDigit = ds := by
    rw [List.take_append, List.take_of_length_le hlength, List.takeWhile_append_of_pos h.digit,
      hend, List.append_nil]
  have hne : ds.isEmpty = false := by simpa using h.nonempty
  unfold digits?
  dsimp only
  rw [htaken, hne, natOfDigits_eq, h.value, List.drop_left]
  exact (if_neg (by decide)).trans (if_pos (by omega))

/-- Blanks are not skipped where digits stand. -/
theorem trimStart_digits (h : IsDigits ds n) (rest : List Char) :
    Text.trimStart (ds ++ rest) = ds ++ rest := by
  obtain ⟨c, cs, rfl⟩ := List.exists_cons_of_ne_nil h.nonempty
  exact Text.trimStart_of_head (h.unblank c List.mem_cons_self)

theorem twoDigits?_padded (h : n < 100) (rest : List Char) :
    twoDigits? ((padded 2 n).toList ++ rest) = some (n, rest) := by
  have hdigits := isDigits_padded 2 n
  have hlength : (padded 2 n).toList.length = 2 := length_padded h (by decide)
  rw [twoDigits?, trimStart_digits hdigits]
  exact digits?_append hdigits (by omega) (by omega) (.inl hlength)

/-- A year without a sign is what its digits denote. -/
theorem year?_digits (h : IsDigits ds n) (hlength : ds.length ≤ 4) (hn : n < 2 ^ 63)
    (hrest : ds.length = 4 ∨ ∀ c ∈ rest.head?, c.isDigit = false) :
    year? (ds ++ rest) = some ((n : ℤ), rest) := by
  have hread := digits?_append h hlength hn hrest
  unfold year?
  rw [trimStart_digits h]
  obtain ⟨c, cs, rfl⟩ := List.exists_cons_of_ne_nil h.nonempty
  rw [List.cons_append] at hread ⊢
  split
  · next heq =>
    exact absurd (List.cons.inj heq).1 (h.ne List.mem_cons_self (by decide))
  · next heq =>
    exact absurd (List.cons.inj heq).1 (h.ne List.mem_cons_self (by decide))
  · rw [hread]
    rfl

/-- Two digits at the end of a text. -/
theorem twoDigits?_last (h : n < 100) : twoDigits? (padded 2 n).toList = some (n, []) := by
  simpa using twoDigits?_padded h []

theorem char?_cons (c : Char) (rest : List Char) : char? c (c :: rest) = some rest :=
  if_pos rfl

end Calendar

open Calendar

/-! ### Dates -/

namespace Date

variable {d : Date}

theorem toList_text (h : 0 ≤ d.year ∧ d.year ≤ 9999) :
    d.text.toList = (padded 4 d.year.toNat).toList ++
      '-' :: ((padded 2 d.month).toList ++ '-' :: (padded 2 d.day).toList) := by
  have hyear : d.year.natAbs = d.year.toNat := by omega
  unfold text
  dsimp only
  rw [if_neg (by omega), if_neg (by omega), hyear]
  simp [String.toList_append]

theorem parseChars?_text (h : 0 ≤ d.year ∧ d.year ≤ 9999) :
    parseChars? d.text.toList = some d := by
  obtain ⟨hfirst, hlast⟩ := d.isDay
  have hmonth := month_of_day (Nat.lt_of_lt_of_le hfirst hlast)
  have hday : d.day ≤ 31 := by
    refine hlast.trans ?_
    unfold daysInMonth
    split <;> try split
    all_goals omega
  have hyear : ((d.year.toNat : ℕ) : ℤ) = d.year := by omega
  have hlength : (padded 4 d.year.toNat).toList.length = 4 := length_padded (by omega) (by decide)
  rw [toList_text h, parseChars?,
    year?_digits (isDigits_padded 4 _) (by omega) (by omega) (.inl hlength)]
  simp only [Option.bind_eq_bind, Option.bind_some, char?_cons, List.isEmpty_nil, if_true, hyear,
    twoDigits?_padded (show d.month < 100 by omega), twoDigits?_last (show d.day < 100 by omega),
    ofYmd?_self]

theorem mem_text (h : 0 ≤ d.year ∧ d.year ≤ 9999) {c : Char} (hc : c ∈ d.text.toList) :
    c.isDigit = true ∨ c = '-' := by
  rw [toList_text h] at hc
  simp only [List.mem_append, List.mem_cons] at hc
  rcases hc with hyear | hmark | hmonth | hmark | hday
  · exact .inl ((isDigits_padded 4 _).digit c hyear)
  · exact .inr hmark
  · exact .inl ((isDigits_padded 2 _).digit c hmonth)
  · exact .inr hmark
  · exact .inl ((isDigits_padded 2 _).digit c hday)

theorem unblank_text (h : 0 ≤ d.year ∧ d.year ≤ 9999) :
    ∀ c ∈ d.text.toList, Text.isBlank c = false := by
  intro c hc
  rcases mem_text h hc with hdigit | rfl
  · exact Text.isBlank_of_isDigit hdigit
  · decide

/-- **A date of four digits of years** is read back from its text. -/
theorem parse?_text (h : 0 ≤ d.year ∧ d.year ≤ 9999) : parse? d.text = some d := by
  rw [parse?, Text.trim_of_unblank (unblank_text h), parseChars?_text h]

end Date

/-! ### Times -/

namespace Time

variable {t : Time}

/-- A time without its fraction; the second of a leap second stays. -/
def wholeSeconds (t : Time) : Time :=
  ⟨t.secs, t.nanos / 1000000000 * 1000000000, by have := t.valid; omega⟩

/-- The fraction of a second in nanoseconds. -/
def fraction (t : Time) : ℕ := t.nanos % 1000000000

theorem wholeSeconds_eq_iff : t.wholeSeconds = t ↔ t.fraction = 0 := by
  obtain ⟨secs, nanos, h⟩ := t
  unfold wholeSeconds fraction
  simp only [mk.injEq, true_and]
  omega

/-- Leap seconds end a minute. -/
def IsProper (t : Time) : Prop := 1000000000 ≤ t.nanos → t.secs % 60 = 59

theorem toList_text (t : Time) :
    t.text.toList = (padded 2 t.hour).toList ++ ':' :: ((padded 2 t.minute).toList ++
      ':' :: (padded 2 (t.second + t.nanos / 1000000000)).toList) := by
  simp [text, String.toList_append]

theorem mem_text {c : Char} (hc : c ∈ t.text.toList) : c.isDigit = true ∨ c = ':' := by
  rw [toList_text] at hc
  simp only [List.mem_append, List.mem_cons] at hc
  rcases hc with hhour | hmark | hminute | hmark | hsecond
  · exact .inl ((isDigits_padded 2 _).digit c hhour)
  · exact .inr hmark
  · exact .inl ((isDigits_padded 2 _).digit c hminute)
  · exact .inr hmark
  · exact .inl ((isDigits_padded 2 _).digit c hsecond)

theorem unblank_text : ∀ c ∈ t.text.toList, Text.isBlank c = false := by
  intro c hc
  rcases mem_text hc with hdigit | rfl
  · exact Text.isBlank_of_isDigit hdigit
  · decide

theorem bounds (t : Time) : t.hour < 24 ∧ t.minute < 60 ∧ t.second < 60 ∧
    t.nanos / 1000000000 < 2 := by
  have hvalid := t.valid
  unfold hour minute second
  omega

theorem of?_wholeSeconds {n : ℕ} (h : t.nanos / 1000000000 * 1000000000 = n) :
    of? t.secs n = some t.wholeSeconds := by
  subst h
  exact dif_pos t.wholeSeconds.valid

/-- A leap second is read from second sixty. -/
theorem ofWritten?_wholeSeconds (h : t.IsProper) :
    ofWritten? t.hour t.minute (t.second + t.nanos / 1000000000) 0 = some t.wholeSeconds := by
  obtain ⟨hhour, hminute, hsecond, hleap⟩ := t.bounds
  have hsecs : t.hour * 3600 + t.minute * 60 + t.second = t.secs := by
    unfold hour minute second
    omega
  unfold IsProper at h
  by_cases hlast : 1000000000 ≤ t.nanos
  · have hsixty : t.second = 59 := h hlast
    have hone : t.nanos / 1000000000 = 1 := by omega
    rw [hsixty] at hsecs
    rw [ofWritten?, hone, hsixty, if_pos rfl, ofHms?, if_neg (by omega), hsecs]
    exact of?_wholeSeconds (by rw [hone])
  · have hzero : t.nanos / 1000000000 = 0 := by omega
    rw [ofWritten?, hzero, Nat.add_zero, if_neg (by omega), ofHms?, if_neg (by omega), hsecs]
    exact of?_wholeSeconds (by rw [hzero])

theorem parseSeconds?_text (h : t.IsProper) :
    parseSeconds? t.text.toList = some t.wholeSeconds := by
  have hbounds := t.bounds
  rw [toList_text, parseSeconds?]
  simp only [Option.bind_eq_bind, Option.bind_some, char?_cons,
    twoDigits?_padded (show t.hour < 100 by omega),
    twoDigits?_padded (show t.minute < 100 by omega),
    twoDigits?_last (show t.second + t.nanos / 1000000000 < 100 by omega), fraction?,
    List.isEmpty_nil, if_true]
  exact ofWritten?_wholeSeconds h

/-- **A time** is read back from its text without its fraction. -/
theorem parse?_text (h : t.IsProper) : parse? t.text = some t.wholeSeconds := by
  have hzone : ∀ c ∈ t.text.toList, (c == 'Z') = false := by
    intro c hc
    rcases mem_text hc with hdigit | rfl
    · exact Text.beq_of_isDigit rfl hdigit
    · decide
  unfold parse?
  rw [Text.trim_of_unblank unblank_text,
    Text.dropWhile_of_forall fun c hc => hzone c (List.mem_reverse.mp hc), List.reverse_reverse]
  dsimp only
  rw [parseSeconds?_text h, Option.some_or]

theorem isProper_of_ofHms? {hour minute second nanos : ℕ}
    (h : ofHms? hour minute second nanos = some t) : t.IsProper := by
  unfold ofHms? at h
  split at h
  · cases h
  next hparts =>
  unfold of? at h
  split at h
  · cases h
    intro hleap
    dsimp only at hleap ⊢
    omega
  · cases h

/-- Times that are read are proper. -/
theorem isProper_of_parse? {s : String} (h : parse? s = some t) : t.IsProper := by
  unfold parse? at h
  rcases Option.or_eq_some_iff.mp h with hseconds | ⟨-, hminutes⟩
  · unfold parseSeconds? at hseconds
    simp only [Option.bind_eq_bind, Option.bind_eq_some_iff] at hseconds
    obtain ⟨_, -, _, -, _, -, _, -, _, -, _, -, hread⟩ := hseconds
    split at hread
    · unfold ofWritten? at hread
      split at hread
      · exact isProper_of_ofHms? hread
      · exact isProper_of_ofHms? hread
    · cases hread
  · unfold parseMinutes? at hminutes
    simp only [Option.bind_eq_bind, Option.bind_eq_some_iff] at hminutes
    obtain ⟨_, -, _, -, _, -, hread⟩ := hminutes
    split at hread
    · exact isProper_of_ofHms? hread
    · cases hread

/-- A time is no date: two digits stand before its mark. -/
theorem parse?_text_eq_none (t : Time) : Date.parse? t.text = none := by
  have hlength : (padded 2 t.hour).toList.length = 2 := length_padded (by have := t.bounds; omega)
    (by decide)
  rw [Date.parse?, Text.trim_of_unblank unblank_text, toList_text, Date.parseChars?,
    year?_digits (isDigits_padded 2 t.hour) (by omega) (by have := t.bounds; omega) (.inr ?_)]
  · rfl
  · simp

end Time

/-! ### Instants -/

namespace DateTime

variable {t : DateTime}

/-- An instant without the fraction of its second. -/
def wholeSeconds (t : DateTime) : DateTime := ⟨t.date, t.time.wholeSeconds⟩

theorem toList_text (t : DateTime) :
    t.text.toList = t.date.text.toList ++ 'T' :: t.time.text.toList := by
  simp [text, String.toList_append]

theorem unblank_text (h : 0 ≤ t.date.year ∧ t.date.year ≤ 9999) :
    ∀ c ∈ t.text.toList, Text.isBlank c = false := by
  intro c hc
  rw [toList_text, List.mem_append, List.mem_cons] at hc
  rcases hc with hdate | rfl | htime
  · exact Date.unblank_text h c hdate
  · decide
  · exact Time.unblank_text c htime

theorem mark_date (d : Date) (h : 0 ≤ d.year ∧ d.year ≤ 9999) :
    ∀ c ∈ d.text.toList, (c == 'T') = false := by
  intro c hc
  rcases Date.mem_text h hc with hdigit | rfl
  · exact Text.beq_of_isDigit rfl hdigit
  · decide

/-- **An instant** is read back from its text without the fraction of its second. -/
theorem parse?_text (h : 0 ≤ t.date.year ∧ t.date.year ≤ 9999) (htime : t.time.IsProper) :
    parse? t.text = some t.wholeSeconds := by
  have hsplit : Decimal.splitAtFirst (· == 'T') (t.date.text.toList ++ 'T' :: t.time.text.toList) =
      (t.date.text.toList, some t.time.text.toList) :=
    Decimal.splitAtFirst_append (mark_date t.date h) rfl
  unfold parse?
  rw [Text.trim_of_unblank (unblank_text h), toList_text]
  dsimp only
  rw [hsplit]
  dsimp only
  rw [String.ofList_toList, String.ofList_toList, Date.parse?_text h, Time.parse?_text htime]
  rfl

theorem isProper_of_parse? {s : String} (h : parse? s = some t) : t.time.IsProper := by
  unfold parse? at h
  dsimp only at h
  split at h
  · simp only [Option.bind_eq_bind, Option.bind_eq_some_iff] at h
    obtain ⟨date, -, time, htime, h⟩ := h
    cases Option.some.inj h
    exact Time.isProper_of_parse? htime
  · obtain ⟨date, -, rfl⟩ := Option.map_eq_some_iff.mp h
    intro hleap
    cases hleap

end DateTime

/-! ### Temporal texts -/

namespace Datum

variable {κ : Type} {s : String}

/-- What begins with a digit is an instant, a date or a time. -/
theorem parseTemporal?_of_digit {c : Char} {cs : List Char} (hs : s.toList = c :: cs)
    (hc : c.isDigit = true) (hunblank : ∀ c ∈ s.toList, Text.isBlank c = false) :
    parseTemporal? s = if s.toList.contains 'T' then (DateTime.parse? s).map (dateTime (κ := κ))
      else ((Date.parse? s).map date).or ((Time.parse? s).map time) := by
  unfold parseTemporal?
  rw [Text.trim_of_unblank hunblank]
  dsimp only
  split
  · next heq =>
    rw [hs] at heq
    rw [(List.cons.inj heq).1] at hc
    exact absurd hc (by decide)
  · next heq =>
    rw [hs] at heq
    rw [(List.cons.inj heq).1] at hc
    exact absurd hc (by decide)
  · rfl

theorem not_contains {cs : List Char} (h : ∀ c ∈ cs, (c == 'T') = false) :
    cs.contains 'T' = false := by
  rw [List.contains_eq_any_beq, List.any_eq_false]
  intro c hc
  rw [BEq.comm, h c hc]
  decide

theorem exists_digit {s ds rest : List Char} {n : ℕ} (h : IsDigits ds n) (hs : s = ds ++ rest) :
    ∃ c cs, s = c :: cs ∧ c.isDigit = true := by
  obtain ⟨c, cs, rfl⟩ := List.exists_cons_of_ne_nil h.nonempty
  exact ⟨c, cs ++ rest, hs, h.digit c List.mem_cons_self⟩

theorem parseTemporal?_dateText {d : Date} (h : 0 ≤ d.year ∧ d.year ≤ 9999) :
    parseTemporal? d.text = some (date d : Datum κ) := by
  obtain ⟨c, cs, hs, hc⟩ := exists_digit (isDigits_padded 4 d.year.toNat) (Date.toList_text h)
  rw [parseTemporal?_of_digit hs hc (Date.unblank_text h),
    not_contains (DateTime.mark_date d h), Date.parse?_text h]
  rfl

theorem parseTemporal?_timeText {t : Time} (h : t.IsProper) :
    parseTemporal? t.text = some (time t.wholeSeconds : Datum κ) := by
  obtain ⟨c, cs, hs, hc⟩ := exists_digit (isDigits_padded 2 t.hour) t.toList_text
  have hmark : ∀ c ∈ t.text.toList, (c == 'T') = false := by
    intro c hc
    rcases Time.mem_text hc with hdigit | rfl
    · exact Text.beq_of_isDigit rfl hdigit
    · decide
  rw [parseTemporal?_of_digit hs hc Time.unblank_text, not_contains hmark, t.parse?_text_eq_none,
    Time.parse?_text h]
  rfl

theorem parseTemporal?_dateTimeText {t : DateTime} (h : 0 ≤ t.date.year ∧ t.date.year ≤ 9999)
    (htime : t.time.IsProper) :
    parseTemporal? t.text = some (dateTime t.wholeSeconds : Datum κ) := by
  have htext := t.toList_text
  rw [Date.toList_text h, List.append_assoc] at htext
  obtain ⟨c, cs, hs, hc⟩ := exists_digit (isDigits_padded 4 t.date.year.toNat) htext
  have hmark : t.text.toList.contains 'T' = true := by
    rw [DateTime.toList_text, List.contains_iff_mem]
    exact List.mem_append_right _ List.mem_cons_self
  rw [parseTemporal?_of_digit hs hc (DateTime.unblank_text h), hmark, if_pos rfl,
    DateTime.parse?_text h htime]
  rfl

/-- The value without the fraction of its second. -/
def wholeSeconds : Datum κ → Datum κ
  | time t => time t.wholeSeconds
  | dateTime t => dateTime t.wholeSeconds
  | v => v

/-- The fraction of the second in nanoseconds. -/
def fraction : Datum κ → ℕ
  | time t => t.fraction
  | dateTime t => t.time.fraction
  | _ => 0

theorem wholeSeconds_eq_iff {v : Datum κ} : v.wholeSeconds = v ↔ v.fraction = 0 := by
  cases v with
  | time t => simp [wholeSeconds, fraction, Time.wholeSeconds_eq_iff]
  | dateTime t =>
    obtain ⟨d, t⟩ := t
    simp [wholeSeconds, fraction, DateTime.wholeSeconds, Time.wholeSeconds_eq_iff]
  | _ => simp [wholeSeconds, fraction]

/-- Leap seconds of times and instants end a minute. -/
def IsProper : Datum κ → Prop
  | time t => t.IsProper
  | dateTime t => t.time.IsProper
  | _ => True

theorem isProper_of_parseTemporal? {v : Datum κ} (h : parseTemporal? s = some v) :
    v.IsProper := by
  have hduration {s : String} (h : parseDuration? s = some v) : v.IsProper := by
    obtain ⟨p, -, rfl⟩ := Option.map_eq_some_iff.mp h
    cases p <;> trivial
  unfold parseTemporal? at h
  dsimp only at h
  split at h
  · exact hduration h
  · exact hduration h
  · split at h
    · obtain ⟨t, ht, rfl⟩ := Option.map_eq_some_iff.mp h
      exact DateTime.isProper_of_parse? ht
    · rcases Option.or_eq_some_iff.mp h with h | ⟨-, h⟩
      · obtain ⟨d, -, rfl⟩ := Option.map_eq_some_iff.mp h
        trivial
      · obtain ⟨t, ht, rfl⟩ := Option.map_eq_some_iff.mp h
        exact Time.isProper_of_parse? ht

end Datum

/-! ### Conversion functions -/

namespace Builtin

variable {ε : Type} {v : Value} {s : String} {precision : ℕ}
  {invoke : FunctionValue → List Value → Except ε Value}

theorem apply_string (h : v.isNull = false) :
    string.apply [v] precision invoke = .ok (.string v.text) := by
  show Except.ok (if v.isNull then Datum.null else Datum.string v.text) = _
  rw [h]
  rfl

theorem apply_date :
    date.apply [.string s] precision invoke =
      .ok (((dateOf? [.string s]).map .date).getD .null) := rfl

theorem apply_time :
    time.apply [.string s] precision invoke =
      .ok (((timeOf? [.string s]).map .time).getD .null) := rfl

theorem apply_dateAndTime : dateAndTime.apply [.string s] precision invoke =
    .ok (((dateTimeOf? [.string s]).map .dateTime).getD .null) := rfl

/-- The dates, times and instants of the years 0 to 9999, and the functions that make them. -/
inductive Makes : Builtin → Value → Prop
  | date {d : Date} (h : 0 ≤ d.year ∧ d.year ≤ 9999) : Makes date (.date d)
  | time {t : Time} : Makes time (.time t)
  | dateTime {t : DateTime} (h : 0 ≤ t.date.year ∧ t.date.year ≤ 9999) :
    Makes dateAndTime (.dateTime t)

theorem Makes.isNull {f : Builtin} (h : f.Makes v) : v.isNull = false := by
  cases h <;> rfl

theorem Makes.apply_text {f : Builtin} (h : f.Makes v) (hv : v.IsProper) :
    f.apply [.string v.text] precision invoke = .ok v.wholeSeconds := by
  cases h with
  | @date d hd => rw [Datum.text, apply_date, dateOf?, Date.parse?_text hd]; rfl
  | @time t => rw [Datum.text, apply_time, timeOf?, Time.parse?_text hv]; rfl
  | @dateTime t hd =>
    rw [Datum.text, apply_dateAndTime, dateTimeOf?, DateTime.parse?_text hd hv]; rfl

theorem Makes.parse_text {f : Builtin} (h : f.Makes v) (hv : v.IsProper) :
    Datum.parseTemporal? v.text = some v.wholeSeconds := by
  cases h with
  | date hd => rw [Datum.text, Datum.parseTemporal?_dateText hd]; rfl
  | time => rw [Datum.text, Datum.parseTemporal?_timeText hv]; rfl
  | dateTime hd => rw [Datum.text, Datum.parseTemporal?_dateTimeText hd hv]; rfl

end Builtin

/-- **Dates, times and instants that are read from a text** are read from their own texts again, and
made by their functions of what `string` gives, without the fraction of their seconds; so exactly
those without a fraction are kept. -/
theorem Datum.parseTemporal?_text {ε : Type} {s : String} {v : Value} {f : Builtin}
    (h : parseTemporal? s = some v) (hv : f.Makes v) (precision : ℕ)
    (invoke : FunctionValue → List Value → Except ε Value) :
    parseTemporal? v.text = some v.wholeSeconds ∧
    (do f.apply [← Builtin.string.apply [v] precision invoke] precision invoke) =
      .ok v.wholeSeconds ∧
    (v.wholeSeconds = v ↔ v.fraction = 0) := by
  have hproper := isProper_of_parseTemporal? h
  refine ⟨hv.parse_text hproper, ?_, wholeSeconds_eq_iff⟩
  rw [Builtin.apply_string hv.isNull]
  exact hv.apply_text hproper

/-- A leap second is read back, the half of a second in it is lost. -/
theorem Datum.parseTemporal?_text_leap :
    parseTemporal? "23:59:60.5" = some (time ⟨86399, 1500000000, by decide⟩ : Value) ∧
      parseTemporal? (time ⟨86399, 1500000000, by decide⟩ : Value).text =
        some (time ⟨86399, 1000000000, by decide⟩ : Value) :=
  have hread : parseTemporal? "23:59:60.5" = some (time ⟨86399, 1500000000, by decide⟩ : Value) :=
    rfl
  ⟨hread, (parseTemporal?_text (ε := Unit) hread .time 34 fun _ _ => .error ()).1⟩

end Feel
