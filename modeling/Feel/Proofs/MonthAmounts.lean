import Feel.Builtin.Numeric
import Feel.Eval.Denote
import Feel.Proofs.CivilDays
import Feel.Proofs.DurationTexts
import Feel.Proofs.Equality
import Feel.Proofs.Powers
import Feel.Value.Operators

/-!
# Amounts of months

A years-and-months duration is a number of months in 64 bits. Sums and differences are exact or
null, and so are dates and instants shifted by months. The opposite and the absolute value are exact
for every number but the least, which is its own opposite. A text is added up component by
component, and the sign is applied to the sum. A program that checks its arithmetic stops at the
opposite of the least number, and months are subtracted from a date by adding their opposite.

The months between two instants are those between their calendar months, one less where the last
month is not complete. The place of an instant in its month, its day and its time of day, decides
this, in the same way in both directions. A shift by as many months does not lead past the other
instant, also where the day is cut at the end of a shorter month.

* `Date.shiftMonths?_eq_some`: dates shifted by months.
* `Duration.datePart?_terms`, `Duration.parse?_months`: the sum of the components of a text.
* `Duration.exists_months`: every years-and-months duration that is read has such a text.
* `Datum.StopsIff`: where a program with checks stops.
* `Datum.months_exact`: where each operation is exact or null.
* `DateTime.orderInMonth`: the order of places in a month.
* `Builtin.monthsBetween_swap`: the difference of exchanged instants.
* `Datum.months_between`: the function on dates and instants.
-/

namespace Feel

/-! ## Exact amounts -/

/-! ### Dates -/

namespace Date

/-- The date whose months since the year zero are `n` more, with the day cut at the end of the
month. -/
def IsLater (d : Date) (n : ℤ) (e : Date) : Prop :=
  e.year * 12 + e.month = d.year * 12 + d.month + n ∧ e.day = min d.day (daysInMonth e.year e.month)

theorem month_bounds (d : Date) : 1 ≤ d.month ∧ d.month ≤ 12 :=
  have hday := d.isDay
  month_of_day (Nat.lt_of_lt_of_le hday.1 hday.2)

theorem year_bounds (d : Date) : minYear ≤ d.year ∧ d.year ≤ maxYear := by
  have hvalid := d.valid
  simp only [inCalendar, Bool.and_eq_true, decide_eq_true_eq] at hvalid
  exact ⟨hvalid.1.1.1, hvalid.1.1.2⟩

theorem addMonths?_eq_some {d e : Date} {n : ℤ} : d.addMonths? n = some e ↔ d.IsLater n e := by
  have hd := d.month_bounds
  have he := e.month_bounds
  unfold addMonths? IsLater
  dsimp only
  constructor
  · intro h
    unfold ofYmd? at h
    split at h
    · cases h
      exact ⟨by dsimp only; omega, rfl⟩
    · cases h
  · rintro ⟨htotal, hday⟩
    have hyear : (d.year * 12 + (d.month - 1) + n) / 12 = e.year := by omega
    have hmonth : ((d.year * 12 + (d.month - 1) + n) % 12).toNat + 1 = e.month := by omega
    rw [hyear, hmonth, ← hday, ofYmd?_self]

end Date

/-- **Dates shifted by months**: an amount beyond 32 bits leads out of the calendar. -/
theorem Datum.shiftMonths?_eq_some {d e : Date} {n : ℤ} :
    shiftMonths? d n = some e ↔ d.IsLater n e := by
  unfold shiftMonths?
  split
  · exact Date.addMonths?_eq_some
  · next hn =>
    refine ⟨fun h => (by cases h), fun h => ?_⟩
    have hd := d.year_bounds
    have he := e.year_bounds
    have hdmonth := d.month_bounds
    have hemonth := e.month_bounds
    have htotal := h.1
    unfold Date.minYear Date.maxYear at hd he
    omega

/-! ### Texts -/

namespace Duration

/-- An integer that fits 64 bits. -/
abbrev Fits (z : ℤ) : Prop := -2 ^ 63 ≤ z ∧ z < 2 ^ 63

/-- The months that a component stands for. -/
inductive IsMonths : Part → ℤ → Prop
  | years {amount : List Char} {z : ℤ} (h : IsInteger amount z) : IsMonths (amount, 'Y') (z * 12)
  | months {amount : List Char} {z : ℤ} (h : IsInteger amount z) : IsMonths (amount, 'M') z

/-- Every term and every sum of the first terms fits. -/
inductive SumFits : ℤ → List ℤ → Prop
  | nil {sum : ℤ} : SumFits sum []
  | cons {sum n : ℤ} {terms : List ℤ} (hn : Fits n) (hsum : Fits (sum + n))
      (h : SumFits (sum + n) terms) : SumFits sum (n :: terms)

variable {parts date : List Part} {terms : List ℤ} {p : Part} {n sum days : ℤ} {yearMonth : Bool}

theorem SumFits.total (h : SumFits sum terms) (hsum : Fits sum) : Fits (sum + terms.sum) := by
  induction h with
  | nil => rwa [List.sum_nil, Int.add_zero]
  | cons _ hnext _ ih =>
    rw [List.sum_cons, ← Int.add_assoc]
    exact ih hnext

/-- Terms without signs fit where their sum does. -/
theorem sumFits_iff (hterms : ∀ n ∈ terms, 0 ≤ n) (hsum : 0 ≤ sum ∧ Fits sum) :
    SumFits sum terms ↔ Fits (sum + terms.sum) := by
  refine ⟨fun h => h.total hsum.2, fun h => ?_⟩
  induction terms generalizing sum with
  | nil => exact .nil
  | cons n terms ih =>
    obtain ⟨hn, hterms⟩ := List.forall_mem_cons.mp hterms
    have hrest : 0 ≤ terms.sum := List.sum_nonneg hterms
    rw [List.sum_cons] at h
    have hnext : Fits (sum + n) := by omega
    exact .cons (by omega) hnext (ih hterms ⟨by omega, hnext⟩ (by rwa [Int.add_assoc]))

theorem IsInteger.chars {cs : List Char} {z : ℤ} (h : IsInteger cs z) :
    cs ≠ [] ∧ ∀ c ∈ cs, c.isAlpha = false ∧ Text.isBlank c = false := by
  have hdigits {cs : List Char} {n : ℕ} (h : Calendar.IsDigits cs n) :
      ∀ c ∈ cs, c.isAlpha = false ∧ Text.isBlank c = false :=
    fun c hc => ⟨Text.isAlpha_of_isDigit (h.digit c hc), h.unblank c hc⟩
  cases h with
  | plain h => exact ⟨h.nonempty, hdigits h⟩
  | plus h => exact ⟨List.cons_ne_nil _ _, List.forall_mem_cons.mpr ⟨by decide, hdigits h⟩⟩
  | minus h => exact ⟨List.cons_ne_nil _ _, List.forall_mem_cons.mpr ⟨by decide, hdigits h⟩⟩

theorem IsMonths.isPart (h : IsMonths p n) : IsPart p ∧ p.2 ≠ 'T' := by
  have hpart {amount : List Char} {z : ℤ} (h : IsInteger amount z) {unit : Char}
      (hunit : unit.isAlpha = true ∧ unit ≠ 'T') : IsPart (amount, unit) ∧ unit ≠ 'T' :=
    ⟨⟨h.chars.1, fun c hc => (h.chars.2 c hc).1, fun c hc => (h.chars.2 c hc).2, hunit.1⟩, hunit.2⟩
  cases h with
  | years h => exact hpart h (by decide)
  | months h => exact hpart h (by decide)

theorem datePart?_isMonths (h : IsMonths p n) :
    datePart? (p :: parts) ⟨sum, days, yearMonth⟩ =
      (fits? n).bind fun n =>
        (fits? (sum + n)).bind fun sum => datePart? parts ⟨sum, days, true⟩ := by
  cases h with
  | years h => exact datePart?_monthPart (.inl ⟨rfl, rfl⟩) h
  | months h => simpa using datePart?_monthPart (s := 1) (.inr ⟨rfl, rfl⟩) h

/-- **The components of years and months** add up where no term and no sum on the way is too
large, and fail otherwise. -/
theorem datePart?_terms (h : List.Forall₂ IsMonths parts terms) :
    (SumFits sum terms → datePart? parts ⟨sum, days, yearMonth⟩ =
      some ⟨sum + terms.sum, days, yearMonth || !parts.isEmpty⟩) ∧
    (¬ SumFits sum terms → datePart? parts ⟨sum, days, yearMonth⟩ = none) := by
  induction h generalizing sum yearMonth with
  | nil =>
    refine ⟨fun _ => ?_, fun h => absurd .nil h⟩
    rw [datePart?, List.sum_nil, Int.add_zero, List.isEmpty_nil, Bool.not_true, Bool.or_false]
  | @cons p n parts terms hp hparts ih =>
    rw [datePart?_isMonths hp]
    by_cases hn : Fits n ∧ Fits (sum + n)
    · rw [fits?_eq_some hn.1, Option.bind_some, fits?_eq_some hn.2, Option.bind_some]
      refine ⟨fun h => ?_, fun h => ih.2 fun hterms => h (.cons hn.1 hn.2 hterms)⟩
      cases h with
      | cons _ _ hterms =>
        rw [ih.1 hterms, List.sum_cons, Int.add_assoc]
        simp
    · refine ⟨fun h => ?_, fun _ => ?_⟩
      · cases h with
        | cons h h' => exact absurd ⟨h, h'⟩ hn
      · by_cases hfirst : Fits n
        · rw [fits?_eq_some hfirst, Option.bind_some, fits?_eq_none fun h => hn ⟨hfirst, h⟩,
            Option.bind_none]
        · rw [fits?_eq_none hfirst, Option.bind_none]

/-- The months of a sum and a sign; the opposite of the least number is itself. -/
def signed (negative : Bool) (sum : ℤ) : Int64 :=
  if negative then -Int64.ofInt sum else Int64.ofInt sum

theorem toInt_signed {negative : Bool} (h : Fits sum) (hmin : ¬ (negative = true ∧ sum = -2 ^ 63)) :
    (signed negative sum).toInt = if negative then -sum else sum := by
  unfold signed
  split
  · next hneg =>
    have hsum : sum ≠ -2 ^ 63 := fun hsum => hmin ⟨hneg, hsum⟩
    rw [← Int64.ofInt_neg, Int64.toInt_ofInt_of_le (by omega) (by omega)]
  · exact Int64.toInt_ofInt_of_le (by omega) (by omega)

/-- A text of years and months alone, by its sign and what its components stand for. -/
def IsMonthText (s : String) (negative : Bool) (terms : List ℤ) : Prop :=
  ∃ date, (Text.trim s).toList = write negative date none ∧ List.Forall₂ IsMonths date terms ∧
    terms ≠ []

theorem signed?_yearMonth (negative : Bool) (sum : ℤ) :
    (Parsed.yearMonth (Int64.ofInt sum)).signed? .wraps negative =
      some (.yearMonth (signed negative sum)) := by
  cases negative <;> rfl

theorem parse?_months {s : String} {negative : Bool} (h : IsMonthText s negative terms) :
    (SumFits 0 terms → parse? s = some (.yearMonth (signed negative terms.sum))) ∧
    (¬ SumFits 0 terms → parse? s = none) := by
  obtain ⟨date, hs, hdate, hne⟩ := h
  have hparts : ∀ p ∈ date, IsPart p ∧ p.2 ≠ 'T' :=
    ((List.forall₂_and_left date terms).mp (hdate.imp fun _ _ h => ⟨h.isPart, h⟩)).1
  have hdatene : date ≠ [] := by
    rintro rfl
    exact hne (List.forall₂_nil_left_iff.mp hdate)
  rw [parse?_write hs hparts (by simp) (.inl hdatene), ofParts?]
  constructor
  · intro hfits
    rw [(datePart?_terms hdate).1 hfits, Int.zero_add]
    simp [hdatene, signed?_yearMonth]
  · intro hfits
    rw [(datePart?_terms hdate).2 hfits]
    rfl

/-! ### Every text that is read -/

theorem eq_of_fits? {z w : ℤ} (h : fits? z = some w) : w = z ∧ Fits z := by
  unfold fits? at h
  split at h
  · cases h
    exact ⟨rfl, by omega⟩
  · cases h

theorem isInteger_of_whole? {cs : List Char} {z : ℤ} (h : whole? cs = some z) :
    IsInteger cs z ∧ Fits z := by
  have hdigits {cs : List Char} {n : ℕ}
      (h : (if cs.isEmpty || !cs.all Char.isDigit then none else Decimal.parseDigits? cs 0) =
        some n) : Calendar.IsDigits cs n := by
    split at h
    · cases h
    · next hdigit =>
      simp only [Bool.or_eq_true, Bool.not_eq_true', not_or, Bool.not_eq_true,
        Bool.not_eq_false, List.all_eq_true, List.isEmpty_eq_false_iff] at hdigit
      rw [Decimal.parseDigits?_of_digits hdigit.2] at h
      exact ⟨hdigit.1, hdigit.2, Option.some.inj h⟩
  obtain ⟨w, hw, hz⟩ := Option.bind_eq_some_iff.mp h
  obtain ⟨rfl, hfits⟩ := eq_of_fits? hz
  refine ⟨?_, hfits⟩
  obtain ⟨hread, -⟩ := Option.filter_eq_some_iff.mp hw
  dsimp only at hread
  split at hread
  · obtain ⟨m, hm, rfl⟩ := Option.map_eq_some_iff.mp hread
    obtain ⟨n, hn, hm⟩ := Option.bind_eq_some_iff.mp hm
    rw [← Option.some.inj hm]
    exact .minus (hdigits hn)
  · obtain ⟨n, hn, rfl⟩ := Option.map_eq_some_iff.mp hread
    exact .plus (hdigits hn)
  · obtain ⟨n, hn, rfl⟩ := Option.map_eq_some_iff.mp hread
    exact .plain (hdigits hn)

theorem terms_of_datePart? {p q : DatePart} (h : datePart? parts p = some q) :
    ∃ terms, List.Forall₂ IsMonths (parts.filter (·.2 != 'D')) terms ∧ SumFits p.months terms ∧
      q.months = p.months + terms.sum ∧ q.yearMonth = (p.yearMonth || !terms.isEmpty) := by
  induction parts generalizing p with
  | nil =>
    cases h
    exact ⟨[], .nil, .nil, by simp, by simp⟩
  | cons part parts ih =>
    obtain ⟨amount, unit⟩ := part
    rw [datePart?] at h
    obtain ⟨z, hz, h⟩ := Option.bind_eq_some_iff.mp h
    obtain ⟨hinteger, hfits⟩ := isInteger_of_whole? hz
    split at h
    · obtain ⟨n, hn, h⟩ := Option.bind_eq_some_iff.mp h
      obtain ⟨rfl, hmonths⟩ := eq_of_fits? hn
      obtain ⟨sum, hsum, h⟩ := Option.bind_eq_some_iff.mp h
      obtain ⟨rfl, hfit⟩ := eq_of_fits? hsum
      obtain ⟨terms, hterms, hrest, htotal, hread⟩ := ih h
      exact ⟨z * 12 :: terms, .cons (.years hinteger) hterms, .cons hmonths hfit hrest,
        by rw [htotal, List.sum_cons, Int.add_assoc], by simpa using hread⟩
    · obtain ⟨sum, hsum, h⟩ := Option.bind_eq_some_iff.mp h
      obtain ⟨rfl, hfit⟩ := eq_of_fits? hsum
      obtain ⟨terms, hterms, hrest, htotal, hread⟩ := ih h
      exact ⟨z :: terms, .cons (.months hinteger) hterms, .cons hfits hfit hrest,
        by rw [htotal, List.sum_cons, Int.add_assoc], by simpa using hread⟩
    · obtain ⟨terms, hterms, hrest, htotal, hread⟩ := ih h
      exact ⟨terms, hterms, hrest, htotal, hread⟩
    · cases h

/-- **Every years-and-months duration that is read** is the sum of the components of years and
months of a text without a time; its other components are days. -/
theorem exists_months {s : String} {months : Int64} (h : parse? s = some (.yearMonth months)) :
    ∃ negative date terms, (Text.trim s).toList = write negative date none ∧
      List.Forall₂ IsMonths (date.filter (·.2 != 'D')) terms ∧ terms ≠ [] ∧ SumFits 0 terms ∧
        months = signed negative terms.sum := by
  obtain ⟨negative, date, time, v, hs, hvalue, hsigned⟩ := exists_parts h
  obtain ⟨p, hp, hvalue⟩ := Option.bind_eq_some_iff.mp hvalue
  obtain ⟨terms, hterms, hfits, htotal, hread⟩ := terms_of_datePart? hp
  by_cases hmonths : p.yearMonth = true
  · rw [if_pos hmonths] at hvalue
    split at hvalue
    · cases hvalue
    next hdays =>
    have htime : p.days = 0 ∧ time = none := by simpa using hdays
    rw [hmonths] at hread
    rw [Int.zero_add] at htotal
    refine ⟨negative, date, terms, by rw [hs, htime.2], hterms, ?_, hfits, ?_⟩
    · rintro rfl
      cases hread
    · rw [← Option.some.inj hvalue, signed?_yearMonth, htotal] at hsigned
      exact (Parsed.yearMonth.inj (Option.some.inj hsigned)).symm
  · rw [if_neg hmonths] at hvalue
    obtain ⟨days, -, hvalue⟩ := Option.bind_eq_some_iff.mp hvalue
    obtain ⟨millis, -, hvalue⟩ := Option.bind_eq_some_iff.mp hvalue
    obtain ⟨nanos, -, hvalue⟩ := Option.bind_eq_some_iff.mp hvalue
    rw [← Option.some.inj hvalue] at hsigned
    cases Option.some.inj hsigned

end Duration

/-! ### Exact results -/

namespace Datum

variable {κ : Type}

/-- A value that is the exact result, or null where there is no exact result. -/
def ExactOrNull (exact : Datum κ → Prop) (v : Datum κ) : Prop :=
  exact v ∨ v = null ∧ ∀ w, ¬ exact w

/-- The duration of a number of months. -/
inductive IsMonths : ℤ → Datum κ → Prop
  | intro (months : Int64) : IsMonths months.toInt (yearMonthDuration months)

/-- A date or an instant a number of months later, at the same time of day. -/
inductive IsLater : Datum κ → ℤ → Datum κ → Prop
  | date {d e : Date} {n : ℤ} (h : d.IsLater n e) : IsLater (date d) n (date e)
  | dateTime {d e : Date} {time : Time} {n : ℤ} (h : d.IsLater n e) :
    IsLater (dateTime ⟨d, time⟩) n (dateTime ⟨e, time⟩)

variable {n : ℤ} {m : Int64} {v w : Datum κ}

theorem isMonths_iff : IsMonths n (yearMonthDuration m : Datum κ) ↔ m.toInt = n := by
  constructor
  · intro h
    cases h
    rfl
  · rintro rfl
    exact .intro m

/-- There is a duration of as many months as fit 64 bits. -/
theorem exists_isMonths_iff : (∃ w : Datum κ, IsMonths n w) ↔ Duration.Fits n := by
  constructor
  · rintro ⟨_, ⟨m⟩⟩
    have hlower := Int64.le_toInt m
    have hupper := Int64.toInt_lt m
    exact ⟨hlower, hupper⟩
  · intro h
    have hvalue : (Int64.ofInt n).toInt = n := Int64.toInt_ofInt_of_le (by omega) (by omega)
    exact ⟨yearMonthDuration (Int64.ofInt n), isMonths_iff.mpr hvalue⟩

theorem exactOrNull_months :
    ExactOrNull (IsMonths n) (yearMonthDuration m : Datum κ) ↔ m.toInt = n := by
  rw [ExactOrNull, isMonths_iff]
  simp

theorem exactOrNull_null : ExactOrNull (IsMonths n) (null : Datum κ) ↔ ¬ Duration.Fits n := by
  rw [← exists_isMonths_iff (κ := κ), not_exists, ExactOrNull]
  exact ⟨fun h => h.elim (fun h => nomatch h) fun h => h.2, fun h => .inr ⟨rfl, h⟩⟩

theorem exactOrNull_int64? :
    ExactOrNull (IsMonths n) (((Number.int64? n).map yearMonthDuration).getD null : Datum κ) := by
  by_cases hn : Duration.Fits n
  · obtain ⟨l, hl, hvalue⟩ := Number.int64?_of_range hn
    rw [hl]
    exact exactOrNull_months.mpr hvalue
  · have hnone : Number.int64? n = none := if_neg (by omega)
    rw [hnone]
    exact exactOrNull_null.mpr hn

/-- The opposite is exact but for the least number, which is its own opposite. -/
theorem toInt_neg_iff : (-m).toInt = -m.toInt ↔ m ≠ Int64.minValue := by
  constructor
  · rintro h rfl
    exact absurd h (by decide)
  · intro hmin
    have hvalue : (Duration.signed true m.toInt).toInt = -m.toInt :=
      Duration.toInt_signed ⟨Int64.le_toInt m, Int64.toInt_lt m⟩ fun h =>
        hmin (Int64.toInt_inj.mp h.2)
    rwa [Duration.signed, if_pos rfl, Int64.ofInt_toInt] at hvalue

theorem toInt_abs_iff :
    (if m < 0 then -m else m).toInt = |m.toInt| ↔ m ≠ Int64.minValue := by
  have hzero : (0 : Int64).toInt = 0 := rfl
  split
  · next hneg =>
    have hneg : m.toInt < 0 := by rwa [Int64.lt_iff_toInt_lt, hzero] at hneg
    rw [abs_of_neg hneg]
    exact toInt_neg_iff
  · next hneg =>
    have hnonneg : 0 ≤ m.toInt := by rwa [Int64.lt_iff_toInt_lt, hzero, not_lt] at hneg
    rw [abs_of_nonneg hnonneg]
    exact ⟨fun _ hmin => absurd hnonneg (by rw [hmin]; decide), fun _ => rfl⟩

theorem shiftMonths?_neg (d : Date) (m : Int64) :
    shiftMonths? d (-m).toInt = shiftMonths? d (-m.toInt) := by
  by_cases hmin : m = Int64.minValue
  · rw [hmin]
    rfl
  · rw [toInt_neg_iff.mpr hmin]

/-- A date or an instant shifted by an integer number of months. -/
def laterBy? (n : ℤ) : Datum κ → Option (Datum κ)
  | date d => (shiftMonths? d n).map date
  | dateTime t => (shiftMonths? t.date n).map fun d => dateTime ⟨d, t.time⟩
  | _ => none

theorem shiftByMonths?_eq : v.shiftByMonths? m = v.laterBy? m.toInt := by
  cases v <;> rfl

theorem shiftByMonths?_neg : v.shiftByMonths? (-m) = v.laterBy? (-m.toInt) := by
  cases v with
  | date d => rw [shiftByMonths?, shiftMonths?_neg, laterBy?]
  | dateTime t => rw [shiftByMonths?, shiftMonths?_neg, laterBy?]
  | _ => rfl

theorem laterBy?_eq_some : v.laterBy? n = some w ↔ IsLater v n w := by
  constructor
  · intro h
    cases v with
    | date d =>
      obtain ⟨e, he, rfl⟩ := Option.map_eq_some_iff.mp h
      exact .date (shiftMonths?_eq_some.mp he)
    | dateTime t =>
      obtain ⟨e, he, rfl⟩ := Option.map_eq_some_iff.mp h
      exact .dateTime (shiftMonths?_eq_some.mp he)
    | _ => cases h
  · intro h
    cases h with
    | date h => rw [laterBy?, shiftMonths?_eq_some.mpr h, Option.map_some]
    | dateTime h => rw [laterBy?, shiftMonths?_eq_some.mpr h, Option.map_some]

theorem exactOrNull_laterBy? : ExactOrNull (IsLater v n) ((v.laterBy? n).getD null) := by
  cases h : v.laterBy? n with
  | none =>
    refine .inr ⟨rfl, fun w hw => ?_⟩
    rw [laterBy?_eq_some.mpr hw] at h
    cases h
  | some w => exact .inl (laterBy?_eq_some.mp h)

theorem temporal_later (hv : v.instant?.isSome) :
    temporal .add v (yearMonthDuration m) = (v.laterBy? m.toInt).getD null ∧
    temporal .add (yearMonthDuration m) v = (v.laterBy? m.toInt).getD null ∧
    temporal .sub v (yearMonthDuration m) = (v.laterBy? (-m.toInt)).getD null := by
  rw [← shiftByMonths?_eq, ← shiftByMonths?_neg]
  cases v with
  | date d => exact ⟨rfl, rfl, rfl⟩
  | dateTime t => exact ⟨rfl, rfl, rfl⟩
  | _ => cases hv

theorem exactOrNull_parse {s : String} {negative : Bool} {terms : List ℤ}
    (h : Duration.IsMonthText s negative terms) :
    ExactOrNull (IsMonths (if negative then -terms.sum else terms.sum))
        ((parseDuration? s).getD (null : Datum κ)) ↔
      (Duration.SumFits 0 terms ∧ ¬ (negative = true ∧ terms.sum = -2 ^ 63)) ∨
        (¬ Duration.SumFits 0 terms ∧
          ¬ Duration.Fits (if negative then -terms.sum else terms.sum)) := by
  by_cases hfits : Duration.SumFits 0 terms
  · have hread := (Duration.parse?_months h).1 hfits
    rw [parseDuration?, hread]
    show ExactOrNull _ (yearMonthDuration _) ↔ _
    rw [exactOrNull_months]
    simp only [hfits, true_and, not_true, false_and, or_false]
    constructor
    · rintro hvalue ⟨hneg, hsum⟩
      rw [hneg, hsum] at hvalue
      exact absurd hvalue (by decide)
    · intro hmin
      refine Duration.toInt_signed ?_ hmin
      simpa using hfits.total (by decide)
  · have hread := (Duration.parse?_months h).2 hfits
    rw [parseDuration?, hread]
    show ExactOrNull _ null ↔ _
    rw [exactOrNull_null]
    simp only [hfits, false_and, not_false_eq_true, true_and, false_or]

/-- The sign is applied to the sum, so that the least number of months is missed. -/
theorem exactOrNull_parse_unsigned {s : String} {negative : Bool} {terms : List ℤ}
    (h : Duration.IsMonthText s negative terms) (hterms : ∀ n ∈ terms, 0 ≤ n) :
    ExactOrNull (IsMonths (if negative then -terms.sum else terms.sum))
        ((parseDuration? s).getD (null : Datum κ)) ↔
      ¬ (negative = true ∧ terms.sum = 2 ^ 63) := by
  have hsum : 0 ≤ terms.sum := List.sum_nonneg hterms
  rw [exactOrNull_parse h, Duration.sumFits_iff hterms (by decide), Int.zero_add]
  cases negative <;> simp <;> omega

/-! ### Programs with checks -/

/-- Without checks a program gives `v`, and with checks it stops just where `p` holds and gives the
same elsewhere. -/
def StopsIff {α : Type} (p : Prop) (run : Overflow → Option α) (v : α) : Prop :=
  run .wraps = some v ∧ (p → run .stops = none) ∧ (¬ p → run .stops = some v)

theorem neg?_stops : Overflow.neg? .stops m =
    if m = Int64.minValue then none else some (-m) := by
  rw [Overflow.neg?]
  split
  · next hmin => exact Overflow.result?_of_ne fun h => toInt_neg_iff.mp h hmin
  · next hmin => exact Overflow.result?_of_exact _ (toInt_neg_iff.mpr hmin)

/-- What the opposite of months is used for stops with it. -/
theorem stopsIff_neg {α : Type} (f : Int64 → α) :
    StopsIff (m = Int64.minValue) (fun o => (o.neg? m).map f) (f (-m)) := by
  refine ⟨rfl, fun hmin => ?_, fun hmin => ?_⟩
  · simp only [neg?_stops, if_pos hmin, Option.map_none]
  · simp only [neg?_stops, if_neg hmin, Option.map_some]

theorem stopsIff_absolute : StopsIff (m = Int64.minValue)
    (Builtin.absolute? · (yearMonthDuration m)) (Builtin.absolute (yearMonthDuration m)) := by
  rw [Builtin.absolute_yearMonthDuration]
  simp only [Builtin.absolute?]
  split
  · exact stopsIff_neg yearMonthDuration
  · next hnonneg =>
    refine ⟨rfl, fun hmin => absurd ?_ hnonneg, fun _ => rfl⟩
    rw [hmin]
    decide

/-- Sums never stop a program. -/
theorem stopsIff_add (v w : Datum κ) : StopsIff False (temporal? · .add v w) (temporal .add v w) :=
  ⟨rfl, False.elim, fun _ => rfl⟩

theorem stopsIff_sub (hv : v.instant?.isSome) : StopsIff (m = Int64.minValue)
    (temporal? · .sub v (yearMonthDuration m)) (temporal .sub v (yearMonthDuration m)) := by
  cases v with
  | date d =>
    obtain ⟨hwraps, hstops, hgives⟩ := stopsIff_neg (m := m) (date d : Datum κ).shiftByMonths?
    refine ⟨rfl, fun h => ?_, fun h => ?_⟩
    · exact congrArg (Option.map (·.getD null)) (hstops h)
    · exact congrArg (Option.map (·.getD null)) (hgives h)
  | dateTime t =>
    obtain ⟨hwraps, hstops, hgives⟩ := stopsIff_neg (m := m) (dateTime t : Datum κ).shiftByMonths?
    refine ⟨rfl, fun h => ?_, fun h => ?_⟩
    · exact congrArg (Option.map (·.getD null)) (hstops h)
    · exact congrArg (Option.map (·.getD null)) (hgives h)
  | _ => cases hv

/-- The sign stops a program where it is applied to the least number of months, whose opposite
without checks is itself. -/
theorem stopsIff_read (s : String) :
    StopsIff ((Duration.splitSign (Text.trim s).toList).1 = true ∧
        Duration.parse? s = some (.yearMonth Int64.minValue))
      (Duration.read? · s) (Duration.parse? s) := by
  unfold Duration.parse? Duration.read?
  generalize Duration.splitSign (Text.trim s).toList = signed
  obtain ⟨negative, cs⟩ := signed
  dsimp only
  cases Duration.readBody? cs with
  | none =>
    refine ⟨rfl, fun h => ?_, fun _ => rfl⟩
    cases (show none = some _ from h.2)
  | some p =>
    simp only [Option.elim_some, Duration.join_map_some]
    cases p with
    | dayTime nanos =>
      refine ⟨rfl, fun h => ?_, fun _ => rfl⟩
      cases Option.some.inj h.2
    | yearMonth months =>
      cases negative with
      | false => exact ⟨rfl, fun h => absurd h.1 (by decide), fun _ => rfl⟩
      | true =>
        obtain ⟨-, hstops, hgives⟩ := stopsIff_neg (m := months) Duration.Parsed.yearMonth
        refine ⟨rfl, fun h => ?_, fun h => ?_⟩
        · have hmonths : -months = -Int64.minValue :=
            Duration.Parsed.yearMonth.inj (Option.some.inj h.2)
          exact congrArg (Option.map some) (hstops (Int64.neg_inj.mp hmonths))
        · refine congrArg (Option.map some) (hgives fun hmonths => h ⟨rfl, ?_⟩)
          rw [hmonths]
          rfl

/-! ### The operations -/

/-- **Amounts of months** are exact where the result fits, and null where it does not, with these
exceptions: the opposite and the absolute value of the least amount, the opposite of a text's sum
where this is the least amount, and texts whose components do not add up on the way. Where the
opposite of the least amount is taken a program with checks stops, also where that amount is
subtracted from a date or an instant; no other sum or difference stops it. -/
theorem months_exact (m n : Int64) (v : Value) (s : String) :
    ((ExactOrNull (IsMonths (-m.toInt)) (negate (yearMonthDuration m : Value)) ↔
        m ≠ Int64.minValue) ∧
      StopsIff (m = Int64.minValue) (negate? · (yearMonthDuration m : Value))
        (negate (yearMonthDuration m))) ∧
    ((ExactOrNull (IsMonths |m.toInt|) (Builtin.absolute (yearMonthDuration m)) ↔
        m ≠ Int64.minValue) ∧
      StopsIff (m = Int64.minValue) (Builtin.absolute? · (yearMonthDuration m))
        (Builtin.absolute (yearMonthDuration m))) ∧
    (ExactOrNull (IsMonths (m.toInt + n.toInt))
        (temporal .add (yearMonthDuration m) (yearMonthDuration n) : Value) ∧
      StopsIff False (temporal? · .add (yearMonthDuration m : Value) (yearMonthDuration n))
        (temporal .add (yearMonthDuration m) (yearMonthDuration n))) ∧
    (ExactOrNull (IsMonths (m.toInt - n.toInt))
        (temporal .sub (yearMonthDuration m) (yearMonthDuration n) : Value) ∧
      StopsIff False (temporal? · .sub (yearMonthDuration m : Value) (yearMonthDuration n))
        (temporal .sub (yearMonthDuration m) (yearMonthDuration n))) ∧
    (v.instant?.isSome →
      (ExactOrNull (IsLater v m.toInt) (temporal .add v (yearMonthDuration m)) ∧
        StopsIff False (temporal? · .add v (yearMonthDuration m))
          (temporal .add v (yearMonthDuration m))) ∧
      (ExactOrNull (IsLater v m.toInt) (temporal .add (yearMonthDuration m) v) ∧
        StopsIff False (temporal? · .add (yearMonthDuration m) v)
          (temporal .add (yearMonthDuration m) v)) ∧
      (ExactOrNull (IsLater v (-m.toInt)) (temporal .sub v (yearMonthDuration m)) ∧
        StopsIff (m = Int64.minValue) (temporal? · .sub v (yearMonthDuration m))
          (temporal .sub v (yearMonthDuration m)))) ∧
    (∀ negative terms, Duration.IsMonthText s negative terms →
      (ExactOrNull (IsMonths (if negative then -terms.sum else terms.sum))
          ((parseDuration? s).getD (null : Value)) ↔
        (Duration.SumFits 0 terms ∧ ¬ (negative = true ∧ terms.sum = -2 ^ 63)) ∨
          (¬ Duration.SumFits 0 terms ∧
            ¬ Duration.Fits (if negative then -terms.sum else terms.sum))) ∧
      ((∀ term ∈ terms, 0 ≤ term) →
        (ExactOrNull (IsMonths (if negative then -terms.sum else terms.sum))
            ((parseDuration? s).getD (null : Value)) ↔
          ¬ (negative = true ∧ terms.sum = 2 ^ 63)))) ∧
    (parseDuration? s = some (yearMonthDuration m : Value) →
      ∃ negative date terms, (Text.trim s).toList = Duration.write negative date none ∧
        List.Forall₂ Duration.IsMonths (date.filter (·.2 != 'D')) terms ∧ terms ≠ [] ∧
          Duration.SumFits 0 terms ∧ m = Duration.signed negative terms.sum) ∧
    StopsIff ((Duration.splitSign (Text.trim s).toList).1 = true ∧
        Duration.parse? s = some (.yearMonth Int64.minValue))
      (Duration.read? · s) (Duration.parse? s) := by
  refine ⟨⟨?_, stopsIff_neg _⟩, ⟨?_, stopsIff_absolute⟩, ⟨exactOrNull_int64?, stopsIff_add _ _⟩,
    ⟨exactOrNull_int64?, rfl, False.elim, fun _ => rfl⟩, fun hv => ?_,
    fun negative terms h => ⟨exactOrNull_parse h, exactOrNull_parse_unsigned h⟩, fun h => ?_,
    stopsIff_read s⟩
  · show ExactOrNull _ (yearMonthDuration (-m)) ↔ _
    rw [exactOrNull_months]
    exact toInt_neg_iff
  · rw [Builtin.absolute_yearMonthDuration, exactOrNull_months]
    exact toInt_abs_iff
  · obtain ⟨hadd, hflip, hsub⟩ := temporal_later (m := m) hv
    refine ⟨⟨?_, stopsIff_add _ _⟩, ⟨?_, stopsIff_add _ _⟩, ?_, stopsIff_sub hv⟩
    · exact hadd ▸ exactOrNull_laterBy?
    · exact hflip ▸ exactOrNull_laterBy?
    · exact hsub ▸ exactOrNull_laterBy?
  · obtain ⟨parsed, hparsed, hm⟩ := Option.map_eq_some_iff.mp h
    cases parsed with
    | dayTime nanos => cases hm
    | yearMonth months =>
      cases hm
      exact Duration.exists_months hparsed

/-- The least amount has no opposite, its text is not read, and a month after the end of January
is the end of February. With checks a program stops where the least amount is subtracted from a
date or read with a sign. -/
theorem months_exact_least :
    ¬ ExactOrNull (IsMonths (-Int64.minValue.toInt))
        (negate (yearMonthDuration Int64.minValue : Value)) ∧
      ExactOrNull (IsLater (date ⟨2024, 1, 31, by decide⟩) 1)
        (temporal .add (date ⟨2024, 1, 31, by decide⟩) (yearMonthDuration 1 : Value)) ∧
      temporal? .stops .sub (date ⟨2024, 1, 31, by decide⟩ : Value)
        (yearMonthDuration Int64.minValue) = none ∧
      Duration.read? .stops "-P-768614336404564650Y-8M" = none ∧
      ¬ ExactOrNull (IsMonths (-9223372036854775808))
        ((parseDuration? "-P768614336404564650Y8M").getD (null : Value)) ∧
      ∃ negative date terms, (Text.trim "P1Y2M").toList = Duration.write negative date none ∧
        List.Forall₂ Duration.IsMonths (date.filter (·.2 != 'D')) terms ∧ terms ≠ [] ∧
          Duration.SumFits 0 terms ∧ 14 = Duration.signed negative terms.sum := by
  have htext : Duration.IsMonthText "-P768614336404564650Y8M" true [768614336404564650 * 12, 8] :=
    ⟨[((768614336404564650).repr.toList, 'Y'), ((8).repr.toList, 'M')], by decide,
      .cons (.years (.plain (Calendar.isDigits_repr _)))
        (.cons (.months (.plain (Calendar.isDigits_repr _))) .nil), by decide⟩
  obtain ⟨⟨hneg, -⟩, -, -, -, hleast, hparse, -⟩ :=
    months_exact Int64.minValue 0 (date ⟨2024, 1, 31, by decide⟩) "-P768614336404564650Y8M"
  obtain ⟨-, -, -, -, hlater, -, -, hread⟩ :=
    months_exact 1 0 (date ⟨2024, 1, 31, by decide⟩) "-P-768614336404564650Y-8M"
  obtain ⟨-, -, -, -, -, -, hmonths, -⟩ := months_exact 14 0 null "P1Y2M"
  exact ⟨fun h => hneg.mp h rfl, (hlater rfl).1.1, (hleast rfl).2.2.2.2.1 rfl,
    hread.2.1 ⟨by decide, by decide⟩,
    fun h => ((hparse _ _ htext).2 (by decide)).mp h (by decide), hmonths rfl⟩

end Datum

/-! ## Months between instants -/

namespace Date

variable {d e : Date} {n : ℤ}

/-- The months since the year zero. -/
def months (d : Date) : ℤ := d.year * 12 + d.month

theorem daysInMonth_pos (year : ℤ) {month : ℕ} (h : 1 ≤ month ∧ month ≤ 12) :
    1 ≤ daysInMonth year month := by
  obtain ⟨hlower, hupper⟩ := h
  interval_cases month <;> simp only [daysInMonth] <;> first | omega | (split <;> omega)

/-- **Between two dates** every number of months leads from the first to a date. -/
theorem exists_isLater (hn : 0 ≤ n) (hlast : d.months + n ≤ e.months) : ∃ f, d.IsLater n f := by
  have hd := d.month_bounds
  have he := e.month_bounds
  have hfirst := d.year_bounds
  have hyears := e.year_bounds
  unfold months at hlast
  obtain ⟨year, month, htotal, hmonth⟩ : ∃ (year : ℤ) (month : ℕ),
      year * 12 + month = d.year * 12 + d.month + n ∧ 1 ≤ month ∧ month ≤ 12 :=
    ⟨(d.year * 12 + d.month + n - 1) / 12, ((d.year * 12 + d.month + n - 1) % 12).toNat + 1,
      by omega, by omega⟩
  have hday := daysInMonth_pos year hmonth
  have hvalid : inCalendar year month (min d.day (daysInMonth year month)) = true := by
    have hpos := d.isDay.1
    simp only [inCalendar, Bool.and_eq_true, decide_eq_true_eq]
    exact ⟨⟨⟨by omega, by omega⟩, by omega⟩, by omega⟩
  exact ⟨⟨year, month, _, hvalid⟩, htotal, rfl⟩

end Date

namespace DateTime

variable {s t : DateTime}

/-- The order of day and time, without the month and the year. -/
def orderInMonth : DateTime → DateTime → Ordering :=
  compareLex (compareOn fun t => t.date.day) (compareOn time)

instance : Std.TransCmp orderInMonth :=
  inferInstanceAs (Std.TransCmp (compareLex (compareOn fun t => t.date.day) (compareOn time)))

/-- Instants are ordered by their months, and in one month by their places in it. -/
theorem order_eq_then : s.order t =
    (compare s.date.months t.date.months).then (orderInMonth s t) := by
  have hs := s.date.month_bounds
  have ht := t.date.month_bounds
  rw [order, Date.order, Ordering.then_assoc, Ordering.then_assoc]
  rcases lt_trichotomy s.date.year t.date.year with h | h | h
  · have hmonths : s.date.months < t.date.months := by unfold Date.months; omega
    rw [compare_lt_iff_lt.mpr h, compare_lt_iff_lt.mpr hmonths]
    rfl
  · have hmonths : compare s.date.months t.date.months = compare s.date.month t.date.month := by
      rw [Date.months, Date.months, h]
      rcases lt_trichotomy s.date.month t.date.month with h | h | h
      · rw [compare_lt_iff_lt.mpr h, compare_lt_iff_lt.mpr (by omega)]
      · rw [compare_eq_iff_eq.mpr h, compare_eq_iff_eq.mpr (by omega)]
      · rw [compare_gt_iff_gt.mpr h, compare_gt_iff_gt.mpr (by omega)]
    rw [compare_eq_iff_eq.mpr h, Ordering.eq_then, hmonths]
    rfl
  · have hmonths : t.date.months < s.date.months := by unfold Date.months; omega
    rw [compare_gt_iff_gt.mpr h, compare_gt_iff_gt.mpr hmonths]
    rfl

theorem order_ne_gt_iff : s.order t ≠ .gt ↔ s.date.months < t.date.months ∨
    s.date.months = t.date.months ∧ orderInMonth s t ≠ .gt := by
  rw [order_eq_then]
  rcases lt_trichotomy s.date.months t.date.months with h | h | h
  · simp [compare_lt_iff_lt.mpr h, h]
  · simp [h]
  · simp [compare_gt_iff_gt.mpr h, h.not_gt, h.ne']

/-- An earlier day at the same time has no later place. -/
theorem orderInMonth_ne_gt {r : DateTime} (hday : r.date.day ≤ s.date.day) (htime : r.time = s.time)
    (h : orderInMonth s t ≠ .gt) : orderInMonth r t ≠ .gt := by
  have hrs : (orderInMonth r s).isLE := by
    show ((compare r.date.day s.date.day).then (compare r.time s.time)).isLE
    rw [htime, Std.ReflOrd.compare_self, Ordering.then_eq]
    exact Nat.isLE_compare.mpr hday
  exact Ordering.isLE_iff_ne_gt.mp (Std.TransCmp.isLE_trans hrs (Ordering.isLE_iff_ne_gt.mpr h))

end DateTime

/-! ### Differences -/

namespace Builtin

open DateTime

variable {s t : DateTime}

theorem monthsBetween_eq (s t : DateTime) : monthsBetween s t =
    let months := t.date.months - s.date.months
    if 0 < months ∧ orderInMonth t s = .lt then months - 1
    else if months < 0 ∧ orderInMonth t s = .gt then months + 1
    else months := by
  have hmonths : (t.date.year - s.date.year) * 12 + t.date.month - s.date.month =
      t.date.months - s.date.months := by
    unfold Date.months
    ring
  unfold monthsBetween
  rw [hmonths]
  rfl

/-- **The difference of exchanged instants** is the opposite. -/
theorem monthsBetween_swap (s t : DateTime) : monthsBetween t s = -monthsBetween s t := by
  have hswap : orderInMonth t s = (orderInMonth s t).swap := Std.OrientedCmp.eq_swap
  rw [monthsBetween_eq, monthsBetween_eq, hswap]
  cases orderInMonth s t <;> simp <;> grind

theorem monthsBetween_fits (s t : DateTime) :
    -2 ^ 62 < monthsBetween s t ∧ monthsBetween s t < 2 ^ 62 := by
  have hs := s.date.month_bounds
  have ht := t.date.month_bounds
  have hs' := s.date.year_bounds
  have ht' := t.date.year_bounds
  unfold Date.minYear Date.maxYear at hs' ht'
  unfold monthsBetween
  dsimp only
  split
  · omega
  · split <;> omega

/-- To a later instant the months are those between the two months, less the last one where it is
not complete. They are no less than zero, and lead from the month of the first at most to the month
of the other, where the place has to be reached. -/
theorem monthsBetween_of_le (h : s.order t ≠ .gt) :
    monthsBetween s t =
        t.date.months - s.date.months - (if orderInMonth t s = .lt then 1 else 0) ∧
      0 ≤ monthsBetween s t ∧
      (s.date.months + monthsBetween s t < t.date.months ∨
        s.date.months + monthsBetween s t = t.date.months ∧ orderInMonth s t ≠ .gt) := by
  have hswap : orderInMonth t s = (orderInMonth s t).swap := Std.OrientedCmp.eq_swap
  rw [monthsBetween_eq, hswap]
  rcases order_ne_gt_iff.mp h with hlt | ⟨heq, hplace⟩
  · by_cases hplace : orderInMonth s t = .gt
    · have hearlier : (orderInMonth s t).swap = .lt := by
        rw [hplace]
        rfl
      rw [if_pos ⟨by omega, hearlier⟩, if_pos hearlier]
      omega
    · have hlater : (orderInMonth s t).swap ≠ .lt := fun h => hplace (by simpa using h)
      rw [if_neg fun h => hlater h.2, if_neg (by omega), if_neg hlater]
      exact ⟨by omega, by omega, .inr ⟨by omega, hplace⟩⟩
  · have hlater : (orderInMonth s t).swap ≠ .lt := fun h => hplace (by simpa using h)
    rw [if_neg (by omega), if_neg (by omega), if_neg hlater]
    exact ⟨by omega, by omega, .inr ⟨by omega, hplace⟩⟩

end Builtin

namespace Datum

open DateTime

variable {v w : Value} {s t : DateTime}

/-- A date or an instant that has to be shifted to no more than a later one can be shifted. -/
theorem exists_isLater {n : ℤ} (hv : v.instant? = some s) (hn : 0 ≤ n)
    (hlast : s.date.months + n < t.date.months ∨
      s.date.months + n = t.date.months ∧ orderInMonth s t ≠ .gt) :
    ∃ (u : Value) (r : DateTime), IsLater v n u ∧ u.instant? = some r ∧ r.order t ≠ .gt := by
  obtain ⟨f, hf⟩ : ∃ f, s.date.IsLater n f := Date.exists_isLater (e := t.date) hn (by omega)
  have hmonths : f.months = s.date.months + n := hf.1
  have hday : f.day ≤ s.date.day := by
    rw [hf.2]
    exact Nat.min_le_left ..
  have hbefore : order ⟨f, s.time⟩ t ≠ .gt := by
    refine order_ne_gt_iff.mpr (hlast.imp (fun h => ?_) fun h => ⟨?_, ?_⟩)
    · rwa [hmonths]
    · rw [hmonths, h.1]
    · exact orderInMonth_ne_gt (r := ⟨f, s.time⟩) hday rfl h.2
  cases v with
  | date d =>
    cases hv
    exact ⟨date f, _, .date hf, rfl, hbefore⟩
  | dateTime i =>
    cases hv
    exact ⟨dateTime ⟨f, s.time⟩, _, .dateTime hf, rfl, hbefore⟩
  | _ => cases hv

theorem day_of_isLater {n : ℤ} {u : Value} {r : DateTime} (hv : v.instant? = some s)
    (hu : IsLater v n u) (hr : u.instant? = some r) :
    r.date.months = s.date.months + n ∧ r.date.day ≤ s.date.day ∧ r.time = s.time := by
  cases hu with
  | date h =>
    cases hv
    cases hr
    exact ⟨h.1, h.2 ▸ Nat.min_le_left .., rfl⟩
  | dateTime h =>
    cases hv
    cases hr
    exact ⟨h.1, h.2 ▸ Nat.min_le_left .., rfl⟩

/-- A shift by more months is past a later instant, unless the day is cut. -/
theorem past_of_isLater {n : ℤ} {u : Value} {r : DateTime} (hv : v.instant? = some s)
    (h : s.order t ≠ .gt) (hn : Builtin.monthsBetween s t < n) (hu : IsLater v n u)
    (hr : u.instant? = some r) : r.order t = .gt ∨ r.date.day < s.date.day := by
  obtain ⟨hmonths, hday, htime⟩ := day_of_isLater hv hu hr
  obtain ⟨hexact, -, -⟩ := Builtin.monthsBetween_of_le h
  refine (Nat.lt_or_eq_of_le hday).symm.imp_left fun hday => ?_
  have hplace : orderInMonth r t = orderInMonth s t := by
    simp only [orderInMonth, compareLex, compareOn, hday, htime]
  have hswap : orderInMonth t s = (orderInMonth s t).swap := Std.OrientedCmp.eq_swap
  by_contra hle
  rcases order_ne_gt_iff.mp hle with hlt | ⟨heq, hplaces⟩
  · split at hexact <;> omega
  · rw [hplace] at hplaces
    rw [if_neg fun h => hplaces (by simpa [hswap] using h)] at hexact
    omega

/-- **The months between dates or instants.** Of exchanged arguments they are the exact opposite.
To no earlier instant they are those between the two months, less the last one where the place of
the first in its month is not reached. They are not negative, and the first argument can be shifted
by them, at its time of day and with its day cut at the end of the month, and is then not past the
second. A shift by more months is past it, unless its day is cut. -/
theorem months_between (hv : v.instant? = some s) (hw : w.instant? = some t) (precision : Nat)
    (invoke : FunctionValue → List Value → Except EvalError Value) :
    ∃ m : Int64,
      Action.callBuiltin "years and months duration" [v, w] precision invoke =
        .ok (yearMonthDuration m) ∧
      Action.callBuiltin "years and months duration" [w, v] precision invoke =
        .ok (yearMonthDuration (-m)) ∧
      (-m).toInt = -m.toInt ∧
      (s.order t ≠ .gt →
        m.toInt = t.date.months - s.date.months - (if orderInMonth t s = .lt then 1 else 0) ∧
        0 ≤ m.toInt ∧
        (∃ (u : Value) (r : DateTime), v.shiftByMonths? m = some u ∧ IsLater v m.toInt u ∧
          u.instant? = some r ∧ r.order t ≠ .gt) ∧
        ∀ (n : ℤ) (u : Value) (r : DateTime), m.toInt < n → IsLater v n u →
          u.instant? = some r → r.order t = .gt ∨ r.date.day < s.date.day) := by
  obtain ⟨hlower, hupper⟩ := Builtin.monthsBetween_fits s t
  have hvalue : (Int64.ofInt (Builtin.monthsBetween s t)).toInt = Builtin.monthsBetween s t :=
    Int64.toInt_ofInt_of_le (by omega) (by omega)
  refine ⟨Int64.ofInt (Builtin.monthsBetween s t), ?_, ?_, ?_, fun h => ?_⟩
  · change Except.ok (Builtin.yearsAndMonths v w) = _
    rw [Builtin.yearsAndMonths, hv, hw]
  · change Except.ok (Builtin.yearsAndMonths w v) = _
    rw [Builtin.yearsAndMonths, hv, hw, ← Int64.ofInt_neg, ← Builtin.monthsBetween_swap]
  · rw [← Int64.ofInt_neg, hvalue, Int64.toInt_ofInt_of_le (by omega) (by omega)]
  · obtain ⟨hexact, hn, hlast⟩ := Builtin.monthsBetween_of_le h
    obtain ⟨u, r, hu, hr, hle⟩ := exists_isLater hv hn hlast
    rw [hvalue]
    refine ⟨hexact, hn, ⟨u, r, ?_, hu, hr, hle⟩, fun n u r hn => past_of_isLater hv h hn⟩
    rw [shiftByMonths?_eq, hvalue]
    exact laterBy?_eq_some.mpr hu

/-- From the last day of January to the first of March there is one month, at the end of which is
the last day of February, and two months lead to a day past it. -/
theorem months_between_clamped :
    let v : Value := date ⟨2024, 1, 31, by decide⟩
    let w : Value := dateTime ⟨⟨2024, 3, 1, by decide⟩, ⟨43200, 0, by decide⟩⟩
    ∃ s t, v.instant? = some s ∧ w.instant? = some t ∧ s.order t ≠ .gt ∧
      ∃ m : Int64, m = 1 ∧ (-m).toInt = -m.toInt ∧
        m.toInt = t.date.months - s.date.months - (if orderInMonth t s = .lt then 1 else 0) ∧
        (∃ (u : Value) (r : DateTime), v.shiftByMonths? m = some u ∧ IsLater v m.toInt u ∧
          u.instant? = some r ∧ r.order t ≠ .gt) ∧
        ∀ (n : ℤ) (u : Value) (r : DateTime), m.toInt < n → IsLater v n u →
          u.instant? = some r → r.order t = .gt ∨ r.date.day < s.date.day := by
  intro v w
  refine ⟨_, _, rfl, rfl, by decide, ?_⟩
  obtain ⟨m, hm, -, hneg, hlater⟩ :=
    months_between (v := v) (w := w) rfl rfl 34 fun _ _ => .ok null
  have hone : Action.callBuiltin "years and months duration" [v, w] 34 (fun _ _ => .ok null) =
      .ok (yearMonthDuration 1) := rfl
  cases hone.symm.trans hm
  obtain ⟨hexact, -, hshift⟩ := hlater (by decide)
  exact ⟨1, rfl, hneg, hexact, hshift⟩

end Datum

end Feel
