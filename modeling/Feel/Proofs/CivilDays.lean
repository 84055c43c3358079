import Mathlib.Order.Compare
import Mathlib.Algebra.Order.Group.Int
import Mathlib.Tactic.IntervalCases
import Feel.Calendar.Date

/-!
# Days of the calendar

The number of a day counts the days of the years before, with their leap days, and the days of its
own year up to it. It is strictly increasing in year, month and day, and every number is that of one
day, which is found by counting the years from the first of March.

* `Date.numberOf`: the number of a day by year, month and day.
* `Date.civil_spec`: the day of a number.
* `Date.compare_dayNumber`: dates are ordered as their numbers.
* `Date.ofDayNumber?_eq_some`: numbers and dates correspond.
* `Date.exists_between`: every number between those of two dates is that of a date.
-/

namespace Feel

namespace Date

/-! ### Years -/

/-- The leap days of the years from the first up to a year. -/
def leapDays (year : Int) : Int := year / 4 - year / 100 + year / 400

theorem leapDays_of_isLeap {year : Int} (h : isLeap year = true) :
    leapDays year = leapDays (year - 1) + 1 := by
  simp only [isLeap, Bool.and_eq_true, Bool.or_eq_true, beq_iff_eq, bne_iff_ne] at h
  unfold leapDays
  omega

theorem leapDays_of_not_isLeap {year : Int} (h : isLeap year = false) :
    leapDays year = leapDays (year - 1) := by
  simp only [isLeap, Bool.and_eq_false_iff, Bool.or_eq_false_iff, beq_eq_false_iff_ne,
    bne_eq_false_iff_eq] at h
  unfold leapDays
  omega

/-- The days of the years up to and including a year. -/
def yearEnd (year : Int) : Int := 365 * year + leapDays year

theorem yearEnd_pred (year : Int) : yearEnd (year - 1) + daysInYear year = yearEnd year := by
  unfold yearEnd daysInYear
  cases h : isLeap year with
  | true =>
    have hleap := leapDays_of_isLeap h
    simp only [if_true]
    omega
  | false =>
    have hleap := leapDays_of_not_isLeap h
    simp only [Bool.false_eq_true, if_false]
    omega

theorem yearEnd_mono {y z : Int} (h : y ≤ z) : yearEnd y ≤ yearEnd z := by
  unfold yearEnd leapDays
  omega

/-! ### Months -/

theorem daysBefore_add_le (year : Int) {m n : Nat} (h : m < n) :
    daysBefore year m + daysInMonth year m ≤ daysBefore year n := by
  induction h with
  | refl => exact Nat.le_refl _
  | @step n _ ih =>
    show _ ≤ daysBefore year n + daysInMonth year n
    omega

theorem daysBefore_thirteen (year : Int) : daysBefore year 13 = daysInYear year := by
  simp only [daysBefore, daysInMonth, daysInYear]
  split <;> rfl

/-- Only months have days. -/
theorem month_of_day {year : Int} {month : Nat} (h : 0 < daysInMonth year month) :
    1 ≤ month ∧ month ≤ 12 := by
  unfold daysInMonth at h
  split at h <;> omega

/-! ### Numbers of days -/

/-- The number of a day, in the calendar or beyond its ends. -/
def numberOf (year : Int) (month day : Nat) : Int :=
  yearEnd (year - 1) + daysBefore year month + day

theorem dayNumber_eq (d : Date) : d.dayNumber = numberOf d.year d.month d.day := by
  show 365 * (d.year - 1) + (d.year - 1) / 4 - (d.year - 1) / 100 + (d.year - 1) / 400 +
    ((daysBefore d.year d.month + d.day : Nat) : Int) = _
  unfold numberOf yearEnd leapDays
  omega

/-- A day of a month, in the calendar or beyond its ends. -/
def IsDay (year : Int) (month day : Nat) : Prop := 1 ≤ day ∧ day ≤ daysInMonth year month

theorem isDay (d : Date) : IsDay d.year d.month d.day := by
  have hvalid := d.valid
  simp only [inCalendar, Bool.and_eq_true, decide_eq_true_eq] at hvalid
  exact ⟨hvalid.1.2, hvalid.2⟩

section Order

variable {y z : Int} {m n c d : Nat}

/-- A day is after the end of the year before and not after the end of its own. -/
theorem numberOf_bounds (h : IsDay y m c) :
    yearEnd (y - 1) < numberOf y m c ∧ numberOf y m c ≤ yearEnd y := by
  obtain ⟨hfirst, hlast⟩ := h
  have hmonth := month_of_day (Nat.lt_of_lt_of_le hfirst hlast)
  have hend := daysBefore_add_le y (Nat.lt_succ_of_le hmonth.2)
  rw [Nat.succ_eq_add_one, daysBefore_thirteen] at hend
  have hyear := yearEnd_pred y
  unfold numberOf
  omega

theorem numberOf_lt_of_year (hc : IsDay y m c) (hd : IsDay z n d) (h : y < z) :
    numberOf y m c < numberOf z n d := by
  have hend := (numberOf_bounds hc).2
  have hstart := (numberOf_bounds hd).1
  have hmono : yearEnd y ≤ yearEnd (z - 1) := yearEnd_mono (by omega)
  omega

theorem numberOf_lt_of_month (hc : IsDay y m c) (hd : IsDay y n d) (h : m < n) :
    numberOf y m c < numberOf y n d := by
  have hend := daysBefore_add_le y h
  have hlast := hc.2
  have hfirst := hd.1
  unfold numberOf
  omega

theorem numberOf_lt_of_day (h : c < d) : numberOf y m c < numberOf y m d := by
  unfold numberOf
  omega

/-- The numbers of days are ordered as year, month and day, in this order. -/
theorem compare_numberOf (hc : IsDay y m c) (hd : IsDay z n d) :
    compare (numberOf y m c) (numberOf z n d) =
      (compare y z).then ((compare m n).then (compare c d)) := by
  rcases lt_trichotomy y z with h | rfl | h
  · rw [compare_lt_iff_lt.mpr h, compare_lt_iff_lt.mpr (numberOf_lt_of_year hc hd h)]
    rfl
  · rw [compare_eq_iff_eq.mpr (rfl : y = y), Ordering.eq_then]
    rcases lt_trichotomy m n with h | rfl | h
    · rw [compare_lt_iff_lt.mpr h, compare_lt_iff_lt.mpr (numberOf_lt_of_month hc hd h)]
      rfl
    · rw [compare_eq_iff_eq.mpr (rfl : m = m), Ordering.eq_then]
      rcases lt_trichotomy c d with h | rfl | h
      · rw [compare_lt_iff_lt.mpr h, compare_lt_iff_lt.mpr (numberOf_lt_of_day h)]
      · rw [compare_eq_iff_eq.mpr rfl, compare_eq_iff_eq.mpr rfl]
      · rw [compare_gt_iff_gt.mpr h, compare_gt_iff_gt.mpr (numberOf_lt_of_day h)]
    · rw [compare_gt_iff_gt.mpr h, compare_gt_iff_gt.mpr (numberOf_lt_of_month hd hc h)]
      rfl
  · rw [compare_gt_iff_gt.mpr h, compare_gt_iff_gt.mpr (numberOf_lt_of_year hd hc h)]
    rfl

theorem eq_of_numberOf (hc : IsDay y m c) (hd : IsDay z n d)
    (h : numberOf y m c = numberOf z n d) : y = z ∧ m = n ∧ c = d := by
  have heq := compare_numberOf hc hd
  rw [compare_eq_iff_eq.mpr h, eq_comm, Ordering.then_eq_eq, Ordering.then_eq_eq] at heq
  exact ⟨compare_eq_iff_eq.mp heq.1, compare_eq_iff_eq.mp heq.2.1, compare_eq_iff_eq.mp heq.2.2⟩

end Order

/-- **Dates are ordered as the numbers of their days.** -/
theorem compare_dayNumber (a b : Date) : compare a.dayNumber b.dayNumber = a.order b := by
  rw [dayNumber_eq, dayNumber_eq, compare_numberOf a.isDay b.isDay]
  rfl

/-! ### The day of a number -/

/-- The year of a day in an era of 400 years, found by counting the days of its centuries and of its
groups of four years. -/
def yearOfEra (day : Int) : Int := (day - day / 1460 + day / 36524 - day / 146096) / 365

theorem yearOfEra_spec (day : Int) (h : 0 ≤ day ∧ day < 146097) :
    0 ≤ yearOfEra day ∧ yearOfEra day < 400 ∧
      yearEnd (yearOfEra day) ≤ day ∧ day < yearEnd (yearOfEra day + 1) := by
  obtain ⟨y, hy⟩ : ∃ y, yearOfEra day = y := ⟨_, rfl⟩
  have hdays : 365 * y ≤ day - day / 1460 + day / 36524 - day / 146096 ∧
      day - day / 1460 + day / 36524 - day / 146096 < 365 * y + 365 := by
    unfold yearOfEra at hy
    omega
  have hnext := yearEnd_pred (y + 1)
  rw [hy]
  by_cases hlast : day = 146096
  · subst hlast
    obtain rfl : y = 399 := by omega
    decide
  have hera : day / 146096 = 0 := by omega
  obtain ⟨c, hc⟩ : ∃ c, day / 36524 = c := ⟨_, rfl⟩
  have hcentury : c = 0 ∨ c = 1 ∨ c = 2 ∨ c = 3 := by omega
  rw [hera, hc] at hdays
  have hyear : y / 100 = c ∧ y / 400 = 0 ∧
      (day / 1460 = y / 4 ∨ day / 1460 = y / 4 + 1 ∧ y % 4 = 3) := by
    rcases hcentury with rfl | rfl | rfl | rfl <;> omega
  obtain ⟨h100, h400, hquarter⟩ := hyear
  unfold yearEnd leapDays at hnext ⊢
  refine ⟨by omega, by omega, ?_, ?_⟩
  · omega
  · rcases hquarter with hquarter | ⟨hquarter, hthird⟩
    · have hlength : 365 ≤ daysInYear (y + 1) := by
        unfold daysInYear
        split <;> omega
      rw [Int.add_sub_cancel] at hnext
      omega
    · by_cases hends : y % 100 = 99
      · omega
      · omega

theorem yearEnd_add_eras (y k : Int) : yearEnd (y + k * 400) = yearEnd y + k * 146097 := by
  unfold yearEnd leapDays
  omega

/-- From March on the lengths of the months follow a rule: five months have 153 days. -/
theorem daysInMonth_fromMarch (year : Int) {k : Nat} (h : k < 10) :
    daysInMonth year (k + 3) = (153 * (k + 1) + 2) / 5 - (153 * k + 2) / 5 := by
  interval_cases k <;> rfl

theorem daysBefore_fromMarch (year : Int) {k : Nat} (h : k < 10) :
    daysBefore year (k + 3) = 31 + daysInMonth year 2 + (153 * k + 2) / 5 := by
  induction k with
  | zero =>
    show 0 + 0 + 31 + daysInMonth year 2 = _
    omega
  | succ k ih =>
    have hlength := daysInMonth_fromMarch year (k := k) (by omega)
    have hbefore := ih (by omega)
    show daysBefore year (k + 3) + daysInMonth year (k + 3) = _
    omega

theorem daysInYear_eq (year : Int) : daysInYear year = 337 + daysInMonth year 2 := by
  simp only [daysInYear, daysInMonth]
  split <;> rfl

/-- The day that comes `doy` days after the first of March of a year, in the twelve months from
there. -/
theorem marchYear_spec (year doy : Int)
    (h : 0 ≤ doy ∧ doy < yearEnd (year + 1) - yearEnd year) :
    let mp := (5 * doy + 2) / 153
    let day := doy - (153 * mp + 2) / 5 + 1
    let month := if mp < 10 then mp + 3 else mp - 9
    let y := year + if month ≤ 2 then 1 else 0
    IsDay y month.toNat day.toNat ∧
      numberOf y month.toNat day.toNat = yearEnd year + doy - 305 := by
  intro mp day month y
  have hmp : 153 * mp ≤ 5 * doy + 2 ∧ 5 * doy + 2 < 153 * mp + 153 := by omega
  have hday : day = doy - (153 * mp + 2) / 5 + 1 := rfl
  have hthis := yearEnd_pred year
  have hnext := yearEnd_pred (year + 1)
  rw [Int.add_sub_cancel] at hnext
  rw [daysInYear_eq] at hthis hnext
  by_cases hautumn : mp < 10
  · -- March to December
    obtain ⟨k, hk⟩ : ∃ k : Nat, mp = k := Int.eq_ofNat_of_zero_le (by omega)
    have hmonth : month = k + 3 := by rw [← hk]; exact if_pos hautumn
    have hy : y = year := by
      have hlate : ¬ month ≤ 2 := by omega
      simp only [y, if_neg hlate, Int.add_zero]
    have hlength := daysInMonth_fromMarch year (k := k) (by omega)
    have hbefore := daysBefore_fromMarch year (k := k) (by omega)
    have htoNat : month.toNat = k + 3 := by omega
    have hpast : (((153 * k + 2) / 5 : Nat) : Int) = (153 * mp + 2) / 5 := by
      rw [hk]
      norm_cast
    rw [hy, htoNat]
    unfold IsDay numberOf
    omega
  · -- January and February
    have hmonth : month = mp - 9 := if_neg hautumn
    have hshort : daysInMonth (year + 1) 2 ≤ 29 := by
      simp only [daysInMonth]
      split <;> omega
    have hy : y = year + 1 := by
      have hearly : month ≤ 2 := by omega
      simp only [y, if_pos hearly]
    have hcases : month.toNat = 1 ∨ month.toNat = 2 := by omega
    rw [hy]
    unfold IsDay numberOf
    rw [Int.add_sub_cancel]
    rcases hcases with hone | htwo
    · have hjanuary : daysBefore (year + 1) 1 = 0 ∧ daysInMonth (year + 1) 1 = 31 := ⟨rfl, rfl⟩
      rw [hone]
      omega
    · have hfebruary : daysBefore (year + 1) 2 = 31 := rfl
      rw [htwo]
      omega

/-- **The day of a number.** For every number there is a day with it. -/
theorem civil_spec (n : Int) :
    IsDay (civil n).1 (civil n).2.1 (civil n).2.2 ∧
      numberOf (civil n).1 (civil n).2.1 (civil n).2.2 = n := by
  obtain ⟨era, hera⟩ : ∃ era, (n + 305) / 146097 = era := ⟨_, rfl⟩
  obtain ⟨doe, hdoe⟩ : ∃ doe, n + 305 - era * 146097 = doe := ⟨_, rfl⟩
  obtain ⟨hfirst, hlast, hstart, hend⟩ := yearOfEra_spec doe (by omega)
  obtain ⟨yoe, hyoe⟩ : ∃ yoe, yearOfEra doe = yoe := ⟨_, rfl⟩
  rw [hyoe] at hfirst hlast hstart hend
  have hstart' := yearEnd_add_eras yoe era
  have hend' := yearEnd_add_eras (yoe + 1) era
  have hdoy : doe - (365 * yoe + yoe / 4 - yoe / 100) = doe - yearEnd yoe := by
    unfold yearEnd leapDays
    omega
  have hshift : yoe + era * 400 + 1 = yoe + 1 + era * 400 := by omega
  have hmarch := marchYear_spec (yoe + era * 400) (doe - (365 * yoe + yoe / 4 - yoe / 100)) (by
    rw [hshift]
    omega)
  unfold yearOfEra at hyoe
  simp only [civil, hera, hdoe, hyoe]
  refine ⟨hmarch.1, ?_⟩
  rw [hmarch.2]
  omega

/-! ### Dates and numbers -/

/-- **Dates and numbers correspond.** -/
theorem ofDayNumber?_eq_some {n : Int} {d : Date} : ofDayNumber? n = some d ↔ d.dayNumber = n := by
  obtain ⟨hday, hnumber⟩ := civil_spec n
  show ofYmd? (civil n).1 (civil n).2.1 (civil n).2.2 = some d ↔ _
  constructor
  · intro h
    unfold ofYmd? at h
    split at h
    · cases h
      exact (dayNumber_eq _).trans hnumber
    · cases h
  · intro h
    rw [dayNumber_eq, ← hnumber] at h
    obtain ⟨hyear, hmonth, hday⟩ := eq_of_numberOf d.isDay hday h
    rw [← hyear, ← hmonth, ← hday]
    exact ofYmd?_self d

theorem eq_of_dayNumber {a b : Date} (h : a.dayNumber = b.dayNumber) : a = b :=
  Option.some.inj ((ofDayNumber?_eq_some.mpr h).symm.trans (ofDayNumber?_eq_some.mpr rfl))

/-- Every number between those of two dates is that of a date. -/
theorem exists_between {a b : Date} {n : Int} (ha : a.dayNumber ≤ n) (hb : n ≤ b.dayNumber) :
    ∃ d : Date, d.dayNumber = n := by
  obtain ⟨hday, hnumber⟩ := civil_spec n
  have hfirst : a.year ≤ (civil n).1 := by
    by_contra hearlier
    have hlt := numberOf_lt_of_year hday a.isDay (by omega)
    rw [← dayNumber_eq] at hlt
    omega
  have hlast : (civil n).1 ≤ b.year := by
    by_contra hlater
    have hlt := numberOf_lt_of_year b.isDay hday (by omega)
    rw [← dayNumber_eq] at hlt
    omega
  have hleft := a.valid
  have hright := b.valid
  simp only [inCalendar, Bool.and_eq_true, decide_eq_true_eq] at hleft hright
  refine ⟨⟨(civil n).1, (civil n).2.1, (civil n).2.2, ?_⟩, (dayNumber_eq _).trans hnumber⟩
  simp only [inCalendar, Bool.and_eq_true, decide_eq_true_eq]
  exact ⟨⟨⟨by omega, by omega⟩, hday.1⟩, hday.2⟩

end Date

end Feel
