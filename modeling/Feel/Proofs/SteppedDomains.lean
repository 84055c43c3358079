import Feel.Fragment.OfTerm
import Feel.Proofs.CivilDays
import Feel.Proofs.WholeNumbers

/-!
# Stepped domains

An iteration over a range that is written with both bounds steps from one bound to the other, where
one over a range that is a value computes how many elements there are. For whole numbers and for
dates both give the same elements, up to the representation of numbers, and both refuse a domain
that is too large.

* `Domain.Row`: values that a step leads through, up to the last one.
* `Domain.run_row`: iterations over steps go through a row.
* `Domain.expandWhole_row`, `Domain.expandDates_row`: the elements of a range are a row.
* `Lower.domain_agrees_with_range`: iterations over steps agree with those over the range.
-/

namespace Feel

/-- Two values are numbers that compare as equal, whatever their representations. -/
def Datum.SameNumber (v w : Value) : Prop :=
  ∃ a b : Number, v = .number a ∧ w = .number b ∧ a.order? b = some .eq

namespace Domain

/-! ### Rows -/

/-- A row of values: `At i` holds of those that can stand at place `i`. A step leads to the next
place, the last place is `n`, and only there is the order to the value `last` no longer the
direction of the steps. -/
structure Row (step : Nat → Value → Except EvalError Value) (last : Value) (direction : Ordering)
    (n : Nat) (At : Nat → Value → Prop) : Prop where
  ahead : ∀ i v, i < n → At i v → v.order? last = some direction
  arrived : ∀ v, At n v → v.order? last = some .eq
  next : ∀ turn i v, i < n → At i v → ∃ w, step turn v = .ok w ∧ w.isNull = false ∧ At (i + 1) w

variable {step : Nat → Value → Except EvalError Value} {last : Value} {direction : Ordering}
  {n : Nat} {At : Nat → Value → Prop}

/-- The order to the last value is never the one against the direction. -/
theorem Row.order?_ne_swap (row : Row step last direction n At) (hdirection : direction ≠ .eq)
    {i : Nat} {v : Value} (hi : i ≤ n) (hv : At i v) : v.order? last ≠ some direction.swap := by
  rcases Nat.lt_or_eq_of_le hi with hlt | rfl
  · rw [row.ahead i v hlt hv]
    cases direction <;> simp at hdirection ⊢
  · rw [row.arrived v hv]
    cases direction <;> simp at hdirection ⊢

/-- Steps from place `i` of a row, with `k` places to go, reach the end if their number allows. -/
theorem stepsFrom_row (row : Row step last direction n At) (hdirection : direction ≠ .eq)
    (budget i k : Nat) (hplace : i + k = n) (current : Value) (hcurrent : At i current)
    (before : List Value) :
    (k < budget → ∃ vs, stepsFrom step last direction budget current before =
        .ok (before.reverse ++ vs) ∧ List.Forall₂ At (List.range' i (k + 1)) vs) ∧
      (budget ≤ k →
        stepsFrom step last direction budget current before = .error (.domainTooLarge limit)) := by
  induction budget generalizing i k current before with
  | zero =>
    constructor
    · intro hk
      omega
    · intro _
      rfl
  | succ budget ih =>
    cases k with
    | zero =>
      have hstay : current.order? last ≠ some direction := by
        have harrived := row.arrived current (hplace ▸ hcurrent)
        rw [harrived]
        exact fun heq => hdirection (Option.some.inj heq).symm
      constructor
      · intro _
        refine ⟨[current], ?_, .cons hcurrent .nil⟩
        rw [stepsFrom, if_neg hstay, List.reverse_cons]
      · intro hk
        omega
    | succ k =>
      have hlt : i < n := by omega
      obtain ⟨next, hnext, hnull, hat⟩ := row.next budget i current hlt hcurrent
      have hgo : stepsFrom step last direction (budget + 1) current before =
          stepsFrom step last direction budget next (current :: before) := by
        have hon := row.order?_ne_swap hdirection (i := i + 1) (by omega) hat
        rw [stepsFrom, if_pos (row.ahead i current hlt hcurrent), hnext]
        simp [bind, Except.bind, hon, hnull]
      obtain ⟨hshort, hlong⟩ := ih (i + 1) k (by omega) next hat (current :: before)
      rw [hgo]
      constructor
      · intro hk
        obtain ⟨vs, hvs, hrow⟩ := hshort (by omega)
        refine ⟨current :: vs, ?_, .cons hcurrent hrow⟩
        rw [hvs, List.reverse_cons, List.append_assoc]
        rfl
      · intro hk
        exact hlong (by omega)

/-! ### Lists of rows -/

/-- The values at the places of a row up to place `n`, or the failure of a domain that is too
large. -/
structure ListsRow (x : Except EvalError (List Value)) (n : Nat) (At : Nat → Value → Prop) :
    Prop where
  elements : n < limit → ∃ vs, x = .ok vs ∧ List.Forall₂ At (List.range (n + 1)) vs
  tooLarge : limit ≤ n → x = .error (.domainTooLarge limit)

/-- Both fail alike, or both give elements that correspond one by one. -/
inductive Agree (R : Value → Value → Prop) :
    Except EvalError (List Value) → Except EvalError (List Value) → Prop
  | error (e : EvalError) : Agree R (.error e) (.error e)
  | ok {vs ws : List Value} (h : List.Forall₂ R vs ws) : Agree R (.ok vs) (.ok ws)

theorem forall₂_of_rows {R : Value → Value → Prop} (h : ∀ i v w, At i v → At i w → R v w)
    {places : List Nat} {vs ws : List Value} (hvs : List.Forall₂ At places vs)
    (hws : List.Forall₂ At places ws) : List.Forall₂ R vs ws := by
  induction hvs generalizing ws with
  | nil =>
    cases hws
    exact .nil
  | cons hv _ ih =>
    cases hws with
    | cons hw hws => exact .cons (h _ _ _ hv hw) (ih hws)

theorem ListsRow.agree {x y : Except EvalError (List Value)} {R : Value → Value → Prop}
    (hx : ListsRow x n At) (hy : ListsRow y n At)
    (h : ∀ i v w, At i v → At i w → R v w) : Agree R x y := by
  by_cases hlimit : n < limit
  · obtain ⟨vs, rfl, hvs⟩ := hx.elements hlimit
    obtain ⟨ws, rfl, hws⟩ := hy.elements hlimit
    exact .ok (forall₂_of_rows h hvs hws)
  · rw [hx.tooLarge (by omega), hy.tooLarge (by omega)]
    exact .error _

/-- What agrees up to equality is equal. -/
theorem Agree.eq {x y : Except EvalError (List Value)} (h : Agree Eq x y) : x = y := by
  cases h with
  | error e => rfl
  | ok h =>
    rw [List.forall₂_eq_eq_eq] at h
    rw [h]

section Run

variable {first final : Action} {cursor : String} {successor predecessor : Action} {site : Site}
  {frame : Frame} {s e : Value}

/-- Iterations over steps go through a row in their direction. -/
theorem run_toward (hdirection : direction ≠ .eq) (hfirst : first (0 :: site) frame = .ok s)
    (hfinal : final (1 :: site) frame = .ok e) (horder : s.order? e = some direction)
    (hstart : At 0 s)
    (row : Row (fun n v => (if direction = .gt then predecessor else successor) (n :: 2 :: site)
      (frame.bind cursor v)) e direction n At) :
    ListsRow ((steps first final cursor successor predecessor).run site frame) n At := by
  have hrun : (steps first final cursor successor predecessor).run site frame =
      stepsFrom (fun n v => (if direction = .gt then predecessor else successor)
        (n :: 2 :: site) (frame.bind cursor v)) e direction limit s [] := by
    rw [run, hfirst]
    cases direction with
    | eq => exact absurd rfl hdirection
    | lt => simp [bind, Except.bind, hfinal, horder]
    | gt => simp [bind, Except.bind, hfinal, horder]
  obtain ⟨hshort, hlong⟩ := stepsFrom_row row hdirection limit 0 n (Nat.zero_add n) s hstart []
  rw [hrun]
  refine ⟨?_, hlong⟩
  rw [List.range_eq_range']
  exact hshort

/-- Iterations over steps go through a row, in the direction from the first to the last value. -/
theorem run_row {z w : Int} (hfirst : first (0 :: site) frame = .ok s)
    (hfinal : final (1 :: site) frame = .ok e) (horder : s.order? e = some (compare z w))
    (hstart : At 0 s)
    (hup : z < w → Row (fun n v => successor (n :: 2 :: site) (frame.bind cursor v)) e .lt
      (w - z).natAbs At)
    (hdown : w < z → Row (fun n v => predecessor (n :: 2 :: site) (frame.bind cursor v)) e .gt
      (w - z).natAbs At) :
    ListsRow ((steps first final cursor successor predecessor).run site frame) (w - z).natAbs
      At := by
  rcases lt_trichotomy z w with h | rfl | h
  · rw [compare_lt_iff_lt.mpr h] at horder
    exact run_toward (by decide) hfirst hfinal horder hstart (hup h)
  · have hrun : (steps first final cursor successor predecessor).run site frame = .ok [s] := by
      rw [compare_eq_iff_eq.mpr rfl] at horder
      rw [run, hfirst]
      simp [bind, Except.bind, hfinal, horder, pure, Except.pure]
    rw [Int.sub_self, hrun]
    refine ⟨fun _ => ⟨[s], rfl, .cons hstart .nil⟩, fun hlong => ?_⟩
    exact absurd hlong (by decide)
  · rw [compare_gt_iff_gt.mpr h] at horder
    exact run_toward (by decide) hfirst hfinal horder hstart (hdown h)

end Run

/-! ### Whole numbers and dates -/

/-- Which way whole numbers go in the direction of steps. -/
def sign : Ordering → Int
  | .gt => -1
  | _ => 1

theorem sign_compare (z w : Int) : sign (compare z w) = if z ≤ w then 1 else -1 := by
  rcases lt_trichotomy z w with h | rfl | h
  · rw [compare_lt_iff_lt.mpr h, if_pos h.le]
    rfl
  · rw [compare_eq_iff_eq.mpr rfl, if_pos le_rfl]
    rfl
  · rw [compare_gt_iff_gt.mpr h, if_neg (by omega)]
    rfl

theorem add_sign_mul (z w : Int) : z + sign (compare z w) * (w - z).natAbs = w := by
  rw [sign_compare]
  split <;> omega

theorem compare_toward {direction : Ordering} (h : direction ≠ .eq) (z : Int) {i n : Nat}
    (hi : i < n) : compare (z + sign direction * i) (z + sign direction * n) = direction := by
  cases direction with
  | eq => exact absurd rfl h
  | lt =>
    apply compare_lt_iff_lt.mpr
    simp only [sign]
    omega
  | gt =>
    apply compare_gt_iff_gt.mpr
    simp only [sign]
    omega

/-- The numbers that denote `z` shifted by `i` steps. -/
def numberAt (z step : Int) (i : Nat) (v : Value) : Prop :=
  ∃ a : Number, v = .number a ∧ a.value? = some ((z + step * i : Int) : ℚ)

/-- The dates whose numbers are `z` shifted by `i` steps. -/
def dateAt (z step : Int) (i : Nat) (v : Value) : Prop :=
  ∃ d : Date, v = .date d ∧ d.dayNumber = z + step * i

theorem row_numbers (hdirection : direction ≠ .eq) {z : Int} {b : Number}
    (hlast : b.value? = some ((z + sign direction * n : Int) : ℚ))
    (hstep : ∀ turn a (m : Int), a.value? = some (m : ℚ) → ∃ c, step turn (.number a) =
      .ok (.number c) ∧ c.value? = some ((m + sign direction : Int) : ℚ)) :
    Row step (.number b) direction n (numberAt z (sign direction)) where
  ahead := by
    rintro i v hi ⟨a, rfl, ha⟩
    show a.order? b = _
    rw [Number.order?_of_int ha hlast, compare_toward hdirection z hi]
  arrived := by
    rintro v ⟨a, rfl, ha⟩
    show a.order? b = _
    rw [Number.order?_of_int ha hlast, compare_eq_iff_eq.mpr rfl]
  next := by
    rintro turn i v hi ⟨a, rfl, ha⟩
    obtain ⟨c, hc, hvalue⟩ := hstep turn a _ ha
    refine ⟨.number c, hc, rfl, c, rfl, ?_⟩
    rw [hvalue]
    congr 2
    push_cast
    ring

theorem row_dates (hdirection : direction ≠ .eq) {s e : Date}
    (hlast : e.dayNumber = s.dayNumber + sign direction * n)
    (hstep : ∀ turn (c d : Date), d.dayNumber = c.dayNumber + sign direction →
      step turn (.date c) = .ok (.date d)) :
    Row step (.date e) direction n (dateAt s.dayNumber (sign direction)) where
  ahead := by
    rintro i v hi ⟨d, rfl, hd⟩
    show some (d.order e) = _
    rw [← Date.compare_dayNumber, hd, hlast, compare_toward hdirection _ hi]
  arrived := by
    rintro v ⟨d, rfl, hd⟩
    show some (d.order e) = _
    rw [← Date.compare_dayNumber, hd, hlast, compare_eq_iff_eq.mpr rfl]
  next := by
    rintro turn i v hi ⟨c, rfl, hc⟩
    obtain ⟨d, hd⟩ : ∃ d : Date, d.dayNumber = c.dayNumber + sign direction := by
      cases direction with
      | eq => exact absurd rfl hdirection
      | lt =>
        simp only [sign] at hc hlast ⊢
        exact Date.exists_between (a := s) (b := e) (by omega) (by omega)
      | gt =>
        simp only [sign] at hc hlast ⊢
        exact Date.exists_between (a := e) (b := s) (by omega) (by omega)
    refine ⟨.date d, hstep turn c d hd, rfl, d, rfl, ?_⟩
    rw [hd, hc]
    push_cast
    ring

/-! ### Ranges -/

/-- The elements of a range of whole numbers are a row. -/
theorem expandWhole_row (z w : Int) :
    ListsRow (expandWhole z w true true) (w - z).natAbs (numberAt z (sign (compare z w))) := by
  have hcount : (w - z) * sign (compare z w) + 1 = ((w - z).natAbs + 1 : Nat) := by
    rw [sign_compare]
    split <;> omega
  have hexpand : expandWhole z w true true =
      if limit ≤ (w - z).natAbs then .error (.domainTooLarge limit)
      else .ok (wholes z (sign (compare z w)) ((w - z).natAbs + 1)) := by
    have hpositive : ¬ (((w - z).natAbs + 1 : Nat) : Int) ≤ 0 := by omega
    simp only [expandWhole, if_true, ← sign_compare, hcount, if_neg hpositive, Int.toNat_natCast,
      Int.ofNat_lt, Nat.lt_succ_iff]
  constructor
  · intro h
    refine ⟨wholes z (sign (compare z w)) ((w - z).natAbs + 1), ?_, ?_⟩
    · rw [hexpand, if_neg (by omega)]
    · refine List.forall₂_map_right_iff.mpr (List.forall₂_same.mpr fun i _ => ?_)
      refine ⟨_, rfl, ?_⟩
      rw [Number.value_ofInt, Int.mul_comm]
  · intro h
    rw [hexpand, if_pos h]

theorem forall₂_filterMap {α β : Type} {P : α → β → Prop} {f : α → Option β} {l : List α}
    (h : ∀ a ∈ l, ∃ b, f a = some b ∧ P a b) : List.Forall₂ P l (l.filterMap f) := by
  induction l with
  | nil => exact .nil
  | cons a l ih =>
    obtain ⟨b, hb, hP⟩ := h a List.mem_cons_self
    rw [List.filterMap_cons_some hb]
    exact .cons hP (ih fun c hc => h c (List.mem_cons_of_mem a hc))

/-- The elements of a range of dates are a row. -/
theorem expandDates_row (s e : Date) :
    ListsRow (expandDates s e true true) (e.dayNumber - s.dayNumber).natAbs
      (dateAt s.dayNumber (sign (compare s.dayNumber e.dayNumber))) := by
  obtain ⟨n, hn⟩ : ∃ n, (e.dayNumber - s.dayNumber).natAbs = n := ⟨_, rfl⟩
  obtain ⟨step, hstep⟩ : ∃ step, sign (compare s.dayNumber e.dayNumber) = step := ⟨_, rfl⟩
  have hsign : step = 1 ∧ ¬ e.dayNumber - s.dayNumber < 0 ∨
      step = -1 ∧ e.dayNumber - s.dayNumber < 0 := by
    rw [← hstep, sign_compare]
    split <;> omega
  have hexpand : expandDates s e true true =
      if limit ≤ n then .error (.domainTooLarge limit)
      else .ok (((List.range (n + 1)).filterMap fun (i : Nat) => s.addDays? (i * step)).map
        .date) := by
    rcases hsign with ⟨rfl, hsign⟩ | ⟨rfl, hsign⟩ <;>
      simp only [expandDates, Date.daysSince, hn, hsign, if_true, if_false, Bool.true_or,
        Bool.and_self, List.filter_true]
  rw [hn, hstep]
  constructor
  · intro h
    refine ⟨_, hexpand.trans (if_neg (by omega)), ?_⟩
    refine List.forall₂_map_right_iff.mpr (forall₂_filterMap fun i hi => ?_)
    rw [List.mem_range] at hi
    obtain ⟨d, hd⟩ : ∃ d : Date, d.dayNumber = s.dayNumber + i * step := by
      rcases hsign with ⟨rfl, hsign⟩ | ⟨rfl, hsign⟩
      · exact Date.exists_between (a := s) (b := e) (by omega) (by omega)
      · exact Date.exists_between (a := e) (b := s) (by omega) (by omega)
    refine ⟨d, Date.ofDayNumber?_eq_some.mpr hd, d, rfl, ?_⟩
    rw [hd, Int.mul_comm]
  · intro h
    rw [hexpand, if_pos h]

end Domain

/-! ### Steps between days -/

/-- An instant at midnight stays at midnight when it is shifted by whole days. -/
theorem DateTime.add_days (d : Date) (k : Int) :
    (atMidnight d).add? (k * Lower.dayNanos) = (d.addDays? k).map atMidnight := by
  have hwrap : Time.midnight.add (k * Lower.dayNanos) = (Time.midnight, k * 86400) := by
    have hsecs : k * Lower.dayNanos / Duration.second = k * 86400 := by
      rw [Lower.dayNanos, Duration.second]
      omega
    have hnanos : k * Lower.dayNanos % Duration.second = 0 := by
      rw [Lower.dayNanos, Duration.second]
      omega
    simp [Time.add, Time.midnight, Time.wrap, hsecs, hnanos]
  simp only [add?, atMidnight, hwrap]
  rw [Int.mul_ediv_cancel _ (by decide)]
  rfl

namespace Lower

variable {offset : Int}

/-- The next value of a number in a cursor. -/
theorem stepCode_number (kind : NumberKind) (cursor : String) (m : Machine) (site : Site)
    (frame : Frame) (hoffset : offset.natAbs ≤ 1) {a : Number} {z : Int}
    (ha : a.value? = some (z : ℚ)) :
    ∃ c, (stepCode (.number kind) cursor offset).denote m site (frame.bind cursor (.number a)) =
      .ok (.number c) ∧ c.value? = some ((z + offset : Int) : ℚ) := by
  have hone : (Number.integer (Int32.ofInt offset)).value? = some (offset : ℚ) := by
    rw [Number.value?, Int32.toInt_ofInt_of_le (by omega) (by omega)]
  obtain ⟨n, n', hn, hn', hvalue, hvalue', -⟩ := Number.arith?_exact .add ha hone
  have hsum : Number.RingOp.add.onRat (z : ℚ) offset = ((z + offset : Int) : ℚ) := by
    rw [Int.cast_add]
    rfl
  rw [hsum] at hvalue hvalue'
  have hdenote : (stepCode (.number kind) cursor offset).denote m site
      (frame.bind cursor (.number a)) =
        .ok (Datum.arith .add (.number a) (.int offset)
          (if Fragment.isExact (.number kind) then .decimal else .native) m.precision) := by
    rw [stepCode, Code.denote_arith_local, Frame.lookup_bind_self]
    rfl
  rw [hdenote]
  by_cases hexact : Fragment.isExact (.number kind) = true
  · rw [if_pos hexact]
    refine ⟨n', congrArg (fun x => Except.ok (Datum.ofNumber? x)) hn', hvalue'⟩
  · rw [if_neg hexact]
    refine ⟨n, congrArg (fun x => Except.ok (Datum.ofNumber? x)) hn, hvalue⟩

theorem stepCode_date (cursor : String) (m : Machine) (site : Site) (frame : Frame) {c d : Date}
    (h : d.dayNumber = c.dayNumber + offset) :
    (stepCode .date cursor offset).denote m site (frame.bind cursor (.date c)) =
      .ok (.date d) := by
  have hadd : c.addDays? offset = some d := Date.ofDayNumber?_eq_some.mpr h
  have hshift : (Datum.date c : Value).shift? (offset * dayNanos) = some (.date d) := by
    simp only [Datum.shift?, DateTime.add_days, hadd]
    rfl
  show (Code.temporal .add (.local cursor) (.const (.dayTimeDuration (offset * dayNanos)))).denote
    m site _ = _
  rw [Code.denote_temporal_local, Frame.lookup_bind_self]
  exact congrArg (fun x : Option Value => Except.ok (x.getD .null)) hshift

/-- A range with both bounds, written where an iteration runs over it, becomes steps between the
bounds. -/
theorem domain_eq_steps {part : DomainPart} {bounds : BoundParts} {scope : Scope}
    {draft draft₁ draft₂ : Draft} {start finish : Fragment} (hbounds : part.bounds = some bounds)
    (hclosed : bounds.startIncluded = true ∧ bounds.endIncluded = true)
    (hsteps : hasSteps part.element = true)
    (hstart : bounds.start scope draft = .ok (start, draft₁))
    (hfinish : bounds.finish scope draft₁ = .ok (finish, draft₂)) :
    domain part scope draft = .ok (.steps start.code finish.code (draft₂.fresh "cursor").1
      (stepCode part.element (draft₂.fresh "cursor").1 1)
      (stepCode part.element (draft₂.fresh "cursor").1 (-1)), (draft₂.fresh "cursor").2) := by
  unfold domain
  rw [hbounds]
  simp only [bind, StateT.bind, hstart, Except.bind, hfinish, hclosed.1, hclosed.2, hsteps,
    Bool.and_self, if_true]
  rfl

section Agreement

variable {kind : NumberKind} {cursor : String} {start finish : Code} {m : Machine} {site : Site}
  {frame : Frame} {s e : Value}

/-- Steps from one whole number to another list the row between them. -/
theorem run_steps_numbers {a b : Number} {z w : Int} (ha : a.value? = some (z : ℚ))
    (hb : b.value? = some (w : ℚ)) (hs : start.denote m (0 :: site) frame = .ok (.number a))
    (he : finish.denote m (1 :: site) frame = .ok (.number b)) :
    Domain.ListsRow ((Code.denoteDomain m (.steps start finish cursor
      (stepCode (.number kind) cursor 1) (stepCode (.number kind) cursor (-1)))).run site frame)
      (w - z).natAbs (Domain.numberAt z (Domain.sign (compare z w))) := by
  have hlast : b.value? =
      some ((z + Domain.sign (compare z w) * (w - z).natAbs : Int) : ℚ) := by
    rw [Domain.add_sign_mul]
    exact hb
  refine Domain.run_row hs he (Number.order?_of_int ha hb) ⟨a, rfl, by simpa using ha⟩
    (fun h => ?_) fun h => ?_
  · rw [compare_lt_iff_lt.mpr h] at hlast ⊢
    exact Domain.row_numbers (by decide) hlast fun turn c n hc =>
      stepCode_number kind cursor m _ frame (by decide) hc
  · rw [compare_gt_iff_gt.mpr h] at hlast ⊢
    exact Domain.row_numbers (by decide) hlast fun turn c n hc =>
      stepCode_number kind cursor m _ frame (by decide) hc

/-- Steps from one date to another list the row between them. -/
theorem run_steps_dates {a b : Date} (hs : start.denote m (0 :: site) frame = .ok (.date a))
    (he : finish.denote m (1 :: site) frame = .ok (.date b)) :
    Domain.ListsRow ((Code.denoteDomain m (.steps start finish cursor
      (stepCode .date cursor 1) (stepCode .date cursor (-1)))).run site frame)
      (b.dayNumber - a.dayNumber).natAbs
      (Domain.dateAt a.dayNumber (Domain.sign (compare a.dayNumber b.dayNumber))) := by
  have hlast := (Domain.add_sign_mul a.dayNumber b.dayNumber).symm
  have horder : (Datum.date a : Value).order? (.date b) =
      some (compare a.dayNumber b.dayNumber) := by
    rw [Date.compare_dayNumber]
    rfl
  refine Domain.run_row hs he horder ⟨a, rfl, by simp⟩ (fun h => ?_) fun h => ?_
  · rw [compare_lt_iff_lt.mpr h] at hlast ⊢
    exact Domain.row_dates (by decide) hlast fun turn c d hd =>
      stepCode_date cursor m _ frame hd
  · rw [compare_gt_iff_gt.mpr h] at hlast ⊢
    exact Domain.row_dates (by decide) hlast fun turn c d hd =>
      stepCode_date cursor m _ frame hd

end Agreement

/-- **Stepped domains agree with ranges.** A range that is written with both bounds where an
iteration runs over numbers or dates becomes steps between its bounds. If the bounds are then two
integers, the steps give numerically the elements of the range that is a value, and if they are two
dates exactly these elements; and both fail alike if there are too many. -/
theorem domain_agrees_with_range (part : DomainPart) {bounds : BoundParts} (scope : Scope)
    (draft : Draft) {draft₁ draft₂ : Draft} {start finish : Fragment}
    (hbounds : part.bounds = some bounds)
    (hclosed : bounds.startIncluded = true ∧ bounds.endIncluded = true)
    (hsteps : hasSteps part.element = true)
    (hstart : bounds.start scope draft = .ok (start, draft₁))
    (hfinish : bounds.finish scope draft₁ = .ok (finish, draft₂)) :
    ∃ cursor draft₃,
      let steps := Domain.steps start.code finish.code cursor (stepCode part.element cursor 1)
        (stepCode part.element cursor (-1))
      domain part scope draft = .ok (steps, draft₃) ∧
      ∀ (m : Machine) (site : Site) (frame : Frame) (s e : Value),
        start.code.denote m (0 :: site) frame = .ok s →
        finish.code.denote m (1 :: site) frame = .ok e →
        (∀ kind a b z w, part.element = .number kind → s = .number a → e = .number b →
          a.IsInteger z → b.IsInteger w →
          Domain.Agree Datum.SameNumber ((Code.denoteDomain m steps).run site frame)
            (Domain.expand (some s) (some e) true true)) ∧
        ∀ a b, part.element = .date → s = .date a → e = .date b →
          (Code.denoteDomain m steps).run site frame =
            Domain.expand (some s) (some e) true true := by
  refine ⟨_, _, domain_eq_steps hbounds hclosed hsteps hstart hfinish,
    fun m site frame s e hs he => ⟨?_, ?_⟩⟩
  · rintro kind a b z w helement rfl rfl ha hb
    rw [helement]
    have hexpand : Domain.expand (some (.number a : Value)) (some (.number b)) true true =
        Domain.expandWhole z w true true := by
      obtain ⟨l, hl, rfl⟩ := ha.isWhole.toInt64? ha.range
      obtain ⟨k, hk, rfl⟩ := hb.isWhole.toInt64? hb.range
      rw [Domain.expand, hl, hk]
    rw [hexpand]
    refine (run_steps_numbers ha.value? hb.value? hs he).agree (Domain.expandWhole_row z w) ?_
    rintro i v w ⟨x, hv, hx⟩ ⟨y, hw, hy⟩
    refine ⟨x, y, hv, hw, ?_⟩
    rw [Number.order?_eq_compare hx hy, compare_eq_iff_eq.mpr rfl]
  · rintro a b helement rfl rfl
    rw [helement]
    refine ((run_steps_dates hs he).agree (Domain.expandDates_row a b) ?_).eq
    rintro i v w ⟨x, hv, hx⟩ ⟨y, hw, hy⟩
    rw [hv, hw, Date.eq_of_dayNumber (hx.trans hy.symm)]

/-- Down from 2147483649 to 2147483647, where the integers begin to fit 32 bits. -/
theorem domain_agrees_with_range_downward :
    let part : DomainPart := ⟨"i", .number .long,
      some ⟨fun _ => Fragment.ofValue (.long 2147483649),
        fun _ => Fragment.ofValue (.int 2147483647), true, true⟩,
      fun _ => Fragment.ofValue .null⟩
    let m := Machine.ofPool (fun _ _ => .null) [] Number.defaultPrecision
    ∃ domain draft, Lower.domain part {} {} = .ok (domain, draft) ∧
      Domain.Agree Datum.SameNumber ((Code.denoteDomain m domain).run [] (.ofInput .null))
        (.ok [.long 2147483649, .long 2147483648, .int 2147483647]) := by
  intro part m
  obtain ⟨cursor, draft, hdomain, hagree⟩ :=
    domain_agrees_with_range part {} {} rfl ⟨rfl, rfl⟩ rfl rfl rfl
  exact ⟨_, draft, hdomain, (hagree m [] (.ofInput .null) _ _ rfl rfl).1 .long _ _ _ _ rfl rfl rfl
    (.long _) (.integer _)⟩

end Lower

end Feel
