import Mathlib.Data.Prod.Lex
import Mathlib.Order.Std
import Mathlib.Order.WithBot
import Feel.Builtin.Apply
import Feel.Proofs.Aggregates

/-!
# Relations between ranges

The bounds of ranges that can be compared to one another stand on one scale, to which an end below
and an end above are added for the bounds that are absent. A bound cuts the scale in two, in front
of its place or behind it: a lower bound that belongs to its range cuts in front of it, an upper one
behind it. A range is what lies between its two cuts, and a point lies between the cuts around it.

Cuts are in a linear order, and a relation between ranges compares their cuts. What ties the
relations to one another is then the linear order and nothing else, whichever bounds are included,
absent or shared.

* `Scale.Cut`: the cuts of a scale.
* `Datum.Spans`: the cuts of a range or of a point.
* `Builtin.value_before`, `Builtin.value_overlaps` and the others: relations compare cuts.
* `Datum.contains?_eq`: so does containment.
* `Builtin.relations_coherent`: the relations between ranges fit together.
-/

namespace Feel

/-! ### Cuts of a scale -/

namespace Scale

variable {s : Scale}

/-- The places of a scale, in their order. -/
def At (s : Scale) : Type := s.Place

instance : Ord s.At := ⟨s.order⟩

instance : Std.TransOrd s.At := inferInstanceAs (Std.TransCmp s.order)

instance : Std.LawfulEqOrd s.At := inferInstanceAs (Std.LawfulEqCmp s.order)

instance : LinearOrder s.At := LinearOrder.ofStd s.At

/-- The places of a scale and the ends below and above them. -/
abbrev Reach (s : Scale) : Type := WithBot (WithTop s.At)

/-- A place among the ends. -/
def At.reach (x : s.At) : s.Reach := ((x : WithTop s.At) : s.Reach)

theorem bot_lt_reach (x : s.At) : ⊥ < x.reach := WithBot.bot_lt_coe _

theorem reach_lt_top (x : s.At) : x.reach < ⊤ := WithBot.coe_lt_coe.mpr (WithTop.coe_lt_top x)

theorem compare_reach (x y : s.At) : compare x.reach y.reach = s.order x y := by
  have hmono : StrictMono (At.reach (s := s)) := WithBot.coe_strictMono.comp WithTop.coe_strictMono
  rw [← cmp_eq_compare, hmono.cmp_map_eq, cmp_eq_compare]
  rfl

/-- A cut in front of a place or behind it; the cut behind is marked. -/
abbrev Cut (s : Scale) : Type := s.Reach ×ₗ Bool

/-- The cut in front of a place, or the one behind it. -/
def Reach.cut (x : s.Reach) (behind : Bool) : s.Cut := toLex (x, behind)

/-- Nothing lies between the two cuts at a place. -/
theorem lt_cut_true {c : s.Cut} {x : s.Reach} : c < x.cut true ↔ c ≤ x.cut false := by
  rw [Prod.Lex.lt_iff, Prod.Lex.le_iff]
  cases h : (ofLex c).2 <;> simp [Reach.cut]

theorem cut_false_lt {c : s.Cut} {x : s.Reach} : x.cut false < c ↔ x.cut true ≤ c := by
  rw [Prod.Lex.lt_iff, Prod.Lex.le_iff]
  cases h : (ofLex c).2 <;> simp [Reach.cut]

end Scale

namespace Edge

variable {s : Scale} {e f : Edge} {x y : s.Reach}

/-- Where an edge stands. -/
inductive StandsAt : Edge → s.Reach → Prop
  | below : StandsAt .below ⊥
  | at {v : Value} {x : s.At} (h : v.place? = some ⟨s, x⟩) : StandsAt (.at v) x.reach
  | above : StandsAt .above ⊤

/-- Edges are in the order of where they stand. -/
theorem order?_eq (he : e.StandsAt x) (hf : f.StandsAt y) :
    e.order? f = some (compare x y) := by
  cases he with
  | below =>
    cases hf with
    | below => exact congrArg some (compare_eq_iff_eq.mpr rfl).symm
    | «at» => exact congrArg some (compare_lt_iff_lt.mpr (Scale.bot_lt_reach _)).symm
    | above => exact congrArg some (compare_lt_iff_lt.mpr bot_lt_top).symm
  | «at» hv =>
    cases hf with
    | below => exact congrArg some (compare_gt_iff_gt.mpr (Scale.bot_lt_reach _)).symm
    | «at» hw =>
      rw [Scale.compare_reach]
      exact Datum.order?_of_place? hv hw
    | above => exact congrArg some (compare_lt_iff_lt.mpr (Scale.reach_lt_top _)).symm
  | above =>
    cases hf with
    | below => exact congrArg some (compare_gt_iff_gt.mpr bot_lt_top).symm
    | «at» => exact congrArg some (compare_gt_iff_gt.mpr (Scale.reach_lt_top _)).symm
    | above => exact congrArg some (compare_eq_iff_eq.mpr rfl).symm

theorem lower?_eq (he : e.StandsAt x) (hf : f.StandsAt y) :
    e.lower? f = some (decide (x < y)) := by
  rw [lower?, order?_eq he hf, Option.map_some, Option.some.injEq, Bool.eq_iff_iff, beq_iff_eq,
    compare_lt_iff_lt, decide_eq_true_iff]

theorem same?_eq (he : e.StandsAt x) (hf : f.StandsAt y) :
    e.same? f = some (decide (x = y)) := by
  rw [same?, order?_eq he hf, Option.map_some, Option.some.injEq, Bool.eq_iff_iff, beq_iff_eq,
    compare_eq_iff_eq, decide_eq_true_iff]

theorem same?_comm (h : e.StandsAt x) (hf : f.StandsAt y) : e.same? f = f.same? e := by
  rw [same?_eq h hf, same?_eq hf h, decide_eq_decide.mpr eq_comm]

end Edge

namespace Interval

variable {s : Scale} {a b : Interval} {lo hi lo' hi' : s.Cut}

/-- An interval reaches from one cut to another. -/
structure Between (a : Interval) (lo hi : s.Cut) : Prop where
  start : a.start.StandsAt (ofLex lo).1
  startCut : (ofLex lo).2 = !a.startIncluded
  stop : a.stop.StandsAt (ofLex hi).1
  stopCut : (ofLex hi).2 = a.stopIncluded

@[simp]
theorem orElse_some (p q : Bool) : orElse (some p) (some q) = some (p || q) := by
  cases p <;> rfl

@[simp]
theorem andAlso_some (p q : Bool) : andAlso (some p) (some q) = some (p && q) := by
  cases p <;> rfl

/-- Edges in order, or at one place and their sides in order: the cuts are in order. -/
theorem orElse_le {c d : s.Cut} {side : Bool → Bool} (hfalse : side false = false)
    (htrue : side true = decide ((ofLex c).2 ≤ (ofLex d).2)) :
    orElse (some (decide ((ofLex c).1 < (ofLex d).1)))
      ((some (decide ((ofLex c).1 = (ofLex d).1))).map side) = some (decide (c ≤ d)) := by
  rw [Option.map_some, orElse_some, Option.some.injEq, Bool.eq_iff_iff, decide_eq_true_iff,
    Prod.Lex.le_iff]
  by_cases h : (ofLex c).1 = (ofLex d).1 <;> simp [h, hfalse, htrue]

/-- The same where the sides are in strict order. -/
theorem orElse_lt {c d : s.Cut} {side : Bool → Bool} (hfalse : side false = false)
    (htrue : side true = decide ((ofLex c).2 < (ofLex d).2)) :
    orElse (some (decide ((ofLex c).1 < (ofLex d).1)))
      ((some (decide ((ofLex c).1 = (ofLex d).1))).map side) = some (decide (c < d)) := by
  rw [Option.map_some, orElse_some, Option.some.injEq, Bool.eq_iff_iff, decide_eq_true_iff,
    Prod.Lex.lt_iff]
  by_cases h : (ofLex c).1 = (ofLex d).1 <;> simp [h, hfalse, htrue]

theorem before?_eq (ha : a.Between lo hi) (hb : b.Between lo' hi') :
    a.before? b = some (decide (hi ≤ lo')) := by
  rw [before?, Edge.lower?_eq ha.stop hb.start, Edge.same?_eq ha.stop hb.start]
  refine orElse_le (Bool.false_and _) ?_
  rw [ha.stopCut, hb.startCut]
  cases a.stopIncluded <;> cases b.startIncluded <;> rfl

theorem overlaps?_eq (ha : a.Between lo hi) (hb : b.Between lo' hi') :
    a.overlaps? b = some (decide (lo' < hi ∧ lo < hi')) := by
  have hreaches : orElse (b.start.lower? a.stop)
      ((a.stop.same? b.start).map (· && a.stopIncluded && b.startIncluded)) =
        some (decide (lo' < hi)) := by
    rw [Edge.lower?_eq hb.start ha.stop, Edge.same?_comm ha.stop hb.start,
      Edge.same?_eq hb.start ha.stop]
    refine orElse_lt rfl ?_
    rw [ha.stopCut, hb.startCut]
    cases a.stopIncluded <;> cases b.startIncluded <;> rfl
  have hbegins : orElse (a.start.lower? b.stop)
      ((a.start.same? b.stop).map (· && a.startIncluded && b.stopIncluded)) =
        some (decide (lo < hi')) := by
    rw [Edge.lower?_eq ha.start hb.stop, Edge.same?_eq ha.start hb.stop]
    refine orElse_lt rfl ?_
    rw [ha.startCut, hb.stopCut]
    cases a.startIncluded <;> cases b.stopIncluded <;> rfl
  rw [overlaps?, hreaches, hbegins, Bool.decide_and]
  rfl

theorem cut_eq_iff {c d : s.Cut} :
    c = d ↔ (ofLex c).1 = (ofLex d).1 ∧ (ofLex c).2 = (ofLex d).2 :=
  ofLex_inj.symm.trans Prod.ext_iff

theorem starts?_eq (ha : a.Between lo hi) (hb : b.Between lo' hi') :
    a.starts? b = some (decide (lo = lo' ∧ hi ≤ hi')) := by
  have hstop : orElse (a.stop.lower? b.stop)
      ((a.stop.same? b.stop).map (· && (!a.stopIncluded || b.stopIncluded))) =
        some (decide (hi ≤ hi')) := by
    rw [Edge.lower?_eq ha.stop hb.stop, Edge.same?_eq ha.stop hb.stop]
    refine orElse_le rfl ?_
    rw [ha.stopCut, hb.stopCut]
    cases a.stopIncluded <;> cases b.stopIncluded <;> rfl
  rw [starts?, hstop, Edge.same?_eq ha.start hb.start, andAlso_some, andAlso_some,
    Option.some.injEq, Bool.eq_iff_iff]
  simp only [Bool.and_eq_true, beq_iff_eq, decide_eq_true_iff, cut_eq_iff, ha.startCut,
    hb.startCut, Bool.not_inj_iff]
  tauto

theorem finishes?_eq (ha : a.Between lo hi) (hb : b.Between lo' hi') :
    a.finishes? b = some (decide (hi = hi' ∧ lo' ≤ lo)) := by
  have hstart : orElse (b.start.lower? a.start)
      ((a.start.same? b.start).map (· && (!a.startIncluded || b.startIncluded))) =
        some (decide (lo' ≤ lo)) := by
    rw [Edge.lower?_eq hb.start ha.start, Edge.same?_comm ha.start hb.start,
      Edge.same?_eq hb.start ha.start]
    refine orElse_le rfl ?_
    rw [ha.startCut, hb.startCut]
    cases a.startIncluded <;> cases b.startIncluded <;> rfl
  rw [finishes?, hstart, Edge.same?_eq ha.stop hb.stop, andAlso_some, andAlso_some,
    Option.some.injEq, Bool.eq_iff_iff]
  simp only [Bool.and_eq_true, beq_iff_eq, decide_eq_true_iff, cut_eq_iff, ha.stopCut,
    hb.stopCut]
  tauto

theorem coincides?_eq (ha : a.Between lo hi) (hb : b.Between lo' hi') :
    a.coincides? b = some (decide (lo = lo' ∧ hi = hi')) := by
  rw [coincides?, Edge.same?_eq ha.start hb.start, Edge.same?_eq ha.stop hb.stop, andAlso_some,
    andAlso_some, Option.some.injEq, Bool.eq_iff_iff]
  simp only [Bool.and_eq_true, beq_iff_eq, decide_eq_true_iff, cut_eq_iff, ha.startCut,
    hb.startCut, ha.stopCut, hb.stopCut, Bool.not_inj_iff]
  tauto

end Interval

/-! ### Cuts of values -/

namespace Datum

variable {s : Scale} {a b p : Value} {lo hi lo' hi' : s.Cut}

/-- The bounds of a range. -/
def bounds : Value → List Value
  | .range start finish _ _ => start.toList ++ finish.toList
  | _ => []

/-- A range that is not empty: a bound is absent, its start is below its end, or they are equal
and both belong to it. -/
def NonEmpty : Value → Prop
  | .range (some start) (some finish) si ei =>
    start.order? finish = some .lt ∨ start.order? finish = some .eq ∧ si = true ∧ ei = true
  | .range _ _ _ _ => True
  | _ => False

/-- Whether a range contains a value. -/
def contains? : Value → Value → Option Bool
  | .range start finish si ei, p => rangeContains? start finish si ei p
  | _, _ => none

/-- A range or a point reaches from one cut to another. -/
def Spans (a : Value) (lo hi : s.Cut) : Prop :=
  ∃ i, Interval.of? a = some i ∧ i.Between lo hi

/-- A point lies between the cut in front of it and the one behind it. -/
theorem spans_point {x : s.At} (hp : p.place? = some ⟨s, x⟩) :
    p.Spans (x.reach.cut false) (x.reach.cut true) := by
  refine ⟨⟨.at p, true, .at p, true⟩, ?_, ⟨.at hp, rfl, .at hp, rfl⟩⟩
  cases p with
  | null | range => cases hp
  | _ => rfl

/-- The edge of a lower bound. -/
def lowerEdge (start : Option Value) : Edge := (start.map Edge.at).getD .below

/-- The edge of an upper bound. -/
def upperEdge (finish : Option Value) : Edge := (finish.map Edge.at).getD .above

/-- A lower edge is at the end below where there is no bound. -/
theorem lowerEdge_at {x : s.Reach} {start : Option Value} (h : (lowerEdge start).StandsAt x) :
    x = ⊥ ∧ start = none ∨ x ≠ ⊥ ∧ ∃ v ∈ start, ∃ x : s.At, v.place? = some ⟨s, x⟩ := by
  cases start with
  | none =>
    cases h
    exact .inl ⟨rfl, rfl⟩
  | some v =>
    cases h with
    | «at» h => exact .inr ⟨(Scale.bot_lt_reach _).ne', v, rfl, _, h⟩

/-- An upper edge is at the end above where there is no bound. -/
theorem upperEdge_at {x : s.Reach} {finish : Option Value} (h : (upperEdge finish).StandsAt x) :
    x = ⊤ ∧ finish = none ∨ x ≠ ⊤ ∧ ∃ v ∈ finish, ∃ x : s.At, v.place? = some ⟨s, x⟩ := by
  cases finish with
  | none =>
    cases h
    exact .inl ⟨rfl, rfl⟩
  | some v =>
    cases h with
    | «at» h => exact .inr ⟨(Scale.reach_lt_top _).ne, v, rfl, _, h⟩

section Ranges

variable {start finish : Option Value} {si ei : Bool}

/-- The cuts of a range are those of its bounds. -/
theorem between_of_spans (h : (range start finish si ei : Value).Spans lo hi) :
    Interval.Between ⟨lowerEdge start, si, upperEdge finish, ei⟩ lo hi := by
  obtain ⟨i, hi, h⟩ := h
  cases hi
  exact h

/-- A range with bounds on a scale lies between two cuts. -/
theorem exists_spans
    (h : ∀ v ∈ bounds (.range start finish si ei), ∃ x : s.At, v.place? = some ⟨s, x⟩) :
    ∃ lo hi : s.Cut, (range start finish si ei : Value).Spans lo hi := by
  have hlower : ∃ x : s.Reach, (lowerEdge start).StandsAt x := by
    cases start with
    | none => exact ⟨⊥, .below⟩
    | some v =>
      obtain ⟨x, hx⟩ := h v (List.mem_append_left _ (List.mem_singleton.mpr rfl))
      exact ⟨x.reach, .at hx⟩
  have hupper : ∃ y : s.Reach, (upperEdge finish).StandsAt y := by
    cases finish with
    | none => exact ⟨⊤, .above⟩
    | some v =>
      obtain ⟨y, hy⟩ := h v (List.mem_append_right _ (List.mem_singleton.mpr rfl))
      exact ⟨y.reach, .at hy⟩
  obtain ⟨x, hx⟩ := hlower
  obtain ⟨y, hy⟩ := hupper
  exact ⟨x.cut (!si), y.cut ei, _, rfl, hx, rfl, hy, rfl⟩

/-- The cuts of a range that is not empty are in order. -/
theorem NonEmpty.lt (hne : (range start finish si ei : Value).NonEmpty)
    (h : (range start finish si ei : Value).Spans lo hi) : lo < hi := by
  have hb := between_of_spans h
  have hedges : (lowerEdge start).order? (upperEdge finish) = some .lt ∨
      (lowerEdge start).order? (upperEdge finish) = some .eq ∧ si = true ∧ ei = true := by
    cases start with
    | none => cases finish <;> exact .inl rfl
    | some v =>
      cases finish with
      | none => exact .inl rfl
      | some w => exact hne
  rw [Edge.order?_eq hb.start hb.stop, Option.some.injEq, Option.some.injEq, compare_lt_iff_lt,
    compare_eq_iff_eq] at hedges
  refine Prod.Lex.lt_iff.mpr (hedges.imp_right fun ⟨heq, hsi, hei⟩ => ⟨heq, ?_⟩)
  rw [hb.startCut, hb.stopCut]
  subst hsi hei
  rfl

/-- Containment compares the cuts of a range with those around a point. -/
theorem contains?_eq (h : (range start finish si ei : Value).Spans lo hi) {x : s.At}
    (hp : p.place? = some ⟨s, x⟩) :
    contains? (range start finish si ei) p =
      some (decide (lo ≤ x.reach.cut false ∧ x.reach.cut true ≤ hi)) := by
  have hb := between_of_spans h
  have habove : p.above? si start = some (decide (lo ≤ x.reach.cut false)) := by
    have hedge : p.above? si start =
        ((Edge.at p).order? (lowerEdge start)).map fun o => o.isGT || o.isEq && si := by
      cases start with
      | none => rfl
      | some v => exact Option.map_congr fun o _ => by cases o <;> rfl
    rw [hedge, Edge.order?_eq (.at hp) hb.start, Option.map_some, Option.some.injEq,
      Bool.eq_iff_iff, decide_eq_true_iff, Prod.Lex.le_iff, hb.startCut]
    obtain hlt | heq | hgt := lt_trichotomy x.reach (ofLex lo).1
    · simp [compare_lt_iff_lt.mpr hlt, Scale.Reach.cut, hlt.not_gt, hlt.ne']
    · cases si <;> simp [Scale.Reach.cut, heq]
    · simp [compare_gt_iff_gt.mpr hgt, Scale.Reach.cut, hgt]
  have hbelow : p.below? ei finish = some (decide (x.reach.cut true ≤ hi)) := by
    have hedge : p.below? ei finish =
        ((Edge.at p).order? (upperEdge finish)).map fun o => o.isLT || o.isEq && ei := by
      cases finish with
      | none => rfl
      | some v => exact Option.map_congr fun o _ => by cases o <;> rfl
    rw [hedge, Edge.order?_eq (.at hp) hb.stop, Option.map_some, Option.some.injEq,
      Bool.eq_iff_iff, decide_eq_true_iff, Prod.Lex.le_iff, hb.stopCut]
    obtain hlt | heq | hgt := lt_trichotomy x.reach (ofLex hi).1
    · simp [compare_lt_iff_lt.mpr hlt, Scale.Reach.cut, hlt]
    · cases ei <;> simp [Scale.Reach.cut, heq]
    · simp [compare_gt_iff_gt.mpr hgt, Scale.Reach.cut, hgt.not_gt, hgt.ne']
  rw [contains?, rangeContains?, habove, hbelow, Bool.decide_and]
  cases decide (lo ≤ x.reach.cut false) <;> rfl

end Ranges

/-- A value has an order only to values on its scale. -/
theorem exists_place_of_order? {v w : Value} (hv : v.Exact) (hw : w.Exact) {x : s.At}
    (hx : w.place? = some ⟨s, x⟩) (h : (v.order? w).isSome) :
    ∃ y : s.At, v.place? = some ⟨s, y⟩ := by
  obtain ⟨o, ho⟩ := Option.isSome_iff_exists.mp h
  obtain ⟨s', y, x', hy, hx', -⟩ := (order?_eq_some_iff hv hw).mp ho
  rw [hx] at hx'
  cases hx'
  exact ⟨y, hy⟩

/-- Values to which a value can be compared, and this value itself, stand on one scale. -/
theorem exists_scale_cons {v : Value} {vs : List Value} (hexact : ∀ w ∈ v :: vs, w.Exact)
    (h : ∀ w ∈ v :: vs, v.Comparable w) :
    ∃ s : Scale, ∀ w ∈ v :: vs, ∃ x : s.At, w.place? = some ⟨s, x⟩ := by
  have hv := hexact v List.mem_cons_self
  obtain ⟨o, ho⟩ := Option.isSome_iff_exists.mp (h v List.mem_cons_self).1
  obtain ⟨s, x, -, hx, -, -⟩ := (order?_eq_some_iff hv hv).mp ho
  exact ⟨s, fun w hw => exists_place_of_order? (hexact w hw) hv hx (h w hw).2⟩

/-- Values that can be compared to one another stand on one scale. -/
theorem exists_scale {vs : List Value} (hexact : ∀ v ∈ vs, v.Exact)
    (h : ∀ v ∈ vs, ∀ w ∈ vs, v.Comparable w) :
    ∃ s : Scale, ∀ v ∈ vs, ∃ x : s.At, v.place? = some ⟨s, x⟩ := by
  cases vs with
  | nil => exact ⟨.number, fun v hv => absurd hv List.not_mem_nil⟩
  | cons v vs => exact exists_scale_cons hexact (h v List.mem_cons_self)

/-- What a range contains has an order to its bounds. -/
theorem order?_of_contains? {a : Value} (h : a.contains? p = some true) :
    ∀ v ∈ a.bounds, (p.order? v).isSome := by
  cases a with
  | range start finish si ei =>
    obtain ⟨habove, hbelow⟩ : p.above? si start = some true ∧ p.below? ei finish = some true := by
      have h : rangeContains? start finish si ei p = some true := h
      rw [rangeContains?] at h
      split at h
      · next habove => exact ⟨habove, h⟩
      · next hne => exact absurd h hne
    refine List.forall_mem_append.mpr ⟨fun v hv => ?_, fun v hv => ?_⟩
    · rw [Option.mem_toList.mp hv, above?] at habove
      obtain ⟨o, ho, -⟩ := Option.map_eq_some_iff.mp habove
      exact Option.isSome_of_eq_some ho
    · rw [Option.mem_toList.mp hv, below?] at hbelow
      obtain ⟨o, ho, -⟩ := Option.map_eq_some_iff.mp hbelow
      exact Option.isSome_of_eq_some ho
  | _ => exact fun v hv => absurd hv List.not_mem_nil

/-- A range with cuts further out contains what a range contains. -/
theorem contains?_of_le {start finish start' finish' : Option Value} {si ei si' ei' : Bool}
    (ha : (range start finish si ei : Value).Spans lo hi)
    (hb : (range start' finish' si' ei' : Value).Spans lo' hi')
    (hexact : ∀ v ∈ bounds (.range start finish si ei), v.Exact) (hlo : lo' ≤ lo) (hhi : hi ≤ hi')
    (hp : p.Exact) (h : contains? (range start finish si ei) p = some true) :
    contains? (range start' finish' si' ei') p = some true := by
  by_cases hplace : ∃ x : s.At, p.place? = some ⟨s, x⟩
  · obtain ⟨x, hx⟩ := hplace
    rw [contains?_eq ha hx, Option.some.injEq, decide_eq_true_iff] at h
    rw [contains?_eq hb hx, Option.some.injEq, decide_eq_true_iff]
    exact ⟨hlo.trans h.1, h.2.trans hhi⟩
  · -- what has no place on the scale is contained only where there is no bound at all
    have hnone : ∀ v ∈ bounds (.range start finish si ei), ¬ ∃ x : s.At, v.place? = some ⟨s, x⟩ :=
      fun v hv ⟨x, hx⟩ =>
        hplace (exists_place_of_order? hp (hexact v hv) hx (order?_of_contains? h v hv))
    have hedges := between_of_spans ha
    have hedges' := between_of_spans hb
    have hbot : (ofLex lo).1 = ⊥ := by
      obtain ⟨hbot, -⟩ | ⟨-, v, hv, hx⟩ := lowerEdge_at hedges.start
      · exact hbot
      · exact absurd hx (hnone v (List.mem_append_left _ (Option.mem_toList.mpr hv)))
    have htop : (ofLex hi).1 = ⊤ := by
      obtain ⟨htop, -⟩ | ⟨-, v, hv, hx⟩ := upperEdge_at hedges.stop
      · exact htop
      · exact absurd hx (hnone v (List.mem_append_right _ (Option.mem_toList.mpr hv)))
    have hbot' : (ofLex lo').1 = ⊥ := le_bot_iff.mp (hbot ▸ Prod.Lex.monotone_fst_ofLex hlo)
    have htop' : (ofLex hi').1 = ⊤ := top_le_iff.mp (htop ▸ Prod.Lex.monotone_fst_ofLex hhi)
    obtain ⟨-, rfl⟩ := (lowerEdge_at hedges'.start).resolve_right fun h => h.1 hbot'
    obtain ⟨-, rfl⟩ := (upperEdge_at hedges'.stop).resolve_right fun h => h.1 htop'
    rfl

end Datum

namespace Builtin

variable {s : Scale} {a b p : Value} {lo hi lo' hi' : s.Cut}

/-! ### Relations as comparisons -/

theorem relate_eq {rel : Interval → Interval → Option Bool} {P : Prop} [Decidable P]
    (ha : a.Spans lo hi) (hb : b.Spans lo' hi')
    (h : ∀ i j : Interval, i.Between lo hi → j.Between lo' hi' → rel i j = some (decide P)) :
    relate rel a b = .boolean (decide P) := by
  obtain ⟨i, hi, hia⟩ := ha
  obtain ⟨j, hj, hjb⟩ := hb
  simp only [relate, hi, hj, h i j hia hjb]
  rfl

section

variable (ha : a.Spans lo hi) (hb : b.Spans lo' hi') (precision : Nat)

include ha hb

theorem value_before : before.value [a, b] precision = .boolean (decide (hi ≤ lo')) :=
  relate_eq ha hb fun _ _ => Interval.before?_eq

theorem value_after : after.value [a, b] precision = .boolean (decide (hi' ≤ lo)) :=
  relate_eq hb ha fun _ _ => Interval.before?_eq

theorem value_starts :
    starts.value [a, b] precision = .boolean (decide (lo = lo' ∧ hi ≤ hi')) :=
  relate_eq ha hb fun _ _ => Interval.starts?_eq

theorem value_finishes :
    finishes.value [a, b] precision = .boolean (decide (hi = hi' ∧ lo' ≤ lo)) :=
  relate_eq ha hb fun _ _ => Interval.finishes?_eq

theorem value_coincides :
    coincides.value [a, b] precision = .boolean (decide (lo = lo' ∧ hi = hi')) :=
  relate_eq ha hb fun _ _ => Interval.coincides?_eq

end

theorem value_overlaps {start finish start' finish' : Option Value} {si ei si' ei' : Bool}
    (ha : Datum.Spans (.range start finish si ei) lo hi)
    (hb : Datum.Spans (.range start' finish' si' ei') lo' hi') (precision : Nat) :
    overlaps.value [.range start finish si ei, .range start' finish' si' ei'] precision =
      .boolean (decide (lo' < hi ∧ lo < hi')) :=
  relate_eq ha hb fun _ _ => Interval.overlaps?_eq

/-! ### Coherence -/

/-- A relation holds of two values. -/
def Holds (f : Builtin) (v w : Value) : Prop :=
  ∀ precision, f.value [v, w] precision = .boolean true

/-- A relation is answered, and does not hold of two values. -/
def Fails (f : Builtin) (v w : Value) : Prop :=
  ∀ precision, f.value [v, w] precision = .boolean false

theorem holds_iff {f : Builtin} {P : Prop} [Decidable P]
    (h : ∀ precision, f.value [a, b] precision = .boolean (decide P)) : Holds f a b ↔ P := by
  simp only [Holds, h, Datum.boolean.injEq, decide_eq_true_iff, forall_const]

theorem fails_iff {f : Builtin} {P : Prop} [Decidable P]
    (h : ∀ precision, f.value [a, b] precision = .boolean (decide P)) : Fails f a b ↔ ¬ P := by
  simp only [Fails, h, Datum.boolean.injEq, decide_eq_false_iff_not, forall_const]

/-- A range contains the points that are neither before it nor after it. -/
theorem contains?_iff {start finish : Option Value} {si ei : Bool}
    (hexact : ∀ v ∈ p :: Datum.bounds (.range start finish si ei), v.Exact)
    (h : ∀ v ∈ p :: Datum.bounds (.range start finish si ei), p.Comparable v) :
    (Datum.contains? (.range start finish si ei) p = some true ↔
      Fails before p (.range start finish si ei) ∧ Fails after p (.range start finish si ei)) ∧
    (Datum.contains? (.range start finish si ei) p = some false ↔
      Holds before p (.range start finish si ei) ∨ Holds after p (.range start finish si ei)) := by
  obtain ⟨s, hplaces⟩ := Datum.exists_scale_cons hexact h
  obtain ⟨⟨x, hx⟩, hbounds⟩ := List.forall_mem_cons.mp hplaces
  obtain ⟨lo, hi, ha⟩ := Datum.exists_spans hbounds
  have hp := Datum.spans_point hx
  rw [Datum.contains?_eq ha hx, fails_iff (value_before hp ha), fails_iff (value_after hp ha),
    holds_iff (value_before hp ha), holds_iff (value_after hp ha), Option.some.injEq,
    Option.some.injEq, decide_eq_true_iff, decide_eq_false_iff_not, not_and_or, not_le, not_le,
    not_le, not_le, Scale.lt_cut_true, Scale.lt_cut_true, Scale.cut_false_lt, Scale.cut_false_lt]
  exact ⟨Iff.rfl, Iff.rfl⟩

/-- **The relations between ranges fit together**, for ranges that are not empty and whose bounds
can be compared to one another. The first is before the second, overlaps it or is after it, and
exactly one of these. A range contains the points that are neither before nor after it. A range that
starts or finishes another is contained in it. Ranges coincide exactly where one starts and finishes
the other, and exactly where each starts the other. Overlapping is symmetric. -/
theorem relations_coherent (ha : a.NonEmpty) (hb : b.NonEmpty)
    (hexact : ∀ v ∈ a.bounds ++ b.bounds, v.Exact)
    (hcomparable : ∀ v ∈ a.bounds ++ b.bounds, ∀ w ∈ a.bounds ++ b.bounds, v.Comparable w) :
    (Holds before a b ∧ Fails overlaps a b ∧ Fails after a b ∨
      Fails before a b ∧ Holds overlaps a b ∧ Fails after a b ∨
      Fails before a b ∧ Fails overlaps a b ∧ Holds after a b) ∧
    (∀ p : Value, p.Exact → (∀ v ∈ p :: a.bounds, p.Comparable v) →
      (a.contains? p = some true ↔ Fails before p a ∧ Fails after p a) ∧
      (a.contains? p = some false ↔ Holds before p a ∨ Holds after p a)) ∧
    (Holds starts a b ∨ Holds finishes a b →
      ∀ p : Value, p.Exact → a.contains? p = some true → b.contains? p = some true) ∧
    (Holds coincides a b ↔ Holds starts a b ∧ Holds finishes a b) ∧
    (Holds starts a b ∧ Holds finishes a b ↔ Holds starts a b ∧ Holds starts b a) ∧
    ∀ precision, overlaps.value [a, b] precision = overlaps.value [b, a] precision := by
  cases a with
  | range start finish si ei =>
    cases b with
    | range start' finish' si' ei' =>
      obtain ⟨s, hplaces⟩ := Datum.exists_scale hexact hcomparable
      rw [List.forall_mem_append] at hexact hplaces
      obtain ⟨lo, hi, hsa⟩ := Datum.exists_spans hplaces.1
      obtain ⟨lo', hi', hsb⟩ := Datum.exists_spans hplaces.2
      have hlt := ha.lt hsa
      have hlt' := hb.lt hsb
      rw [holds_iff (value_before hsa hsb), fails_iff (value_before hsa hsb),
        holds_iff (value_after hsa hsb), fails_iff (value_after hsa hsb),
        holds_iff (value_overlaps hsa hsb), fails_iff (value_overlaps hsa hsb),
        holds_iff (value_starts hsa hsb), holds_iff (value_starts hsb hsa),
        holds_iff (value_finishes hsa hsb), holds_iff (value_coincides hsa hsb)]
      refine ⟨?_, fun p hp hpoint => ?_, fun h p hp => ?_, ?_, ?_, fun precision => ?_⟩
      · obtain h | h := le_or_gt hi lo'
        · exact .inl ⟨h, fun h' => h'.1.not_ge h, (hlt.trans_le h |>.trans hlt').not_ge⟩
        · obtain h' | h' := le_or_gt hi' lo
          · exact .inr (.inr ⟨h.not_ge, fun h'' => h''.2.not_ge h', h'⟩)
          · exact .inr (.inl ⟨h.not_ge, ⟨h, h'⟩, h'.not_ge⟩)
      · exact contains?_iff (List.forall_mem_cons.mpr ⟨hp, hexact.1⟩) hpoint
      · refine Datum.contains?_of_le hsa hsb hexact.1 ?_ ?_ hp
        · exact h.elim (fun h => h.1.ge) fun h => h.2
        · exact h.elim (fun h => h.2) fun h => h.1.le
      · exact ⟨fun ⟨h, h'⟩ => ⟨⟨h, h'.le⟩, h', h.ge⟩, fun ⟨⟨h, _⟩, h', _⟩ => ⟨h, h'⟩⟩
      · exact and_congr_right fun ⟨h, hle⟩ =>
          ⟨fun h' => ⟨h.symm, h'.1.ge⟩, fun h' => ⟨hle.antisymm h'.2, h.ge⟩⟩
      · rw [value_overlaps hsa hsb, value_overlaps hsb hsa, decide_eq_decide.mpr and_comm]
    | _ => cases hb
  | _ => cases ha

/-- A range without an upper bound starts where another one does, at a number in another
representation: the other one starts it, overlaps it and lies within it. -/
theorem relations_coherent_common_start :
    let a : Value := .range (some (.count 1)) (some (.count 5)) true false
    let b : Value := .range (some (.number (.decimal ⟨10, 1⟩))) none true false
    (Holds starts a b ∧ Fails before a b ∧ Holds overlaps a b ∧ Fails after a b) ∧
      (∀ p : Value, p.Exact → a.contains? p = some true → b.contains? p = some true) ∧
      Holds after (.count 5) a ∧ a.contains? (.count 5) = some false := by
  intro a b
  have hnumber {n : Number} (h : n.kind ≠ .double) : (Datum.number n : Value).Exact := .number h
  have hexact : ∀ v ∈ a.bounds ++ b.bounds, v.Exact := by
    simp only [a, b, Datum.bounds, Option.toList, List.cons_append, List.nil_append,
      List.forall_mem_cons]
    exact ⟨hnumber (by decide), hnumber (by decide), hnumber (by decide), by simp⟩
  have hcomparable : ∀ v ∈ a.bounds ++ b.bounds, ∀ w ∈ a.bounds ++ b.bounds, v.Comparable w := by
    unfold Datum.Comparable
    decide +kernel
  have hstarts : Holds starts a b := fun precision => rfl
  have hafter : Holds after (.count 5) a := fun precision => rfl
  have hfive : ∀ v ∈ Datum.count 5 :: a.bounds, (Datum.count 5 : Value).Comparable v := by
    unfold Datum.Comparable
    decide +kernel
  obtain ⟨hone, hpoint, hwithin, -⟩ :=
    relations_coherent (a := a) (b := b) (.inl rfl) trivial hexact hcomparable
  have hbefore : ¬ Holds before a b := fun h => by cases h 0
  have hafter' : ¬ Holds after a b := fun h => by cases h 0
  have hone := (hone.resolve_left fun h => hbefore h.1).resolve_right fun h => hafter' h.2.2
  exact ⟨⟨hstarts, hone⟩, hwithin (.inl hstarts), hafter,
    (hpoint _ (hnumber (by decide)) hfive).2.mpr (.inr hafter)⟩

end Builtin

end Feel
