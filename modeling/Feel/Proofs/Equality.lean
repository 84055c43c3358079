import Feel.Proofs.ExactArithmetic
import Feel.Proofs.TypeJoins
import Feel.Value.Order

/-!
# Order and equality of values

Values that have an order stand at places of a scale: numbers at the numbers they denote, whatever
their representation, dates at their midnights among the instants. Two values have an order if their
places are on one scale, and it is the order of these places. The places of a scale are in a linear
order, and so the order of values obeys its laws.

Two structures are equal if their parts match: the items of lists by position, the entries of
contexts by name, and the bounds of ranges. Parts match where they are equal, but for one pair of
equal values that match nowhere: a date equals the midnight it begins with, while structures that
differ in the two are not equal.

* `Scale.Place`, `Scale.order`: the places of a scale and their order.
* `Datum.Exact`: a value without numbers of binary64.
* `Datum.place?`: where a value stands.
* `Datum.order?_eq_some_iff`: the order of values is that of their places.
* `Datum.Midnight`: a date and its midnight.
* `Datum.Matches`: parts that make structures equal.
* `Datum.equal_iff_parts`: structures are equal where their parts match.
* `Datum.Ordinary`: values without functions and numbers of binary64.
* `Datum.order_equal_coherent`: on ordinary values equality is an equivalence relation, and the
  order is a linear order of its classes on each scale.
-/

namespace Feel

/-! ### The calendar in order -/

namespace Date

instance : Ord Date := ⟨order⟩

instance : Std.TransOrd Date :=
  inferInstanceAs (Std.TransCmp
    (compareLex (compareOn year) (compareLex (compareOn month) (compareOn day))))

instance : Std.LawfulEqOrd Date where
  eq_of_compare {a b} h := by
    obtain ⟨hyear, hrest⟩ := Ordering.then_eq_eq.mp h
    obtain ⟨hmonth, hday⟩ := Ordering.then_eq_eq.mp hrest
    cases a
    cases b
    cases compare_eq_iff_eq.mp hyear
    cases compare_eq_iff_eq.mp hmonth
    cases compare_eq_iff_eq.mp hday
    rfl

end Date

namespace Time

instance : Ord Time := ⟨order⟩

instance : Std.TransOrd Time :=
  inferInstanceAs (Std.TransCmp (compareLex (compareOn secs) (compareOn nanos)))

instance : Std.LawfulEqOrd Time where
  eq_of_compare {a b} h := by
    obtain ⟨hsecs, hnanos⟩ := Ordering.then_eq_eq.mp h
    cases a
    cases b
    cases compare_eq_iff_eq.mp hsecs
    cases compare_eq_iff_eq.mp hnanos
    rfl

end Time

namespace DateTime

instance : Ord DateTime := ⟨order⟩

instance : Std.TransOrd DateTime :=
  inferInstanceAs (Std.TransCmp (compareLex (compareOn date) (compareOn time)))

instance : Std.LawfulEqOrd DateTime where
  eq_of_compare {a b} h := by
    obtain ⟨hdate, htime⟩ : compare a.date b.date = .eq ∧ compare a.time b.time = .eq :=
      Ordering.then_eq_eq.mp h
    cases a
    cases b
    cases Std.LawfulEqOrd.eq_of_compare hdate
    cases Std.LawfulEqOrd.eq_of_compare htime
    rfl

theorem order_eq_iff {t u : DateTime} : t.order u = .eq ↔ t = u :=
  Std.LawfulEqOrd.compare_eq_iff_eq (α := DateTime)

/-- Midnights are ordered as their days. -/
theorem order_atMidnight (d e : Date) : (atMidnight d).order (atMidnight e) = d.order e := by
  have htime : Time.midnight.order .midnight = .eq := rfl
  rw [order, atMidnight, atMidnight, htime, Ordering.then_eq]

end DateTime

/-! ### Scales -/

/-- The scales on which values are compared. -/
inductive Scale where
  | number
  | string
  | boolean
  | instant
  | time
  | dayTimeDuration
  | yearMonthDuration

namespace Scale

/-- The places of a scale: of booleans zero and one, of durations nanoseconds and months. -/
abbrev Place : Scale → Type
  | number => ℚ
  | string => String
  | boolean => ℕ
  | instant => DateTime
  | time => Time
  | dayTimeDuration => ℤ
  | yearMonthDuration => ℤ

/-- The order of the places of a scale. -/
def order : (s : Scale) → s.Place → s.Place → Ordering
  | number => (compare : ℚ → ℚ → Ordering)
  | string => (compare : String → String → Ordering)
  | boolean => (compare : ℕ → ℕ → Ordering)
  | instant => (compare : DateTime → DateTime → Ordering)
  | time => (compare : Time → Time → Ordering)
  | dayTimeDuration => (compare : ℤ → ℤ → Ordering)
  | yearMonthDuration => (compare : ℤ → ℤ → Ordering)

instance (s : Scale) : Std.TransCmp s.order := by
  cases s <;> dsimp only [order, Place] <;> infer_instance

instance (s : Scale) : Std.LawfulEqCmp s.order := by
  cases s <;> dsimp only [order, Place] <;> infer_instance

end Scale

/-! ### Places of values -/

namespace Number

theorem exists_value {n : Number} (h : n.kind ≠ .double) : ∃ x, n.value? = some x := by
  cases n with
  | double x => exact absurd rfl h
  | integer n => exact ⟨_, rfl⟩
  | long n => exact ⟨_, rfl⟩
  | decimal d => exact ⟨_, rfl⟩

end Number

namespace Datum

variable {κ : Type} {a b c : Datum κ} {o : Ordering}

/-- A value without numbers of binary64, however deep. -/
inductive Exact : Datum κ → Prop
  | null : Exact .null
  | boolean (b : Bool) : Exact (.boolean b)
  | number {n : Number} (h : n.kind ≠ .double) : Exact (.number n)
  | string (s : String) : Exact (.string s)
  | date (d : Date) : Exact (.date d)
  | time (t : Time) : Exact (.time t)
  | dateTime (t : DateTime) : Exact (.dateTime t)
  | dayTimeDuration (n : Int) : Exact (.dayTimeDuration n)
  | yearMonthDuration (m : Int64) : Exact (.yearMonthDuration m)
  | list {items : List (Datum κ)} (h : ∀ v ∈ items, Exact v) : Exact (.list items)
  | context {entries : List (String × Datum κ)} (h : ∀ e ∈ entries, Exact e.2) :
      Exact (.context entries)
  | range {s e : Option (Datum κ)} {si ei : Bool} (hs : ∀ v, s = some v → Exact v)
      (he : ∀ v, e = some v → Exact v) : Exact (.range s e si ei)
  | function (f : Function κ) : Exact (.function f)

/-- The scale on which a value stands, and its place there. -/
def place? : Datum κ → Option ((s : Scale) × s.Place)
  | .number n => n.value?.map fun x => ⟨.number, x⟩
  | .string s => some ⟨.string, s⟩
  | .boolean b => some ⟨.boolean, b.toNat⟩
  | .date d => some ⟨.instant, DateTime.atMidnight d⟩
  | .dateTime t => some ⟨.instant, t⟩
  | .time t => some ⟨.time, t⟩
  | .dayTimeDuration n => some ⟨.dayTimeDuration, n⟩
  | .yearMonthDuration m => some ⟨.yearMonthDuration, m.toInt⟩
  | _ => none

theorem place?_number {n : Number} {p : (s : Scale) × s.Place} :
    (number n : Datum κ).place? = some p ↔ ∃ x, n.value? = some x ∧ p = ⟨.number, x⟩ := by
  rw [place?, Option.map_eq_some_iff]
  simp only [eq_comm (a := p)]

/-- Values on one scale are ordered as their places. -/
theorem order?_of_place? {s : Scale} {x y : s.Place} (hx : a.place? = some ⟨s, x⟩)
    (hy : b.place? = some ⟨s, y⟩) : a.order? b = some (s.order x y) := by
  cases a with
  | number m =>
    obtain ⟨u, hu, heq⟩ := place?_number.mp hx
    cases heq
    cases b with
    | number n =>
      obtain ⟨v, hv, heq⟩ := place?_number.mp hy
      cases heq
      exact Number.order?_eq_compare hu hv
    | _ => cases hy
  | _ =>
    cases hx <;> cases b with
    | number n =>
      obtain ⟨v, hv, heq⟩ := place?_number.mp hy
      cases heq
    | _ => cases hy <;> first | rfl | exact congrArg some (DateTime.order_atMidnight ..).symm

/-- **The order of values is the order of their places**, where both are on one scale. -/
theorem order?_eq_some_iff (ha : a.Exact) (hb : b.Exact) :
    a.order? b = some o ↔
      ∃ s x y, a.place? = some ⟨s, x⟩ ∧ b.place? = some ⟨s, y⟩ ∧ s.order x y = o := by
  constructor
  · intro h
    -- the order itself is given by the places; here it only shows that they are on one scale
    suffices hplaces : ∃ s x y, a.place? = some ⟨s, x⟩ ∧ b.place? = some ⟨s, y⟩ by
      obtain ⟨s, x, y, hx, hy⟩ := hplaces
      rw [order?_of_place? hx hy, Option.some.injEq] at h
      exact ⟨s, x, y, hx, hy, h⟩
    cases ha <;> cases hb <;> try cases h
    case number.number ha _ hb =>
      obtain ⟨x, hx⟩ := Number.exists_value ha
      obtain ⟨y, hy⟩ := Number.exists_value hb
      exact ⟨.number, x, y, place?_number.mpr ⟨x, hx, rfl⟩, place?_number.mpr ⟨y, hy, rfl⟩⟩
    all_goals exact ⟨_, _, _, rfl, rfl⟩
  · rintro ⟨s, x, y, hx, hy, rfl⟩
    exact order?_of_place? hx hy

/-- Values have the order `eq` where they stand at one place. -/
theorem order?_eq_eq_iff (ha : a.Exact) (hb : b.Exact) :
    a.order? b = some .eq ↔ ∃ p, a.place? = some p ∧ b.place? = some p := by
  rw [order?_eq_some_iff ha hb]
  constructor
  · rintro ⟨s, x, y, hx, hy, ho⟩
    cases Std.LawfulEqCmp.eq_of_compare ho
    exact ⟨_, hx, hy⟩
  · rintro ⟨⟨s, x⟩, hx, hy⟩
    exact ⟨s, x, x, hx, hy, Std.ReflCmp.compare_self⟩

/-! ### Laws of the order -/

/-- Taken the other way round, two values have the opposite order, if they have any. -/
theorem order?_swap (ha : a.Exact) (hb : b.Exact) : b.order? a = (a.order? b).map .swap := by
  refine Option.ext fun o => ?_
  rw [order?_eq_some_iff hb ha, Option.map_eq_some_iff]
  constructor
  · rintro ⟨s, y, x, hy, hx, rfl⟩
    exact ⟨s.order x y, order?_of_place? hx hy, Std.OrientedCmp.eq_swap.symm⟩
  · rintro ⟨o, ho, rfl⟩
    obtain ⟨s, x, y, hx, hy, rfl⟩ := (order?_eq_some_iff ha hb).mp ho
    exact ⟨s, y, x, hy, hx, Std.OrientedCmp.eq_swap⟩

/-- Values that are both compared to a third are compared, and the order is transitive: it is strict
as soon as one of the two steps is. -/
theorem order?_trans (ha : a.Exact) (hb : b.Exact) (hc : c.Exact) {o o' : Ordering}
    (hab : a.order? b = some o) (hbc : b.order? c = some o') :
    ∃ o'', a.order? c = some o'' ∧
      (o.isLE → o'.isLE → o''.isLE ∧ (o'' = .eq → o = .eq ∧ o' = .eq)) := by
  obtain ⟨s, x, y, hx, hy, rfl⟩ := (order?_eq_some_iff ha hb).mp hab
  obtain ⟨s, y', z, hy', hz, rfl⟩ := (order?_eq_some_iff hb hc).mp hbc
  rw [hy] at hy'
  cases hy'
  refine ⟨s.order x z, order?_of_place? hx hz, fun hle hle' => ?_⟩
  refine ⟨Std.TransCmp.isLE_trans hle hle', fun heq => ?_⟩
  cases Std.LawfulEqCmp.eq_of_compare heq
  exact ⟨Std.OrientedCmp.isLE_antisymm hle hle', Std.OrientedCmp.isLE_antisymm hle' hle⟩

/-- Where the order is that of distinct places, equality is equality in the order. -/
theorem beq_iff_compare {α β : Type} [BEq α] [LawfulBEq α] [Ord β] [Std.LawfulEqOrd β] {f : α → β}
    (hf : Function.Injective f) (x y : α) :
    (x == y) = true ↔ some (Ord.compare (f x) (f y)) = some .eq := by
  rw [beq_iff_eq, Option.some.injEq, Std.LawfulEqOrd.compare_eq_iff_eq, hf.eq_iff]

/-- A value with a place equals the values to which it has the order `eq`. -/
theorem equal_iff_order? (h : a.place?.isSome) : a.equal b = true ↔ a.order? b = some .eq := by
  cases a <;> cases b <;> simp only [equal, same, order?, reduceCtorEq, Bool.false_eq_true]
  case null.null | list.list | context.context | range.range | function.function => cases h
  case number.number | date.dateTime | dateTime.date => exact beq_iff_eq
  case boolean.boolean x y =>
    have hinjective : ∀ x y : Bool, x.toNat = y.toNat → x = y := by decide
    exact beq_iff_compare (f := Bool.toNat) hinjective x y
  case yearMonthDuration.yearMonthDuration m n =>
    exact beq_iff_compare (f := Int64.toInt) (fun _ _ => Int64.toInt_inj.mp) m n
  all_goals exact beq_iff_compare Function.injective_id _ _

/-- A value with a place equals the values at this place, and no others. -/
theorem equal_iff_of_place? (ha : a.Exact) (hb : b.Exact) {p : (s : Scale) × s.Place}
    (hp : a.place? = some p) : a.equal b = true ↔ b.place? = some p := by
  rw [equal_iff_order? (by rw [hp]; rfl), order?_eq_eq_iff ha hb]
  simp [hp]

end Datum

namespace Datum

variable {κ : Type} {a b c : Datum κ} {s t : Option (Datum κ)}

/-! ### Structures, part by part -/

theorem same_list_iff {as bs : List (Datum κ)} :
    (list as).same (list bs) = true ↔ List.Forall₂ (fun a b => a.same b = true) as bs := by
  rw [same]
  induction as generalizing bs with
  | nil => cases bs <;> simp [sameList]
  | cons a as ih => cases bs <;> simp [sameList, ih]

theorem sameEntries_iff {xs ys : List (String × Datum κ)} :
    sameEntries xs ys = true ↔ ∀ e ∈ xs, ∃ b, ys.lookup e.1 = some b ∧ e.2.same b = true := by
  induction xs with
  | nil => simp [sameEntries]
  | cons e xs ih =>
    rw [sameEntries, Bool.and_eq_true, ih, List.forall_mem_cons]
    refine and_congr_left fun _ => ?_
    cases ys.lookup e.1 <;> simp

theorem sameBound_iff :
    sameBound s t = true ↔ Option.Rel (fun a b => a.same b = true) s t := by
  cases s <;> cases t <;> simp [sameBound]

end Datum

namespace Entries

variable {α : Type} {xs ys : List (String × α)}

theorem lookup_isSome_iff {name : String} :
    (xs.lookup name).isSome = true ↔ name ∈ xs.map (·.1) := by
  simp

/-- Entries with distinct names, all of which are names of as many others, have the same names. -/
theorem names_subset_of_length (hxs : (xs.map (·.1)).Nodup) (hlength : xs.length = ys.length)
    (hsubset : xs.map (·.1) ⊆ ys.map (·.1)) : ys.map (·.1) ⊆ xs.map (·.1) := by
  have hperm : (xs.map (·.1)).Perm (ys.map (·.1)) :=
    (List.subperm_of_subset hxs hsubset).perm_of_length_le (by simp [hlength])
  exact hperm.symm.subset

theorem length_eq_of_names (hxs : (xs.map (·.1)).Nodup) (hys : (ys.map (·.1)).Nodup)
    (hnames : ∀ name, (xs.lookup name).isSome = (ys.lookup name).isSome) :
    xs.length = ys.length := by
  have hperm : (xs.map (·.1)).Perm (ys.map (·.1)) :=
    (List.perm_ext_iff_of_nodup hxs hys).mpr fun name => by
      rw [← lookup_isSome_iff, ← lookup_isSome_iff, hnames]
  simpa using hperm.length_eq

end Entries

namespace Datum

variable {κ : Type} {a b c : Datum κ} {xs ys : List (String × Datum κ)}

theorem isSome_eq_of_rel {α β : Type} {r : α → β → Prop} {s : Option α} {t : Option β}
    (h : Option.Rel r s t) : s.isSome = t.isSome := by
  cases h <;> rfl

theorem exists_of_rel {α β : Type} {r : α → β → Prop} {a : α} {t : Option β}
    (h : Option.Rel r (some a) t) : ∃ b, t = some b ∧ r a b := by
  cases h with
  | some h => exact ⟨_, rfl, h⟩

theorem same_context_iff (hxs : (xs.map (·.1)).Nodup) (hys : (ys.map (·.1)).Nodup) :
    (context xs).same (context ys) = true ↔
      ∀ name, Option.Rel (fun a b => a.same b = true) (xs.lookup name) (ys.lookup name) := by
  rw [same, Bool.and_eq_true, beq_iff_eq, sameEntries_iff]
  constructor
  · rintro ⟨hlength, hentries⟩ name
    have hsubset : xs.map (·.1) ⊆ ys.map (·.1) := by
      intro name hname
      obtain ⟨e, he, rfl⟩ := List.mem_map.mp hname
      obtain ⟨b, hb, -⟩ := hentries e he
      exact Entries.lookup_isSome_iff.mp (by rw [hb]; rfl)
    cases hx : xs.lookup name with
    | some a =>
      obtain ⟨b, hb, hsame⟩ := hentries (name, a) (Ty.mem_of_lookup hx)
      rw [hb]
      exact .some hsame
    | none =>
      have hname : name ∉ ys.map (·.1) := fun h => by
        have := Entries.lookup_isSome_iff.mpr (Entries.names_subset_of_length hxs hlength hsubset h)
        simp [hx] at this
      rw [← Entries.lookup_isSome_iff, Bool.not_eq_true, Option.isSome_eq_false_iff,
        Option.isNone_iff_eq_none] at hname
      rw [hname]
      exact .none
  · intro h
    refine ⟨Entries.length_eq_of_names hxs hys fun name => ?_, fun e he => ?_⟩
    · exact isSome_eq_of_rel (h name)
    · have hrel := h e.1
      rw [(Entries.lookup_eq_some_iff_mem hxs).mpr he] at hrel
      exact exists_of_rel hrel

theorem same_range_iff {s e t f : Option (Datum κ)} {si ei ti fi : Bool} :
    (range s e si ei).same (range t f ti fi) = true ↔
      Option.Rel (fun a b => a.same b = true) s t ∧ Option.Rel (fun a b => a.same b = true) e f ∧
        si = ti ∧ ei = fi := by
  simp only [same, Bool.and_eq_true, sameBound_iff, beq_iff_eq, and_assoc]

/-! ### Dates and midnights -/

/-- A date and the midnight it begins with, one way or the other. -/
inductive Midnight : Datum κ → Datum κ → Prop
  | dateTime (d : Date) : Midnight (date d) (dateTime (.atMidnight d))
  | date (d : Date) : Midnight (dateTime (.atMidnight d)) (date d)

/-- A date equals the midnight it begins with, and otherwise what is equal is the same. -/
theorem equal_iff : a.equal b = true ↔ a.same b = true ∨ Midnight a b := by
  have hmidnight (t u : DateTime) : (some (t.order u) == some .eq) = true ↔ t = u := by
    rw [beq_iff_eq, Option.some.injEq, DateTime.order_eq_iff]
  fun_cases equal a b with
  | case1 d t =>
    simp only [order?, hmidnight, same, Bool.false_eq_true, false_or]
    exact ⟨by rintro rfl; exact .dateTime d, by rintro ⟨⟩; rfl⟩
  | case2 t d =>
    simp only [order?, hmidnight, same, Bool.false_eq_true, false_or]
    exact ⟨by rintro rfl; exact .date d, by rintro ⟨⟩; rfl⟩
  | case3 _ _ hdate hdateTime =>
    refine (or_iff_left ?_).symm
    intro h
    cases h with
    | date d => exact hdateTime _ _ rfl rfl
    | dateTime d => exact hdate _ _ rfl rfl

theorem Midnight.symm (h : Midnight a b) : Midnight b a := by
  cases h with
  | dateTime d => exact .date d
  | date d => exact .dateTime d

theorem Midnight.not_same (h : Midnight a b) : ¬ a.same b = true := by
  cases h <;> simp [same]

/-- Parts that make structures equal: equal parts that are not a date and its midnight. -/
def Matches (a b : Datum κ) : Prop := a.equal b = true ∧ ¬ Midnight a b

/-- Parts match where they are the same. -/
theorem matches_iff : a.Matches b ↔ a.same b = true := by
  rw [Matches, equal_iff]
  constructor
  · rintro ⟨h | h, hnot⟩
    · exact h
    · exact absurd h hnot
  · exact fun h => ⟨.inl h, fun hmidnight => hmidnight.not_same h⟩

/-- **Equality of structures.** Lists are equal where their items match by position, contexts where
their entries match by name, and ranges where their bounds match and are included alike. To match,
parts have to be equal. What is equal matches, but for a date and its midnight, which are equal and
do not match. -/
theorem equal_iff_parts (as bs : List (Datum κ)) {xs ys : List (String × Datum κ)}
    (hxs : (xs.map (·.1)).Nodup) (hys : (ys.map (·.1)).Nodup) (s e t f : Option (Datum κ))
    (si ei ti fi : Bool) :
    ((list as).equal (list bs) = true ↔ List.Forall₂ Matches as bs) ∧
      ((context xs).equal (context ys) = true ↔
        ∀ name, Option.Rel Matches (xs.lookup name) (ys.lookup name)) ∧
      ((range s e si ei).equal (range t f ti fi) = true ↔
        Option.Rel Matches s t ∧ Option.Rel Matches e f ∧ si = ti ∧ ei = fi) ∧
      ∀ a b : Datum κ, Midnight a b → a.equal b = true := by
  have hmatches : (Matches : Datum κ → Datum κ → Prop) = fun a b => a.same b = true :=
    funext fun a => funext fun b => propext matches_iff
  rw [hmatches]
  exact ⟨same_list_iff, same_context_iff hxs hys, same_range_iff,
    fun a b h => equal_iff.mpr (.inr h)⟩

/-- A date equals its midnight, but the lists of the two are not equal, and neither are contexts
and ranges that differ in them. Lists of equal numbers are equal. -/
theorem equal_iff_parts_midnight :
    let d : Value := .date .epoch
    let m : Value := .dateTime (.atMidnight .epoch)
    d.equal m = true ∧ (list [.int 1, d]).equal (list [.long 1, m]) = false ∧
      (context [("a", .int 1), ("b", d)]).equal (context [("b", m), ("a", .long 1)]) = false ∧
      (range (some d) none true false).equal (range (some m) none true false) = false ∧
      (list [.int 1, d]).equal (list [.long 1, d]) = true := by
  intro d m
  have hmidnight : Midnight d m := .dateTime .epoch
  have hnames : ([("a", .int 1), ("b", d)] : List (String × Value)).map (·.1) |>.Nodup := by decide
  have hnames' : ([("b", m), ("a", .long 1)] : List (String × Value)).map (·.1) |>.Nodup := by
    decide
  have hone : Matches (.int 1 : Value) (.long 1) := matches_iff.mpr (by decide +kernel)
  have hdate : Matches d d := matches_iff.mpr (by decide +kernel)
  obtain ⟨hlist, hcontext, hrange, hequal⟩ := equal_iff_parts [.int 1, d] [.long 1, m] hnames
    hnames' (some d) none (some m) none true false true false
  obtain ⟨hlist', -⟩ := equal_iff_parts [.int 1, d] [.long 1, d] hnames hnames' none none none none
    true true true true
  refine ⟨hequal d m hmidnight, Bool.eq_false_iff.mpr fun h => ?_,
    Bool.eq_false_iff.mpr fun h => ?_, Bool.eq_false_iff.mpr fun h => ?_,
    hlist'.mpr (.cons hone (.cons hdate .nil))⟩
  · cases hlist.mp h with
    | cons _ h => cases h with
      | cons h _ => exact h.2 hmidnight
  · have hb : Option.Rel Matches (some d) (some m) := hcontext.mp h "b"
    cases hb with
    | some h => exact h.2 hmidnight
  · cases (hrange.mp h).1 with
    | some h => exact h.2 hmidnight

/-! ### Ordinary values -/

/-- A value without functions and numbers of binary64, in which contexts have each name once. -/
structure Ordinary (v : Datum κ) : Prop where
  plain : v.Plain
  keyed : v.Keyed
  isExact : v.Exact

namespace Ordinary

theorem item {items : List (Datum κ)} (h : (list items).Ordinary) {v : Datum κ} (hv : v ∈ items) :
    v.Ordinary := by
  cases h.plain with | list hplain =>
  cases h.keyed with | list hkeyed =>
  cases h.isExact with | list hexact =>
  exact ⟨hplain v hv, hkeyed v hv, hexact v hv⟩

theorem names (h : (context xs).Ordinary) : (xs.map (·.1)).Nodup := by
  cases h.keyed with | context hnames _ => exact hnames

theorem entry (h : (context xs).Ordinary) {name : String} {v : Datum κ}
    (hv : xs.lookup name = some v) : v.Ordinary := by
  have hmem := Ty.mem_of_lookup hv
  cases h.plain with | context hplain =>
  cases h.keyed with | context _ hkeyed =>
  cases h.isExact with | context hexact =>
  exact ⟨hplain _ hmem, hkeyed _ hmem, hexact _ hmem⟩

theorem start {e : Option (Datum κ)} {si ei : Bool} (h : (range (some a) e si ei).Ordinary) :
    a.Ordinary := by
  cases h.plain with | range hplain _ =>
  cases h.keyed with | range hkeyed _ =>
  cases h.isExact with | range hexact _ =>
  exact ⟨hplain a rfl, hkeyed a rfl, hexact a rfl⟩

theorem finish {s : Option (Datum κ)} {si ei : Bool} (h : (range s (some a) si ei).Ordinary) :
    a.Ordinary := by
  cases h.plain with | range _ hplain =>
  cases h.keyed with | range _ hkeyed =>
  cases h.isExact with | range _ hexact =>
  exact ⟨hplain a rfl, hkeyed a rfl, hexact a rfl⟩

end Ordinary

theorem same_refl (ha : a.Ordinary) : a.same a = true := by
  induction ha.plain with
  | list _ ih => exact same_list_iff.mpr (List.forall₂_same.mpr fun v hv => ih v hv (ha.item hv))
  | @context entries _ ih =>
    refine (same_context_iff ha.names ha.names).mpr fun name => ?_
    cases hv : entries.lookup name with
    | none => exact .none
    | some v => exact .some (ih _ (Ty.mem_of_lookup hv) (ha.entry hv))
  | @range s e _ _ _ _ ihs ihe =>
    refine same_range_iff.mpr ⟨?_, ?_, rfl, rfl⟩
    · cases s with
      | none => exact .none
      | some v => exact .some (ihs v rfl ha.start)
    · cases e with
      | none => exact .none
      | some v => exact .some (ihe v rfl ha.finish)
  | number n =>
    cases ha.isExact with
    | number h =>
      obtain ⟨x, hx⟩ := Number.exists_value h
      rw [same]
      exact Number.equal_of_value hx hx
  | _ => simp only [same, beq_self_eq_true]

/-- What is the same as a value with a place stands at that place. -/
theorem place?_of_same (ha : a.Ordinary) (hb : b.Ordinary) (h : a.same b = true)
    {p : (s : Scale) × s.Place} (hp : a.place? = some p) : b.place? = some p :=
  (equal_iff_of_place? ha.isExact hb.isExact hp).mp (equal_iff.mpr (.inl h))

/-- Lists that are related to one list item by item are related to each other. -/
theorem forall₂_of_common {α : Type} {r : α → α → Prop} {as bs cs : List α}
    (hb : List.Forall₂ r as bs) (hc : List.Forall₂ r as cs)
    (h : ∀ a ∈ as, ∀ b ∈ bs, ∀ c ∈ cs, r a b → r a c → r b c) : List.Forall₂ r bs cs := by
  induction hb generalizing cs with
  | nil =>
    cases hc
    exact .nil
  | @cons a b as bs hab _ ih =>
    cases hc with
    | @cons _ c _ cs hac hc =>
      refine .cons (h a List.mem_cons_self b List.mem_cons_self c List.mem_cons_self hab hac) ?_
      exact ih hc fun a ha b hb c hc =>
        h a (.tail _ ha) b (.tail _ hb) c (.tail _ hc)

theorem rel_of_common {α : Type} {r : α → α → Prop} {s t u : Option α} (ht : Option.Rel r s t)
    (hu : Option.Rel r s u)
    (h : ∀ a, s = some a → ∀ b, t = some b → ∀ c, u = some c → r a b → r a c → r b c) :
    Option.Rel r t u := by
  cases ht with
  | none =>
    cases hu
    exact .none
  | some hab =>
    cases hu with
    | some hac => exact .some (h _ rfl _ rfl _ rfl hab hac)

/-- Values with a place that are the same as one value are the same as each other. -/
theorem same_of_common_place (ha : a.Ordinary) (hb : b.Ordinary) (hc : c.Ordinary)
    (hab : a.same b = true) (hac : a.same c = true) {p : (s : Scale) × s.Place}
    (hp : a.place? = some p) : b.same c = true := by
  have hequal : b.equal c = true :=
    (equal_iff_of_place? hb.isExact hc.isExact (place?_of_same ha hb hab hp)).mpr
      (place?_of_same ha hc hac hp)
  refine matches_iff.mp ⟨hequal, fun hmidnight => ?_⟩
  -- the one value would have to be a date and an instant
  cases hmidnight <;> cases a <;> simp_all [same]

theorem exists_list_of_same {as : List (Datum κ)} (h : (list as).same b = true) :
    ∃ bs, b = list bs := by
  cases b with
  | list bs => exact ⟨bs, rfl⟩
  | _ => simp [same] at h

theorem exists_context_of_same (h : (context xs).same b = true) : ∃ ys, b = context ys := by
  cases b with
  | context ys => exact ⟨ys, rfl⟩
  | _ => simp [same] at h

theorem exists_range_of_same {s e : Option (Datum κ)} {si ei : Bool}
    (h : (range s e si ei).same b = true) : ∃ t f ti fi, b = range t f ti fi := by
  cases b with
  | range t f ti fi => exact ⟨t, f, ti, fi, rfl⟩
  | _ => simp [same] at h

/-- **Values that are the same as one value are the same as each other.** -/
theorem same_of_common (ha : a.Ordinary) (hb : b.Ordinary) (hc : c.Ordinary)
    (hab : a.same b = true) (hac : a.same c = true) : b.same c = true := by
  induction ha.plain generalizing b c with
  | null => cases b <;> cases c <;> simp_all [same]
  | list _ ih =>
    obtain ⟨bs, rfl⟩ := exists_list_of_same hab
    obtain ⟨cs, rfl⟩ := exists_list_of_same hac
    rw [same_list_iff] at hab hac ⊢
    exact forall₂_of_common hab hac fun a hav b hbv c hcv =>
      ih a hav (ha.item hav) (hb.item hbv) (hc.item hcv)
  | context _ ih =>
    obtain ⟨ys, rfl⟩ := exists_context_of_same hab
    obtain ⟨zs, rfl⟩ := exists_context_of_same hac
    rw [same_context_iff ha.names hb.names] at hab
    rw [same_context_iff ha.names hc.names] at hac
    rw [same_context_iff hb.names hc.names]
    intro name
    exact rel_of_common (hab name) (hac name) fun a hav b hbv c hcv =>
      ih _ (Ty.mem_of_lookup hav) (ha.entry hav) (hb.entry hbv) (hc.entry hcv)
  | range _ _ ihs ihe =>
    obtain ⟨t, f, ti, fi, rfl⟩ := exists_range_of_same hab
    obtain ⟨u, g, ui, gi, rfl⟩ := exists_range_of_same hac
    rw [same_range_iff] at hab hac ⊢
    obtain ⟨hst, hef, rfl, rfl⟩ := hab
    obtain ⟨hsu, heg, rfl, rfl⟩ := hac
    refine ⟨rel_of_common hst hsu ?_, rel_of_common hef heg ?_, rfl, rfl⟩
    · rintro a rfl b rfl c rfl
      exact ihs a rfl ha.start hb.start hc.start
    · rintro a rfl b rfl c rfl
      exact ihe a rfl ha.finish hb.finish hc.finish
  | number n =>
    obtain ⟨x, hx⟩ : ∃ x, n.value? = some x := by
      cases ha.isExact with
      | number h => exact Number.exists_value h
    exact same_of_common_place ha hb hc hab hac (place?_number.mpr ⟨x, hx, rfl⟩)
  | _ => exact same_of_common_place ha hb hc hab hac rfl

theorem same_symm (ha : a.Ordinary) (hb : b.Ordinary) (h : a.same b = true) : b.same a = true :=
  same_of_common ha hb ha h (same_refl ha)

/-! ### Equality is an equivalence relation -/

theorem equal_symm (ha : a.Ordinary) (hb : b.Ordinary) (h : a.equal b = true) :
    b.equal a = true := by
  rw [equal_iff] at h ⊢
  exact h.imp (same_symm ha hb) Midnight.symm

theorem Midnight.exists_place (h : Midnight a b) : ∃ p, a.place? = some p ∧ b.place? = some p := by
  cases h <;> exact ⟨_, rfl, rfl⟩

theorem equal_trans (ha : a.Ordinary) (hb : b.Ordinary) (hc : c.Ordinary)
    (hab : a.equal b = true) (hbc : b.equal c = true) : a.equal c = true := by
  have hba := equal_symm ha hb hab
  cases hp : b.place? with
  | some p =>
    have hpa := (equal_iff_of_place? hb.isExact ha.isExact hp).mp hba
    have hpc := (equal_iff_of_place? hb.isExact hc.isExact hp).mp hbc
    exact (equal_iff_of_place? ha.isExact hc.isExact hpa).mpr hpc
  | none =>
    -- a value without a place is no part of a date and its midnight
    have hsame {d : Datum κ} (h : b.equal d = true) : b.same d = true := by
      refine (equal_iff.mp h).resolve_right fun hmidnight => ?_
      obtain ⟨p, hb, -⟩ := hmidnight.exists_place
      rw [hp] at hb
      cases hb
    exact equal_iff.mpr (.inl (same_of_common hb ha hc (hsame hba) (hsame hbc)))

theorem order?_eq_eq_iff_equal (ha : a.Exact) (hb : b.Exact) (h : (a.order? b).isSome) :
    a.order? b = some .eq ↔ a.equal b = true := by
  obtain ⟨o, ho⟩ := Option.isSome_iff_exists.mp h
  obtain ⟨s, x, y, hx, -, -⟩ := (order?_eq_some_iff ha hb).mp ho
  exact (equal_iff_order? (by rw [hx]; rfl)).symm

/-- **Order and equality are coherent on ordinary values.** Equality is an equivalence relation. The
order is opposite the other way round, and transitive; to have an order is symmetric and transitive.
Values that have one are equal where it is `eq`. Numbers are ordered by what they denote, whatever
their representations, and a date as its midnight against an instant. -/
theorem order_equal_coherent {a b c : Datum κ} (ha : a.Ordinary) (hb : b.Ordinary)
    (hc : c.Ordinary) :
    (a.equal a = true ∧ (a.equal b = true → b.equal a = true) ∧
      (a.equal b = true → b.equal c = true → a.equal c = true)) ∧
    b.order? a = (a.order? b).map .swap ∧
    (∀ o o', a.order? b = some o → b.order? c = some o' → ∃ o'', a.order? c = some o'' ∧
      (o.isLE → o'.isLE → o''.isLE ∧ (o'' = .eq → o = .eq ∧ o' = .eq))) ∧
    ((a.order? b).isSome → (a.order? b = some .eq ↔ a.equal b = true)) ∧
    (∀ m n x y, m.value? = some x → n.value? = some y →
      (number m : Datum κ).order? (number n) = some (Ord.compare x y)) ∧
    ∀ d t, (date d : Datum κ).order? (dateTime t) =
        (dateTime (.atMidnight d) : Datum κ).order? (dateTime t) ∧
      (dateTime t : Datum κ).order? (date d) =
        (dateTime t : Datum κ).order? (dateTime (.atMidnight d)) :=
  ⟨⟨equal_iff.mpr (.inl (same_refl ha)), equal_symm ha hb, equal_trans ha hb hc⟩,
    order?_swap ha.isExact hb.isExact,
    fun _ _ hab hbc => order?_trans ha.isExact hb.isExact hc.isExact hab hbc,
    order?_eq_eq_iff_equal ha.isExact hb.isExact,
    fun _ _ _ _ hx hy => Number.order?_eq_compare hx hy,
    fun _ _ => ⟨rfl, rfl⟩⟩

/-- The long above `2 ^ 53` has no binary64 number of its own, and half way to it there is a
decimal: the order is exact and transitive over the three. A date and its midnight are equal and in
order. -/
theorem order_equal_coherent_mixed :
    let a : Value := .number (.long 9007199254740992)
    let b : Value := .number (.decimal ⟨90071992547409925, 1⟩)
    let c : Value := .number (.long 9007199254740993)
    let d : Value := .date .epoch
    let m : Value := .dateTime (.atMidnight .epoch)
    (a.Ordinary ∧ b.Ordinary ∧ c.Ordinary ∧ d.Ordinary ∧ m.Ordinary) ∧
      (a.order? b = some .lt ∧ b.order? c = some .lt ∧ a.order? c = some .lt ∧
        b.order? a = some .gt) ∧
      d.order? m = some .eq ∧ d.equal m = true ∧ m.equal d = true := by
  intro a b c d m
  have hnumber {n : Number} (h : n.kind ≠ .double) : (number n : Value).Ordinary :=
    ⟨.number n, .number n, .number h⟩
  have ha : a.Ordinary := hnumber (by decide)
  have hb : b.Ordinary := hnumber (by decide)
  have hc : c.Ordinary := hnumber (by decide)
  have hd : d.Ordinary := ⟨.date _, .date _, .date _⟩
  have hm : m.Ordinary := ⟨.dateTime _, .dateTime _, .dateTime _⟩
  have hab : a.order? b = some .lt := by decide +kernel
  have hbc : b.order? c = some .lt := by decide +kernel
  have hdm : d.order? m = some .eq := by decide +kernel
  obtain ⟨-, hswap, htrans, -⟩ := order_equal_coherent ha hb hc
  obtain ⟨⟨-, hsymm, -⟩, -, -, hequal, -⟩ := order_equal_coherent hd hm hd
  obtain ⟨o, hac, hle⟩ := htrans _ _ hab hbc
  have hdm' : d.equal m = true := (hequal (by rw [hdm]; rfl)).mp hdm
  refine ⟨⟨ha, hb, hc, hd, hm⟩, ⟨hab, hbc, ?_, by rw [hswap, hab]; rfl⟩, hdm, hdm', hsymm hdm'⟩
  rw [hac]
  have := hle rfl rfl
  cases o <;> simp_all

end Datum

end Feel
