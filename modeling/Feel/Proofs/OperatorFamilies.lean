import Feel.Proofs.OperatorTypes
import Feel.Proofs.TypeJoins

/-!
# Families of what operators give

The types of two values predict what an operator gives on them: null, or a value of the family
of the predicted type, and null alone where that type is the null type.

* `Ty.embraces`: the values that belong to the family of a type.
* `Datum.type_of_temporalAdd?` and the lemmas beside it: a sum, difference, product or quotient
  with dates, times and durations is there only where the types have one, and is of its family.
* `Datum.dynamic_family`: every operator on every two values.
-/

namespace Feel

/-- Whether a value belongs to the family of a type: any value to `any`, any number to every
number type. -/
def Ty.embraces (t : Ty) (v : Value) : Bool := t.isAny || v.type.sameFamily t

namespace Ty

/-- Where dates, times and durations have a result type, it is that of the operator, and it is
not the null type. -/
theorem of_temporalResult? {op : Operator} {f g t : Ty} (h : temporalResult? op f g = some t) :
    op.resultType f g = t ∧ t ≠ .null ∧ t.sameFamily t = true := by
  unfold temporalResult? at h
  split at h <;> cases h <;> exact ⟨rfl, nofun, rfl⟩

end Ty

/-- Arithmetic on numbers has a number type. -/
theorem Operator.resultType_numbers {op : Operator} (hop : op.isArithmetic = true)
    (a b : NumberKind) : ∃ k, op.resultType (.number a) (.number b) = .number k := by
  cases op with
  | add | sub | mul | pow => exact ⟨_, rfl⟩
  | div =>
    show ∃ k, Ty.numberResult .div a b = .number k
    simp only [Ty.numberResult]
    split <;> exact ⟨_, rfl⟩
  | _ => cases hop

namespace Datum

/-- A function value carries a function type; nothing is asked of other values. -/
def CarriesFunctionType (v : Value) : Prop :=
  ∀ f, v = .function f → ∃ ps ns t, f.type = .function ps ns t

/-! ### The type that a value has -/

theorem type_isString {v : Value} (hv : v.CarriesFunctionType) :
    v.type.isString = v.asString?.isSome := by
  cases v with
  | list items =>
    rw [type_list]
    rfl
  | function f =>
    obtain ⟨ps, ns, t, ht⟩ := hv f rfl
    rw [type, ht]
    rfl
  | _ => rfl

theorem type_isAny {v : Value} (hv : v.CarriesFunctionType) : v.type.isAny = false := by
  cases v with
  | list items =>
    rw [type_list]
    rfl
  | function f =>
    obtain ⟨ps, ns, t, ht⟩ := hv f rfl
    rw [type, ht]
    rfl
  | _ => rfl

/-- Values that have an order are of comparable types. -/
theorem comparable_of_order? {l r : Value} {o : Ordering} (h : l.order? r = some o) :
    l.type.comparable r.type = true := by
  unfold order? at h
  split at h <;> first | rfl | cases h

/-! ### Dates, times and durations -/

/-- What is shifted by days keeps its type. -/
theorem type_of_shift? {v w : Value} {nanos : Int} (h : v.shift? nanos = some w) :
    w.type = v.type ∧ (v.type = .date ∨ v.type = .dateTime ∨ v.type = .time) := by
  unfold shift? at h
  split at h
  · obtain ⟨t, -, rfl⟩ := Option.map_eq_some_iff.mp h
    exact ⟨rfl, .inl rfl⟩
  · obtain ⟨t, -, rfl⟩ := Option.map_eq_some_iff.mp h
    exact ⟨rfl, .inr (.inl rfl)⟩
  · cases h
    exact ⟨rfl, .inr (.inr rfl)⟩
  · contradiction

/-- What is shifted by months keeps its type. -/
theorem type_of_shiftByMonths? {v w : Value} {months : Int64}
    (h : v.shiftByMonths? months = some w) :
    w.type = v.type ∧ (v.type = .date ∨ v.type = .dateTime) := by
  unfold shiftByMonths? at h
  split at h
  · obtain ⟨d, -, rfl⟩ := Option.map_eq_some_iff.mp h
    exact ⟨rfl, .inl rfl⟩
  · obtain ⟨d, -, rfl⟩ := Option.map_eq_some_iff.mp h
    exact ⟨rfl, .inr rfl⟩
  · contradiction

/-- What is scaled keeps its type. -/
theorem type_of_scaleDuration? {op : Operator} {v w : Value} {n : Number}
    (h : v.scaleDuration? op n = some w) :
    w.type = v.type ∧ (v.type = .dayTimeDuration ∨ v.type = .yearMonthDuration) := by
  unfold scaleDuration? at h
  split at h
  · obtain ⟨millis, -, h⟩ := Option.bind_eq_some_iff.mp h
    obtain ⟨x, -, rfl⟩ := Option.map_eq_some_iff.mp h
    exact ⟨rfl, .inl rfl⟩
  · obtain ⟨x, -, rfl⟩ := Option.map_eq_some_iff.mp h
    exact ⟨rfl, .inr rfl⟩
  · contradiction

theorem type_of_instant? {v : Value} {t : DateTime} (h : v.instant? = some t) :
    v.type = .date ∨ v.type = .dateTime := by
  unfold instant? at h
  split at h
  · exact .inl rfl
  · exact .inr rfl
  · contradiction

/-- A sum is of the type that the types of the operands have. -/
theorem type_of_temporalAdd? {l r v : Value} (h : temporalAdd? l r = some v) :
    Ty.temporalResult? .add l.type r.type = some v.type := by
  unfold temporalAdd? at h
  split at h
  · obtain ⟨n, -, rfl⟩ := Option.map_eq_some_iff.mp h
    rfl
  · obtain ⟨n, -, rfl⟩ := Option.map_eq_some_iff.mp h
    rfl
  · obtain ⟨hv, hl | hl | hl⟩ := type_of_shift? h <;> (rw [hv, hl]; rfl)
  · obtain ⟨hv, hr | hr | hr⟩ := type_of_shift? h <;> (rw [hv, hr]; rfl)
  · obtain ⟨hv, hl | hl⟩ := type_of_shiftByMonths? h <;> (rw [hv, hl]; rfl)
  · obtain ⟨hv, hr | hr⟩ := type_of_shiftByMonths? h <;> (rw [hv, hr]; rfl)
  · contradiction

/-- A difference is of the type that the types of the operands have. -/
theorem type_of_temporalSub? {l r v : Value} (h : temporalSub? l r = some v) :
    Ty.temporalResult? .sub l.type r.type = some v.type := by
  unfold temporalSub? subtract? at h
  split at h
  · cases h
    rfl
  · obtain ⟨n, -, rfl⟩ := Option.map_eq_some_iff.mp h
    rfl
  · obtain ⟨n, -, rfl⟩ := Option.map_eq_some_iff.mp h
    rfl
  · obtain ⟨hv, hl | hl | hl⟩ := type_of_shift? h <;> (rw [hv, hl]; rfl)
  · have hshift : (date _).shiftByMonths? (-_) = some v := h
    obtain ⟨hv, hl | hl⟩ := type_of_shiftByMonths? hshift <;> (rw [hv, hl]; rfl)
  · have hshift : (dateTime _).shiftByMonths? (-_) = some v := h
    obtain ⟨hv, hl | hl⟩ := type_of_shiftByMonths? hshift <;> (rw [hv, hl]; rfl)
  · split at h
    · next hs ht =>
      cases h
      rcases type_of_instant? hs with hl | hl <;> rcases type_of_instant? ht with hr | hr <;>
        (rw [hl, hr]; rfl)
    · contradiction

/-- A product is a duration of the type that the types of the operands have. -/
theorem type_of_temporalMul? {l r v : Value} (h : temporalMul? l r = some v) :
    Ty.temporalResult? .mul l.type r.type = some v.type := by
  unfold temporalMul? at h
  split at h
  · obtain ⟨hv, hr | hr⟩ := type_of_scaleDuration? h <;> (rw [hv, hr]; rfl)
  · obtain ⟨hv, hl | hl⟩ := type_of_scaleDuration? h <;> (rw [hv, hl]; rfl)
  · contradiction

/-- A quotient is a number or a duration, as the types of the operands say. -/
theorem type_of_temporalDiv? {l r v : Value} (h : temporalDiv? l r = some v) :
    ∃ t, Ty.temporalResult? .div l.type r.type = some t ∧ v.type.sameFamily t = true := by
  unfold temporalDiv? at h
  split at h
  · obtain ⟨n, -, rfl⟩ := Option.map_eq_some_iff.mp h
    exact ⟨_, rfl, rfl⟩
  · obtain ⟨n, -, rfl⟩ := Option.map_eq_some_iff.mp h
    exact ⟨_, rfl, rfl⟩
  · obtain ⟨hv, hl | hl⟩ := type_of_scaleDuration? h <;> (rw [hv, hl]; exact ⟨_, rfl, rfl⟩)
  · contradiction

/-- Arithmetic with dates, times and durations is null, or the types of the operands have a
result and the value is of its family. -/
theorem temporal_family (op : Operator) (l r : Value) :
    Datum.temporal op l r = .null ∨ ∃ t, Ty.temporalResult? op l.type r.type = some t ∧
      (Datum.temporal op l r).type.sameFamily t = true := by
  have hexact : ∀ {o : Option Value},
      (∀ v, o = some v → Ty.temporalResult? op l.type r.type = some v.type) →
      o.getD .null = .null ∨ ∃ t, Ty.temporalResult? op l.type r.type = some t ∧
        (o.getD .null).type.sameFamily t = true := by
    intro o h
    cases o with
    | none => exact .inl rfl
    | some v => exact .inr ⟨_, h v rfl, (Ty.of_temporalResult? (h v rfl)).2.2⟩
  cases op with
  | add => exact hexact fun v => type_of_temporalAdd?
  | sub => exact hexact fun v => type_of_temporalSub?
  | mul => exact hexact fun v => type_of_temporalMul?
  | div =>
    show (temporalDiv? l r).getD .null = .null ∨ ∃ t, _ ∧
      ((temporalDiv? l r).getD .null).type.sameFamily t = true
    cases h : temporalDiv? l r with
    | none => exact .inl rfl
    | some v => exact .inr (type_of_temporalDiv? h)
  | _ => exact .inl rfl

/-! ### Every operator -/

/-- What fits the type of booleans is null or a boolean. -/
theorem eq_null_or_boolean {v : Value} (h : Fits v .boolean) :
    v = .null ∨ Ty.boolean.embraces v = true := by
  cases h with
  | null => exact .inl rfl
  | boolean b => exact .inr rfl

/-- What fits the type of texts is null or a text. -/
theorem eq_null_or_string {v : Value} (h : Fits v .string) :
    v = .null ∨ Ty.string.embraces v = true := by
  cases h with
  | null => exact .inl rfl
  | string s => exact .inr rfl

/-- What fits a number type is null or a number. -/
theorem eq_null_or_number {v : Value} {k : NumberKind} (h : Fits v (.number k)) :
    v = .null ∨ (Ty.number k).embraces v = true := by
  cases h with
  | null => exact .inl rfl
  | number n => exact .inr rfl

/-- An arithmetic operator on two values that are not null takes numbers to a number, joins
texts, or is one on dates, times and durations. -/
theorem dynamic_arithmetic {op : Operator} (hop : op.isArithmetic = true) {l r : Value}
    (hl : l ≠ .null) (hr : r ≠ .null) :
    (∃ m n mode, l = number m ∧ r = number n ∧
      dynamic op l r = arith op l r mode Number.defaultPrecision) ∨
    (op = .add ∧ (l.asString?.isSome || r.asString?.isSome) = true ∧
      dynamic op l r = concat l r) ∨
    ((op = .add → (l.asString?.isSome || r.asString?.isSome) = false) ∧
      dynamic op l r = temporal op l r) := by
  have hnull : (l.isNull || r.isNull) = false := by
    cases l <;> cases r <;> first | rfl | contradiction
  have hfamilies : op.isLogic = false ∧ op.isEquality = false ∧ op.isOrdering = false := by
    cases op <;> first | exact ⟨rfl, rfl, rfl⟩ | cases hop
  obtain ⟨hlogic, heq, hord⟩ := hfamilies
  unfold dynamic
  simp only [hlogic, heq, hord, hnull, Bool.false_eq_true, if_false]
  split
  · next m n => exact .inl ⟨m, n, _, rfl, rfl, rfl⟩
  · split
    · next h =>
      rw [Bool.and_eq_true, decide_eq_true_eq] at h
      exact .inr (.inl ⟨h.1, h.2, rfl⟩)
    · next h =>
      refine .inr (.inr ⟨fun hadd => ?_, rfl⟩)
      simpa [hadd] using h

/-- An operator gives null or a value of the family of the type that the types of the operands
predict, and it gives null where that is the null type. -/
theorem dynamic_family (op : Operator) (l r : Value) (hl : l.CarriesFunctionType)
    (hr : r.CarriesFunctionType) :
    (dynamic op l r = .null ∨
      (op.resultType l.type r.type).embraces (dynamic op l r) = true) ∧
    (op.resultType l.type r.type = .null → dynamic op l r = .null) := by
  by_cases hlogic : op.isLogic = true
  · have htype : op.resultType l.type r.type = .boolean := by
      simp [Operator.resultType, hlogic]
    have hvalue : dynamic op l r = logic op l r := by simp [dynamic, hlogic]
    rw [htype, hvalue]
    exact ⟨eq_null_or_boolean (.logic op l r), fun h => by cases h⟩
  by_cases heq : op.isEquality = true
  · have htype : op.resultType l.type r.type = .boolean := by
      simp [Operator.resultType, heq]
    have hvalue : dynamic op l r = equality l r (op == .ne) := by simp [dynamic, hlogic, heq]
    rw [htype, hvalue]
    exact ⟨.inr rfl, fun h => by cases h⟩
  by_cases hord : op.isOrdering = true
  · have hvalue : dynamic op l r = compare op l r := by simp [dynamic, hlogic, heq, hord]
    rw [hvalue]
    cases horder : l.order? r with
    | none =>
      have hnull : compare op l r = .null := by simp [compare, horder, ofBool?]
      exact ⟨.inl hnull, fun _ => hnull⟩
    | some o =>
      have htype : op.resultType l.type r.type = .boolean := by
        simp [Operator.resultType, hlogic, heq, hord, comparable_of_order? horder]
      rw [htype]
      exact ⟨eq_null_or_boolean (.compare op l r), fun h => by cases h⟩
  by_cases hnull : l = .null ∨ r = .null
  · have hvalue := dynamic_of_null (by simpa using heq) (by simpa using hlogic) hnull
    exact ⟨.inl hvalue, fun _ => hvalue⟩
  rw [not_or] at hnull
  have hop : op.isArithmetic = true := by
    cases op <;> first | rfl | contradiction
  rcases dynamic_arithmetic hop hnull.1 hnull.2 with
    ⟨m, n, mode, rfl, rfl, hvalue⟩ | ⟨rfl, hstring, hvalue⟩ | ⟨hstring, hvalue⟩
  · obtain ⟨k, htype⟩ := Operator.resultType_numbers hop m.kind n.kind
    rw [hvalue, type, type, htype]
    exact ⟨eq_null_or_number (.arith op _ _ mode _ k), fun h => by cases h⟩
  · have htype : Operator.add.resultType l.type r.type = .string := by
      rw [← type_isString hl, ← type_isString hr] at hstring
      simp [Operator.resultType, Operator.isEquality, Operator.isLogic, Operator.isOrdering,
        type_isAny hl, type_isAny hr, hstring]
    rw [hvalue, htype]
    exact ⟨eq_null_or_string (.concat l r), fun h => by cases h⟩
  · rw [hvalue]
    rcases temporal_family op l r with h | ⟨t, ht, hfamily⟩
    · exact ⟨.inl h, fun _ => h⟩
    · obtain ⟨htype, hne, -⟩ := Ty.of_temporalResult? ht
      rw [htype]
      exact ⟨.inr (by rw [Ty.embraces, hfamily, Bool.or_true]), fun h => absurd h hne⟩

/-- A duration written before the time that it shifts, and a function less a number. -/
theorem dynamic_family_shifted_time :
    ((dayTimeDuration 3600000000000 : Value).CarriesFunctionType ∧
      (time Time.midnight : Value).CarriesFunctionType ∧
      Ty.time.embraces (dynamic .add (dayTimeDuration 3600000000000 : Value)
        (time Time.midnight)) = true) ∧
    ((function (.builtin "max" (.function [.any] none .any)) : Value).CarriesFunctionType ∧
      (number (.integer 2) : Value).CarriesFunctionType ∧
      dynamic .sub (function (.builtin "max" (.function [.any] none .any)) : Value)
        (number (.integer 2)) = .null) := by
  have hduration : (dayTimeDuration 3600000000000 : Value).CarriesFunctionType := nofun
  have htime : (time Time.midnight : Value).CarriesFunctionType := nofun
  have hnumber : (number (.integer 2) : Value).CarriesFunctionType := nofun
  have hfunction : (function (.builtin "max" (.function [.any] none .any)) :
      Value).CarriesFunctionType := fun _ h => by cases h; exact ⟨_, _, _, rfl⟩
  constructor
  · exact ⟨hduration, htime, (dynamic_family .add _ _ hduration htime).1.resolve_left nofun⟩
  · exact ⟨hfunction, hnumber, (dynamic_family .sub _ _ hfunction hnumber).2 rfl⟩

end Datum

end Feel
