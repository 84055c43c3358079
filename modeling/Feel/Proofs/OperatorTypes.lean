import Feel.Proofs.Agreement
import Feel.Term.OfSurface

/-!
# The types of operators

What an operator gives on values fits the type that it is said to have, whatever the values are,
or for values that fit the types of the operands.

* `Fits.temporal`, `Fits.negate` and the lemmas beside them: one for each operator on values.
* `Meets.result`: an operator on operands with two types each has two types that agree.
-/

namespace Feel

/-! ### Operators -/

namespace Fits

theorem eq_null {v : Value} (h : Fits v .null) : v = .null := by
  cases h
  rfl

theorem ofBool? (o : Option Bool) : Fits (.ofBool? o) .boolean := by
  cases o <;> constructor

theorem ofNumber? (o : Option Number) (k : NumberKind) : Fits (.ofNumber? o) (.number k) := by
  cases o <;> constructor

theorem arith (op : Operator) (l r : Value) (mode : NumericMode) (precision : Nat)
    (k : NumberKind) : Fits (l.arith op r mode precision) (.number k) := by
  unfold Datum.arith
  split
  · exact ofNumber? _ k
  · exact .null _

theorem concat (l r : Value) : Fits (l.concat r) .string := by
  unfold Datum.concat
  split <;> constructor

theorem compare (op : Operator) (l r : Value) : Fits (l.compare op r) .boolean := ofBool? _

theorem compareAs (op : Operator) (mode : CompareMode) (l r : Value) :
    Fits (Datum.compareAs op mode l r) .boolean := by
  unfold Datum.compareAs
  split <;> exact ofBool? _

theorem and (l r : Value) : Fits (l.and r) .boolean := by
  unfold Datum.and
  split <;> constructor

theorem or (l r : Value) : Fits (l.or r) .boolean := by
  unfold Datum.or
  split <;> constructor

theorem logic (op : Operator) (l r : Value) : Fits (Datum.logic op l r) .boolean := by
  unfold Datum.logic
  split
  · exact or l r
  · exact and l r

theorem not (v : Value) : Fits v.not .boolean := ofBool? _

/-- The opposite of a value fits the type of a negation. -/
theorem negate {v : Value} {t : Ty} (h : Fits v t) :
    Fits v.negate (Elaboration.negationType t) := by
  cases h with
  | null => exact .null _
  | any => exact .any _
  | _ => constructor

/-! ### Dates, times and durations -/

theorem getD {o : Option Value} {t : Ty} (h : ∀ v, o = some v → Fits v t) :
    Fits (o.getD .null) t := by
  cases o with
  | none => exact .null t
  | some v => exact h v rfl

/-- A scaled duration fits what it fitted before. -/
theorem scaleDuration? {op : Operator} {v : Value} {t : Ty} (h : Fits v t) {n : Number}
    {w : Value} (hw : v.scaleDuration? op n = some w) : Fits w t := by
  unfold Datum.scaleDuration? at hw
  split at hw
  · obtain ⟨millis, -, hw⟩ := Option.bind_eq_some_iff.mp hw
    obtain ⟨x, -, rfl⟩ := Option.map_eq_some_iff.mp hw
    cases h <;> constructor
  · obtain ⟨x, -, rfl⟩ := Option.map_eq_some_iff.mp hw
    cases h <;> constructor
  · contradiction

/-- Arithmetic of dates, times and durations fits the type found for the operand types. -/
theorem temporal {op : Operator} {l r : Value} {f g t : Ty} (hl : Fits l f) (hr : Fits r g)
    (ht : Ty.temporalResult? op f g = some t) : Fits (Datum.temporal op l r) t := by
  unfold Ty.temporalResult? at ht
  split at ht <;> cases ht <;> cases hl <;> cases hr <;>
    first
      | exact .null _
      | exact .dayTimeDuration _
      | exact .time _
      | (simp only [Datum.temporal, Datum.temporalMul?, Datum.temporalDiv?]
         exact getD fun _ hv => scaleDuration? (by constructor) hv)
      | (refine getD fun _ hv => ?_
         obtain ⟨x, -, rfl⟩ := Option.map_eq_some_iff.mp hv
         constructor)

end Fits

/-! ### Operators on operands with two types -/

namespace Datum

@[simp] theorem order?_null_left (v : Value) : (null : Value).order? v = none := by
  cases v <;> rfl

@[simp] theorem order?_null_right (v : Value) : v.order? (null : Value) = none := by
  cases v <;> rfl

/-- The operators beside equality and logic give null on null. -/
theorem arith_of_null {op : Operator} {l r : Value} (h : l = .null ∨ r = .null)
    (mode : NumericMode) (precision : Nat) : l.arith op r mode precision = .null := by
  rcases h with rfl | rfl
  · rfl
  · cases l <;> rfl

theorem concat_of_null {l r : Value} (h : l = .null ∨ r = .null) : l.concat r = .null := by
  rcases h with rfl | rfl
  · rfl
  · cases l <;> rfl

theorem compareAs_of_null {op : Operator} {mode : CompareMode} {l r : Value}
    (h : l = .null ∨ r = .null) : Datum.compareAs op mode l r = .null := by
  rcases h with rfl | rfl
  · cases mode <;> simp [compareAs, compare, ofBool?]
  · cases mode <;> cases l <;> simp [compareAs, compare, ofBool?]

theorem temporal_of_null {op : Operator} {l r : Value} (h : l = .null ∨ r = .null) :
    Datum.temporal op l r = .null := by
  rcases h with rfl | rfl
  · cases op <;> cases r <;> rfl
  · cases op <;> cases l <;> rfl

theorem dynamic_of_null {op : Operator} {l r : Value} (heq : op.isEquality = false)
    (hlogic : op.isLogic = false) (h : l = .null ∨ r = .null) : Datum.dynamic op l r = .null := by
  have hany : (l.isNull || r.isNull) = true := by
    rcases h with rfl | rfl <;> simp [isNull]
  unfold dynamic
  rw [hlogic, heq, if_neg Bool.false_ne_true, if_neg Bool.false_ne_true]
  split
  · show Datum.compareAs op .natural l r = .null
    exact compareAs_of_null h
  · rfl

end Datum

namespace Operator

/-- The type of an operator does not depend on what the elements of lists are. -/
theorem resultType_list_left (op : Operator) (a b g : Ty) :
    op.resultType (.list a) g = op.resultType (.list b) g := by
  cases op <;> cases g <;> rfl

theorem resultType_list_right (op : Operator) (f a b : Ty) :
    op.resultType f (.list a) = op.resultType f (.list b) := by
  cases op <;> cases f <;> rfl

end Operator

/-- What agreement of the types of a value comes to: the value is null, any value will do, or
both types are the same but for the elements of lists. -/
theorem Agree.cases {v : Value} {f t : Ty} (h : Agree v f t) :
    v = .null ∨ t = .any ∨ f = t ∨ ∃ a b, f = .list a ∧ t = .list b := by
  cases h with
  | same => exact .inr (.inr (.inl rfl))
  | any => exact .inr (.inl rfl)
  | null => exact .inl rfl
  | listAny v a => exact .inr (.inr (.inr ⟨a, .any, rfl, rfl⟩))
  | @item items x a b => exact .inr (.inr (.inr ⟨a, b, rfl, rfl⟩))

/-- Operators beside equality and logic on a value of any type: a comparison, or any value. -/
theorem Operator.resultType_any {op : Operator} (heq : op.isEquality = false)
    (hlogic : op.isLogic = false) {t u : Ty} (h : t = .any ∨ u = .any) :
    op.resultType t u = .any ∨ (op.isOrdering = true ∧ op.resultType t u = .boolean) := by
  have hcomparable : t.comparable u = true := by
    rcases h with rfl | rfl
    · cases u <;> rfl
    · cases t <;> rfl
  have hany : (t.isAny || u.isAny) = true := by
    rcases h with rfl | rfl <;> simp [Ty.isAny]
  cases hord : op.isOrdering with
  | true => exact .inr ⟨rfl, by simp [resultType, heq, hlogic, hord, hcomparable]⟩
  | false => exact .inl (by simp [resultType, heq, hlogic, hord, hany])

/-- The types of an operator on two operands agree, where it gives null on null. -/
theorem Meets.result {op : Operator} {l r v : Value} {f g t u : Ty} (hl : Agree l f t)
    (hr : Agree r g u) (hv : Fits v (op.resultType f g))
    (hnull : op.isEquality = false → op.isLogic = false → l = .null ∨ r = .null → v = .null) :
    Meets v (op.resultType f g) (op.resultType t u) := by
  by_cases hlogic : op.isEquality = true ∨ op.isLogic = true
  · have hboolean : ∀ a b, op.resultType a b = .boolean := by
      intro a b
      unfold Operator.resultType
      rw [if_pos (by simpa using hlogic)]
    rw [hboolean] at hv ⊢
    rw [hboolean]
    exact .of_fits hv
  rw [not_or, Bool.not_eq_true, Bool.not_eq_true] at hlogic
  obtain ⟨heq, hlogic⟩ := hlogic
  -- the types are the same, or the value is null, or the written type is any type
  have hsame : v = .null ∨ (t = .any ∨ u = .any) ∨ op.resultType f g = op.resultType t u := by
    rcases hl.cases with hl | hl | hl
    · exact .inl (hnull heq hlogic (.inl hl))
    · exact .inr (.inl (.inl hl))
    rcases hr.cases with hr | hr | hr
    · exact .inl (hnull heq hlogic (.inr hr))
    · exact .inr (.inl (.inr hr))
    refine .inr (.inr ?_)
    rcases hl with rfl | ⟨a, b, rfl, rfl⟩ <;> rcases hr with rfl | ⟨c, d, rfl, rfl⟩
    · rfl
    · exact op.resultType_list_right _ c d
    · exact op.resultType_list_left a b _
    · rw [op.resultType_list_left a b, op.resultType_list_right _ c d]
  rcases hsame with rfl | hany | hsame
  · exact .null _ _
  · rcases Operator.resultType_any heq hlogic hany with htype | ⟨hord, htype⟩
    · rw [htype]
      exact ⟨hv, .any v, .any v _⟩
    · -- a comparison is null, or a boolean both times
      rw [htype]
      have hcases : op.resultType f g = .boolean ∨ op.resultType f g = .null := by
        simp only [Operator.resultType, heq, hlogic, hord]
        cases f.comparable g <;> simp
      rcases hcases with hcase | hcase
      · rw [hcase] at hv ⊢
        exact .of_fits hv
      · rw [hcase] at hv
        rw [hv.eq_null]
        exact .null _ _
  · rw [← hsame]
    exact .of_fits hv

end Feel
