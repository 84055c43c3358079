import Feel.Fragment.OfTerm
import Feel.Proofs.CodeTypes

/-!
# The types of lowered expressions

Lowering gathers constants in a pool that only grows, so what is known of code over one pool is
known over all later ones. A fragment is sound at the type that its expression was written with
when its value, if it is known, and the values of its code meet the type it was lowered with and
the one it was written with.

* `Lowering.Ensures`: what a step of lowering leaves, with one law for each kind of step.
* `Frame.Suits`: a frame has values that fit the names of a scope.
* `Fragment.Sound`: a fragment is sound at a written type.
* `Fragment.Sound.binary`: operators of sound fragments are sound.
-/

namespace Feel

/-! ### Steps of lowering -/

namespace Lowering

variable {α β : Type}

/-- From a pool that begins with `pool` a step only adds to the pool, and what it gives has a
property over the pool that it leaves. -/
def Ensures (pool : List Value) (x : Lowering α) (P : α → List Value → Prop) : Prop :=
  ∀ d a d', pool <+: d.constants → x d = .ok (a, d') →
    d.constants <+: d'.constants ∧ P a d'.constants

namespace Ensures

variable {pool : List Value} {x : Lowering α} {P : α → List Value → Prop}

theorem imp {R : α → List Value → Prop} (h : Ensures pool x P)
    (hP : ∀ a pool', pool <+: pool' → P a pool' → R a pool') : Ensures pool x R := by
  intro d a d' hd hx
  obtain ⟨hgrow, ha⟩ := h d a d' hd hx
  exact ⟨hgrow, hP a _ (hd.trans hgrow) ha⟩

theorem pure {a : α} (h : ∀ pool', pool <+: pool' → P a pool') :
    Ensures pool (Pure.pure a) P := by
  intro d b d' hd hx
  cases hx
  exact ⟨List.prefix_refl _, h _ hd⟩

theorem throw {e : CompileError} : Ensures pool (throw e : Lowering α) P := by
  intro d a d' _ hx
  cases hx

theorem bind {f : α → Lowering β} {R : β → List Value → Prop} (hx : Ensures pool x P)
    (hf : ∀ a pool', pool <+: pool' → P a pool' → Ensures pool' (f a) R) :
    Ensures pool (x >>= f) R := by
  intro d b d' hd hb
  obtain ⟨⟨a, mid⟩, ha, hb⟩ := bind_eq_ok.mp hb
  obtain ⟨hgrow, hPa⟩ := hx d a mid hd ha
  obtain ⟨hmore, hRb⟩ := hf a mid.constants (hd.trans hgrow) hPa mid b d' (List.prefix_refl _) hb
  exact ⟨hgrow.trans hmore, hRb⟩

/-- A step that leaves the pool as it is. -/
theorem fresh {name : String} {P : String → List Value → Prop}
    (h : ∀ cursor pool', pool <+: pool' → P cursor pool') :
    Ensures pool (Lowering.fresh name) P := by
  intro d b d' hd hx
  cases hx
  exact ⟨List.prefix_refl _, h _ _ hd⟩

/-- The place of a value holds the value, or one that it shares the place with. -/
theorem internShared {v : Value} {P : Nat → List Value → Prop}
    (h : ∀ i pool' w, pool <+: pool' → pool'[i]? = some w →
      w = v ∨ Draft.sharesPlace w v = true → P i pool') :
    Ensures pool (Lowering.intern v) P := by
  intro d i d' hd hx
  have hstep : d.intern v = (i, d') := Except.ok.inj hx
  unfold Draft.intern at hstep
  split at hstep
  · next j hj =>
    cases hstep
    obtain ⟨hlt, hshare, -⟩ := List.findIdx?_eq_some_iff_getElem.mp hj
    exact ⟨List.prefix_refl _, h _ _ _ hd (List.getElem?_eq_getElem hlt) (.inr hshare)⟩
  · cases hstep
    have hgrow : d.constants <+: d.constants ++ [v] := List.prefix_append _ _
    exact ⟨hgrow, h _ _ v (hd.trans hgrow) (by simp) (.inl rfl)⟩

/-- The place of a value holds the value, or one that is the same. -/
theorem intern {v : Value} {P : Nat → List Value → Prop}
    (h : ∀ i pool' w, pool <+: pool' → pool'[i]? = some w → w = v ∨ w.same v = true →
      P i pool') :
    Ensures pool (Lowering.intern v) P := by
  refine internShared fun i pool' w hpool hw hshare => h i pool' w hpool hw ?_
  refine hshare.imp_right fun hshare => ?_
  rw [Draft.sharesPlace, Bool.and_eq_true] at hshare
  exact hshare.1

/-- The code of a constant is the constant, or the place of a value that it shares the place
with. -/
theorem constantCodePlaced {v : Value} {P : Code → List Value → Prop}
    (hconst : ∀ pool', pool <+: pool' → P (.const v) pool')
    (href : ∀ i pool' w, pool <+: pool' → pool'[i]? = some w →
      w = v ∨ Draft.sharesPlace w v = true → P (.constRef i) pool') :
    Ensures pool (Lowering.constantCode v) P := by
  intro d c d' hd hx
  have hstep : d.constantCode v = (c, d') := Except.ok.inj hx
  unfold Draft.constantCode at hstep
  split at hstep
  · cases hstep
    exact ⟨List.prefix_refl _, hconst _ hd⟩
  · have hplace := internShared href d (d.intern v).1 (d.intern v).2 hd rfl
    cases hstep
    exact hplace

/-- The code of a constant gives the constant, or a value that it shares a place with. -/
theorem constantCodeShared {v : Value} {P : Code → List Value → Prop}
    (h : ∀ c pool', pool <+: pool' →
      (∀ Q, c.Gives pool' Q fun w => w = v ∨ Draft.sharesPlace w v = true) → P c pool') :
    Ensures pool (Lowering.constantCode v) P :=
  constantCodePlaced (fun _ hpool => h _ _ hpool fun _ => .const (.inl rfl))
    fun _ _ _ hpool hw hshare => h _ _ hpool fun _ => .constRef hw hshare

/-- The code of a constant gives the constant, or a value that is the same. -/
theorem constantCode {v : Value} {P : Code → List Value → Prop}
    (h : ∀ c pool', pool <+: pool' →
      (∀ Q, c.Gives pool' Q fun w => w = v ∨ w.same v = true) → P c pool') :
    Ensures pool (Lowering.constantCode v) P := by
  refine constantCodeShared fun c pool' hpool hc => h c pool' hpool fun Q => ?_
  refine (hc Q).imp fun w hw => hw.imp_right fun hshare => ?_
  rw [Draft.sharesPlace, Bool.and_eq_true] at hshare
  exact hshare.1

end Ensures

end Lowering

/-! ### Frames -/

namespace Frame

/-- A frame has values that fit the names of a scope, and a value under test that meets the
type it is lowered with and the one of the scope. -/
structure Suits (S : Scope) (test : Ty) (frame : Frame) : Prop where
  locals : ∀ name t, S.local? name = some t → Fits (frame.lookup name) t
  inputs : ∀ name t, (S.inputs.lookup name).or (S.inputType.field? name) = some t →
    Fits ((frame.input.get? name).getD .null) t
  tested : Meets frame.tested test (S.testType.getD .any)

namespace Suits

variable {S : Scope} {test : Ty} {frame : Frame}

theorem push (h : frame.Suits S test) (isOpen : Bool) : frame.Suits (S.push isOpen) test :=
  ⟨fun name t ht => h.locals name t (by rw [← Scope.local?_push S isOpen]; exact ht), h.inputs,
    h.tested⟩

/-- A local of the scope is bound in the frame. -/
theorem declare (h : frame.Suits S test) (name : String) {t : Ty} {v : Value} (hv : Fits v t) :
    (frame.bind name v).Suits (S.declare name t) test := by
  unfold Scope.declare
  split
  · next hlayers =>
    refine ⟨fun other u hu => ?_, h.inputs, h.tested⟩
    simp [Scope.local?, hlayers] at hu
  · next layer rest hlayers =>
    refine ⟨fun other u hu => ?_, h.inputs, h.tested⟩
    by_cases hname : other = name
    · rw [hname, Scope.local?, List.findSome?_cons, List.lookup_cons_self] at hu
      cases hu
      rw [hname, lookup_bind_self]
      exact hv
    · have hbeq : (other == name) = false := by simpa using hname
      rw [lookup_bind_of_ne frame v hname]
      apply h.locals other u
      rw [← hu]
      simp [Scope.local?, hlayers, List.findSome?_cons, List.lookup_cons, hbeq]

theorem withTest (h : frame.Suits S test) {v : Value} {f t : Ty} (hv : Meets v f t) :
    (frame.withTest v).Suits (S.withTest t) f :=
  ⟨h.locals, h.inputs, hv⟩

end Suits

end Frame

/-! ### Fragments -/

namespace Fragment

/-- A fragment whose value, as far as it is known and whenever its code runs, meets its type and
the type that its expression was written with. -/
structure Sound (pool : List Value) (Q : Frame → Prop) (T : Ty) (f : Fragment) : Prop where
  known : ∀ v, f.constant = some v → Meets v f.type T
  runs : f.code.Gives pool Q fun v => Meets v f.type T

namespace Sound

variable {pool : List Value} {Q : Frame → Prop} {T U : Ty} {f g : Fragment}

theorem extend {pool' : List Value} (h : f.Sound pool Q T) (hpool : pool <+: pool') :
    f.Sound pool' Q T :=
  ⟨h.known, h.runs.extend hpool⟩

theorem computed {c : Code} {t : Ty} (h : c.Gives pool Q fun v => Meets v t T) :
    (computed c t).Sound pool Q T :=
  ⟨fun _ hv => (nomatch hv), h⟩

/-- Code whose values fit the type that is both written and lowered. -/
theorem computed_of_fits {c : Code} (h : c.Gives pool Q fun v => Fits v T) :
    (Fragment.computed c T).Sound pool Q T :=
  computed (h.imp fun _ => Meets.of_fits)

theorem nonNull (h : f.Sound pool Q T) : f.nonNull.Sound pool Q T := ⟨h.known, h.runs⟩

theorem withNullable (h : f.Sound pool Q T) (b : Bool) :
    (f.withNullable b).Sound pool Q T := by
  cases b with
  | true => exact ⟨h.known, h.runs⟩
  | false => exact h.nonNull

/-- The same values at one more type that they fit. -/
theorem withType (h : f.Sound pool Q T) (ht : ∀ v, Fits v T → Fits v U) :
    Sound pool Q U { f with type := U } :=
  ⟨fun v hv => .of_fits (ht v (h.known v hv).written),
    h.runs.imp fun v hv => .of_fits (ht v hv.written)⟩

/-- Other types that the values of a fragment meet. -/
theorem imp (h : f.Sound pool Q T) (hmeets : ∀ v, Meets v f.type T → Meets v f.type U) :
    f.Sound pool Q U :=
  ⟨fun v hv => hmeets v (h.known v hv), h.runs.imp hmeets⟩

theorem null : Fragment.null.Sound pool Q T := by
  refine ⟨fun v hv => ?_, .const (.null _ _)⟩
  cases hv
  exact .null _ _

end Sound

/-- What meets two types does so in another value that is the same. -/
theorem meets_of_same {v w : Value} {f t : Ty} (h : Meets v f t)
    (hw : w = v ∨ w.same v = true) : Meets w f t := by
  rcases hw with rfl | hsame
  · exact h
  · exact ⟨h.lowered.of_same hsame, h.written.of_same hsame, h.agree.of_same hsame⟩

/-- A known value that meets its types. -/
theorem ensures_ofConstant {pool : List Value} {Q : Frame → Prop} {v : Value} {t T : Ty}
    (h : Meets v t T) :
    Lowering.Ensures pool (ofConstant v t) fun f pool' => f.Sound pool' Q T := by
  refine Lowering.Ensures.bind (P := fun c pool' => c.Gives pool' Q fun w => Meets w t T)
    (.constantCode fun c pool' _ hc => ?_) fun c pool' _ hc => .pure fun pool'' hpool => ?_
  · exact (hc Q).imp fun w hw => meets_of_same h hw
  · refine ⟨fun w hw => ?_, hc.extend hpool⟩
    cases hw
    exact h

/-! ### Operators -/

/-- An outcome whose value, or whose fragment, meets a type. -/
def OutcomeSound (pool : List Value) (Q : Frame → Prop) (T : Ty) : Outcome → Prop
  | .value v t => Meets v t T
  | .fragment f => f.Sound pool Q T

theorem ensures_emit {pool : List Value} {Q : Frame → Prop} {T : Ty} {o : Outcome}
    (h : OutcomeSound pool Q T o) :
    Lowering.Ensures pool o.emit fun f pool' => f.Sound pool' Q T := by
  cases o with
  | value v t => exact ensures_ofConstant h
  | fragment f => exact .pure fun pool' hpool => h.extend hpool

/-- A boolean or null at its own type. -/
theorem meets_own {v : Value} {T : Ty} (h : Meets v .boolean T) : Meets v v.type T := by
  obtain ⟨hfits, hwritten, hagree⟩ := h
  cases hfits with
  | null => exact .null _ _
  | boolean b => exact ⟨.boolean b, hwritten, hagree⟩

section Operators

variable {pool : List Value} {Q : Frame → Prop} {T U : Ty} {l r : Fragment} {op : Operator}

theorem equality_sound (l r : Fragment) :
    OutcomeSound pool Q .boolean (equality {} op l r) := by
  unfold equality
  extract_lets negated
  split
  · exact meets_own (.of_fits (.boolean _))
  · split
    · exact meets_own (.of_fits (.boolean _))
    · exact .nonNull (.computed_of_fits (.equal fun b => .boolean b))

theorem connective_sound (l : Fragment) (hr : r.Sound pool Q U) :
    OutcomeSound pool Q .boolean (connective {} op l r) := by
  have hlogic := Fits.logic op
  unfold connective
  split
  · exact meets_own (.of_fits (hlogic _ _))
  · split
    · exact meets_own (.of_fits (.boolean _))
    · extract_lets shortCircuit whole
      have hwhole : whole.Sound pool Q .boolean := by
        refine .computed_of_fits (.logic (fun b => .boolean b) hlogic fun hshort => ?_)
        -- the right operand is the value only where its type is that of booleans
        have htype : r.type = .boolean := by
          cases ht : r.type <;> simp [shortCircuit, isProvenBoolean, ht, Ty.isBoolean] at hshort ⊢
        exact hr.runs.imp fun v hv => htype ▸ hv.lowered
      show Sound pool Q .boolean (if shortCircuit then whole.nonNull else whole)
      split
      · exact hwhole.nonNull
      · exact hwhole

/-- What an operator gives on operands that meet their types meets the types of the operator. -/
theorem comparison_sound (hl : l.Sound pool Q T) (hr : r.Sound pool Q U)
    (hresult : op.resultType l.type r.type = .boolean) :
    OutcomeSound pool Q (op.resultType T U) (comparison {} op l r) := by
  unfold comparison
  extract_lets mode whole
  have hmeets : ∀ x y, Meets x l.type T → Meets y r.type U →
      Meets (Datum.compareAs op mode x y) .boolean (op.resultType T U) := by
    intro x y hx hy
    rw [← hresult]
    refine Meets.result hx.agree hy.agree (hresult ▸ Fits.compareAs op mode x y) ?_
    exact fun _ _ hnull => Datum.compareAs_of_null hnull
  split
  · next a b hab =>
    obtain ⟨ha, hb⟩ := constants_of_operands? hab
    exact meets_own (hmeets a b (hl.known a ha) (hr.known b hb))
  · have hwhole : whole.Sound pool Q (op.resultType T U) :=
      .computed (.compare hl.runs hr.runs hmeets)
    show Sound pool Q _ (if l.primitive && r.primitive then whole.nonNull else whole)
    split
    · exact hwhole.nonNull
    · exact hwhole

theorem arithmetic_sound (hl : l.Sound pool Q T) (hr : r.Sound pool Q U)
    (hnumber : ∃ k, op.resultType l.type r.type = .number k) :
    OutcomeSound pool Q (op.resultType T U) (arithmetic {} op l r) := by
  unfold arithmetic
  extract_lets result mode nullCheck nullable
  have hmeets : ∀ x y, Meets x l.type T → Meets y r.type U →
      Meets (Datum.arith op x y mode Number.defaultPrecision) result (op.resultType T U) := by
    intro x y hx hy
    refine Meets.result hx.agree hy.agree ?_ fun _ _ hnull => Datum.arith_of_null hnull _ _
    obtain ⟨k, hk⟩ := hnumber
    rw [hk]
    exact Fits.arith op x y mode _ k
  split
  · next a b hab =>
    obtain ⟨ha, hb⟩ := constants_of_operands? hab
    exact hmeets a b (hl.known a ha) (hr.known b hb)
  · refine .withNullable (.computed (.arith hl.runs hr.runs hmeets fun _ => ?_)) _
    exact .null _ _

theorem concatenation_sound (hl : l.Sound pool Q T) (hr : r.Sound pool Q U)
    (hstring : Operator.resultType .add l.type r.type = .string) :
    OutcomeSound pool Q (Operator.resultType .add T U) (concatenation {} l r) := by
  unfold concatenation
  have hmeets : ∀ x y, Meets x l.type T → Meets y r.type U →
      Meets (Datum.concat x y) .string (Operator.resultType .add T U) := by
    intro x y hx hy
    rw [← hstring]
    refine Meets.result hx.agree hy.agree (hstring ▸ Fits.concat x y) ?_
    exact fun _ _ hnull => Datum.concat_of_null hnull
  split
  · next a b hab =>
    obtain ⟨ha, hb⟩ := constants_of_operands? hab
    exact hmeets a b (hl.known a ha) (hr.known b hb)
  · exact .withNullable (.computed (.concat hl.runs hr.runs hmeets)) _

theorem temporal_sound (hl : l.Sound pool Q T) (hr : r.Sound pool Q U)
    (htemporal : Ty.temporalResult? op l.type r.type = some (op.resultType l.type r.type)) :
    OutcomeSound pool Q (op.resultType T U) (temporal {} op l r) := by
  unfold temporal
  extract_lets result
  have hmeets : ∀ x y, Meets x l.type T → Meets y r.type U →
      Meets (Datum.temporal op x y) result (op.resultType T U) := by
    intro x y hx hy
    refine Meets.result hx.agree hy.agree (Fits.temporal hx.lowered hy.lowered htemporal) ?_
    exact fun _ _ hnull => Datum.temporal_of_null hnull
  split
  · next a b hab =>
    obtain ⟨ha, hb⟩ := constants_of_operands? hab
    exact hmeets a b (hl.known a ha) (hr.known b hb)
  · exact .computed (.temporal hl.runs hr.runs hmeets)

/-- The type of arithmetic on numbers. -/
theorem exists_resultType_eq_number (heq : op.isEquality = false) (hlogic : op.isLogic = false)
    (hord : op.isOrdering = false) {f g : Ty} (h : (f.isNumber && g.isNumber) = true) :
    ∃ k, op.resultType f g = .number k := by
  have hnumber : ∀ {t : Ty}, t.isNumber = true → ∃ k, t = .number k := by
    intro t ht
    cases t <;> simp [Ty.isNumber] at ht ⊢
  rw [Bool.and_eq_true] at h
  obtain ⟨a, rfl⟩ := hnumber h.1
  obtain ⟨b, rfl⟩ := hnumber h.2
  have hresult : op.resultType (.number a) (.number b) = Ty.numberResult op a b := by
    cases op <;> first | rfl | contradiction
  rw [hresult]
  unfold Ty.numberResult
  split
  · exact ⟨_, rfl⟩
  · split <;> exact ⟨_, rfl⟩
  · exact ⟨_, rfl⟩

/-- The type of an operator that is neither equality nor logic nor order, on types that are not
any type: that of a sum with a string, that of dates, times and durations, that of numbers, or
null. -/
theorem resultType_cases (heq : op.isEquality = false) (hlogic : op.isLogic = false)
    (hord : op.isOrdering = false) (f g : Ty) :
    ((f.isAny || g.isAny) = true ∧ op.resultType f g = .any) ∨
      (op = .add ∧ op.resultType f g = .string) ∨
      Ty.temporalResult? op f g = some (op.resultType f g) ∨
      (f.isNumber && g.isNumber) = true ∨ op.resultType f g = .null := by
  unfold Operator.resultType
  rw [heq, hlogic, hord]
  simp only [Bool.or_false, Bool.false_eq_true, if_false]
  split
  · next hany => exact .inl ⟨hany, rfl⟩
  · split
    · next hadd =>
      rw [Bool.and_eq_true, decide_eq_true_eq] at hadd
      exact .inr (.inl ⟨hadd.1, rfl⟩)
    · split
      · next t ht => exact .inr (.inr (.inl ht))
      · split
        · exact .inr (.inr (.inr (.inl rfl)))
        · exact .inr (.inr (.inr (.inr rfl)))

/-- The rules for operators, each with what it takes of the types of the operands. -/
inductive Rule (o : Options) (op : Operator) (l r : Fragment) : Outcome → Prop where
  | equality : op.isEquality = true → Rule o op l r (equality o op l r)
  | connective : op.isLogic = true → Rule o op l r (connective o op l r)
  | comparison : op.isOrdering = true → op.resultType l.type r.type = .boolean →
    Rule o op l r (comparison o op l r)
  | arithmetic : op.isEquality = false → op.isLogic = false → op.isOrdering = false →
    (l.type.isNumber && r.type.isNumber) = true → Rule o op l r (arithmetic o op l r)
  | concatenation : op = .add → op.resultType l.type r.type = .string →
    Rule o op l r (concatenation o l r)
  | temporal : Ty.temporalResult? op l.type r.type = some (op.resultType l.type r.type) →
    Rule o op l r (temporal o op l r)

/-- What covers an operator is one of the rules. -/
theorem rule_of_outcome? {o : Options} {x : Outcome} (h : outcome? o op l r = some x) :
    Rule o op l r x := by
  unfold outcome? at h
  extract_lets result at h
  split at h
  · next heq => exact Option.some.inj h ▸ .equality heq
  next heq =>
  split at h
  · next hlogic => exact Option.some.inj h ▸ .connective hlogic
  next hlogic =>
  split at h
  · next hordering =>
    split at h
    · next hresult =>
      refine Option.some.inj h ▸ .comparison hordering ?_
      cases ht : op.resultType l.type r.type <;>
        simp [result, ht, Ty.isBoolean] at hresult ⊢
    · cases h
  next hord =>
  rw [Bool.not_eq_true] at heq hlogic hord
  have hcases := resultType_cases heq hlogic hord l.type r.type
  split at h
  · next hnumbers => exact Option.some.inj h ▸ .arithmetic heq hlogic hord hnumbers
  next hnumbers =>
  split at h
  · next hadd =>
    rw [Bool.and_eq_true, beq_iff_eq] at hadd
    obtain ⟨hadd, hstring⟩ := hadd
    refine Option.some.inj h ▸ .concatenation hadd ?_
    cases ht : op.resultType l.type r.type <;>
      simp [result, ht, Ty.isString] at hstring ⊢
  next hadd =>
  split at h
  · next htemporal =>
    refine Option.some.inj h ▸ .temporal ?_
    rcases hcases with ⟨-, hany⟩ | ⟨rfl, hstring⟩ | hfound | hnumber | hnull
    · simp [result, hany, Ty.isAny] at htemporal
    · simp [result, hstring, Ty.isString] at hadd
    · exact hfound
    · exact absurd hnumber hnumbers
    · simp [result, hnull, Ty.isNull] at htemporal
  · cases h

/-- Equality and logic give booleans. -/
theorem resultType_eq_boolean (h : op.isEquality = true ∨ op.isLogic = true) (T U : Ty) :
    op.resultType T U = .boolean := by
  unfold Operator.resultType
  rw [if_pos (by simpa using h)]

/-- Every rule for an operator is sound. -/
theorem outcome?_sound (hl : l.Sound pool Q T) (hr : r.Sound pool Q U) {o : Outcome}
    (h : outcome? {} op l r = some o) : OutcomeSound pool Q (op.resultType T U) o := by
  cases rule_of_outcome? h with
  | equality heq =>
    rw [resultType_eq_boolean (.inl heq)]
    exact equality_sound l r
  | connective hlogic =>
    rw [resultType_eq_boolean (.inr hlogic)]
    exact connective_sound l hr
  | comparison _ hresult => exact comparison_sound hl hr hresult
  | arithmetic heq hlogic hord hnumbers =>
    exact arithmetic_sound hl hr (exists_resultType_eq_number heq hlogic hord hnumbers)
  | concatenation hadd hstring =>
    subst hadd
    exact concatenation_sound hl hr hstring
  | temporal hresult => exact temporal_sound hl hr hresult

/-- What no rule covers has any type, where an operand has. -/
theorem resultType_eq_any_of_outcome? (h : outcome? {} op l r = none)
    (hany : ((op.resultType l.type r.type).isAny || l.type.isAny || r.type.isAny) = true) :
    op.resultType l.type r.type = .any := by
  have isAny_iff : ∀ {t : Ty}, t.isAny = true → t = .any := by
    intro t ht
    cases t <;> simp [Ty.isAny] at ht ⊢
  unfold outcome? at h
  split at h
  · cases h
  next heq =>
  split at h
  · cases h
  next hlogic =>
  rw [Bool.not_eq_true] at heq hlogic
  rw [Bool.or_eq_true, Bool.or_eq_true, or_assoc] at hany
  rcases hany with hany | hany
  · exact isAny_iff hany
  · rcases Operator.resultType_any heq hlogic (hany.imp isAny_iff isAny_iff) with
      hresult | ⟨hord, hresult⟩
    · exact hresult
    · simp [hord, hresult, Ty.isBoolean] at h

/-- **Operators are sound.** -/
theorem ensures_binary (span : Span) (hl : l.Sound pool Q T) (hr : r.Sound pool Q U) :
    Lowering.Ensures pool (binary {} span op l r)
      fun f pool' => f.Sound pool' Q (op.resultType T U) := by
  unfold binary
  split
  · next o ho => exact ensures_emit (outcome?_sound hl hr ho)
  · next hnone =>
    extract_lets result
    split
    · next hany =>
      have hresult : op.resultType l.type r.type = .any :=
        resultType_eq_any_of_outcome? hnone hany
      have hmeets : ∀ x y, Meets x l.type T → Meets y r.type U →
          Meets (Datum.dynamic op x y) result (op.resultType T U) := by
        intro x y hx hy
        refine Meets.result hx.agree hy.agree (hresult ▸ .any _) ?_
        exact fun heq hlogic hnull => Datum.dynamic_of_null heq hlogic hnull
      exact .pure fun pool' hpool => (Sound.computed (.dynamic hl.runs hr.runs hmeets)).extend hpool
    · split
      · exact .pure fun _ _ => .null
      · exact .throw

end Operators

end Fragment

end Feel
