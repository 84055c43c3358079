import Feel.Fragment.Operators
import Feel.Proofs.Refinement

/-!
# Lowering twice

The same expression is lowered twice, over two pools that grow independently of each other. What
is known of the two results is stated over the pools that the steps leave. The values that are
pooled are told apart by the pool: of two that share a place one is the other.

* `ApartInPool`, `Poolable`: values that are told apart by a pool.
* `Draft.intern_spec`: a pool of such values loads each of them.
* `Lowering.Pairs`: what two steps of lowering leave, with one law for each kind of step.
-/

namespace Feel

/-! ### Pools -/

/-- Values of a kind that share a place only with themselves. -/
def ApartInPool (K : Value → Prop) : Prop :=
  ∀ a b, K a → K b → Draft.sharesPlace a b = true → a = b

/-- The values that are pooled: those of a kind, and built-in functions. -/
def Poolable (K : Value → Prop) (v : Value) : Prop :=
  K v ∨ ∃ f : Builtin, v = .function f.functionValue

/-- A value that is pooled shares a place only with itself. -/
theorem Poolable.eq_of_sharesPlace {K : Value → Prop} (hK : ApartInPool K) {a b : Value}
    (ha : Poolable K a) (hb : Poolable K b) (h : Draft.sharesPlace a b = true) : a = b := by
  have hshare := h
  rw [Draft.sharesPlace, Bool.and_eq_true, beq_iff_eq] at h
  obtain ⟨hsame, htype⟩ := h
  -- a built-in function is told by its name and its type
  have hfunction : ∀ {f : Builtin} {v w : Value}, v = .function f.functionValue →
      v.same w = true ∨ w.same v = true → v.type = w.type → v = w := by
    rintro f v w rfl hsame htype
    have hname : ∃ type, w = .function (.builtin f.name type) := by
      cases w with
      | function g =>
        cases g with
        | builtin name type =>
          simp only [Datum.same, Function.same, Builtin.functionValue, beq_iff_eq] at hsame
          exact ⟨type, by rw [hsame.elim Eq.symm id]⟩
        | _ => simp [Datum.same, Function.same, Builtin.functionValue] at hsame
      | _ => simp [Datum.same] at hsame
    obtain ⟨type, rfl⟩ := hname
    have htype' : f.overloads.headD .any = type := htype
    rw [← htype']
    rfl
  rcases ha with ha | ⟨f, hf⟩
  · rcases hb with hb | ⟨g, hg⟩
    · exact hK a b ha hb hshare
    · exact (hfunction hg (.inr hsame) htype.symm).symm
  · exact hfunction hf (.inl hsame) htype

/-- A draft whose pool holds values that are told apart loads each of them. -/
theorem Draft.intern_spec {K : Value → Prop} (hK : ApartInPool K) {d : Draft}
    (hd : ∀ v ∈ d.constants, Poolable K v) {v : Value} (hv : Poolable K v) :
    d.constants <+: (d.intern v).2.constants ∧ (d.intern v).2.locals = d.locals ∧
      (∀ w ∈ (d.intern v).2.constants, Poolable K w) ∧
      (d.intern v).2.constants[(d.intern v).1]? = some v := by
  unfold Draft.intern
  split
  · next i hi =>
    obtain ⟨hlt, hshare, -⟩ := List.findIdx?_eq_some_iff_getElem.mp hi
    have heq := (hd _ (List.getElem_mem hlt)).eq_of_sharesPlace hK hv hshare
    exact ⟨List.prefix_refl _, rfl, hd, by rw [List.getElem?_eq_getElem hlt, heq]⟩
  · refine ⟨List.prefix_append _ _, rfl, fun w hw => ?_, by simp⟩
    rcases List.mem_append.mp hw with hw | hw
    · exact hd w hw
    · rw [List.mem_singleton.mp hw]
      exact hv

/-- The pool only grows as a constant is loaded. -/
theorem Draft.prefix_constantCode (d : Draft) (v : Value) :
    d.constants <+: (d.constantCode v).2.constants := by
  unfold Draft.constantCode
  split
  · exact List.prefix_refl _
  · obtain ⟨more, hmore⟩ := Draft.constants_intern d v
    exact ⟨more, hmore.symm⟩

/-! ### Steps of lowering -/

namespace Lowering

variable {α β : Type}

/-- What is said of two results over the pools that their steps leave. -/
abbrev Relation (α : Type) := α → α → List Value → List Value → Prop

/-- From linked drafts two steps only add to the pools. Where the results are granted, the drafts
they leave are linked too, and the results are related. -/
def Pairs (L : Draft → Draft → Prop) (p q : List Value) (x y : Lowering α) (G R : Relation α) :
    Prop :=
  ∀ d e a d' b e', L d e → p <+: d.constants → q <+: e.constants →
    x d = .ok (a, d') → y e = .ok (b, e') →
    d.constants <+: d'.constants ∧ e.constants <+: e'.constants ∧
      (G a b d'.constants e'.constants → L d' e' ∧ R a b d'.constants e'.constants)

/-- Results of which nothing is asked. -/
def Free : Relation α := fun _ _ _ _ => True

namespace Pairs

variable {L : Draft → Draft → Prop} {p q : List Value} {x y : Lowering α} {G R : Relation α}

theorem pure {a b : α}
    (h : ∀ p' q', p <+: p' → q <+: q' → G a b p' q' → R a b p' q') :
    Pairs L p q (Pure.pure a) (Pure.pure b) G R := by
  intro d e a' d' b' e' hlink hp hq hx hy
  cases hx
  cases hy
  exact ⟨List.prefix_refl _, List.prefix_refl _, fun hG => ⟨hlink, h _ _ hp hq hG⟩⟩

theorem throw {e e' : CompileError} :
    Pairs L p q (throw e : Lowering α) (throw e') G R := by
  intro d e a d' b e' _ _ _ hx _
  cases hx

theorem bindLinked {R' : Relation β} {G' : Relation β} {f g : α → Lowering β}
    (hx : Pairs L p q x y Free R)
    (hf : ∀ a b d e, L d e → p <+: d.constants → q <+: e.constants →
      R a b d.constants e.constants → Pairs L d.constants e.constants (f a) (g b) G' R') :
    Pairs L p q (x >>= f) (y >>= g) G' R' := by
  intro d e c d' c' e' hlink hp hq hc hc'
  obtain ⟨⟨a, dm⟩, ha, hc⟩ := bind_eq_ok.mp hc
  obtain ⟨⟨b, em⟩, hb, hc'⟩ := bind_eq_ok.mp hc'
  obtain ⟨hd, he, hR⟩ := hx d e a dm b em hlink hp hq ha hb
  obtain ⟨hlink', hab⟩ := hR .intro
  obtain ⟨hd', he', hR'⟩ := hf a b dm em hlink' (hp.trans hd) (hq.trans he) hab dm em c d' c' e'
    hlink' (List.prefix_refl _) (List.prefix_refl _) hc hc'
  exact ⟨hd.trans hd', he.trans he', hR'⟩

theorem bind {R' : Relation β} {G' : Relation β} {f g : α → Lowering β}
    (hx : Pairs L p q x y Free R)
    (hf : ∀ a b p' q', p <+: p' → q <+: q' → R a b p' q' → Pairs L p' q' (f a) (g b) G' R') :
    Pairs L p q (x >>= f) (y >>= g) G' R' :=
  bindLinked hx fun a b d e _ hp hq hab => hf a b d.constants e.constants hp hq hab

theorem imp {R' : Relation α} (h : Pairs L p q x y G R)
    (hR : ∀ a b p' q', p <+: p' → q <+: q' → G a b p' q' → R a b p' q' → R' a b p' q') :
    Pairs L p q x y G R' := by
  intro d e a d' b e' hlink hp hq hx hy
  obtain ⟨hd, he, h⟩ := h d e a d' b e' hlink hp hq hx hy
  refine ⟨hd, he, fun hG => ?_⟩
  obtain ⟨hlink', hab⟩ := h hG
  exact ⟨hlink', hR a b _ _ (hp.trans hd) (hq.trans he) hG hab⟩

/-- What is granted of the results of the steps need not be asked. -/
theorem grant (h : Pairs L p q x y G R)
    (hG : ∀ d e a d' b e', L d e → x d = .ok (a, d') → y e = .ok (b, e') →
      G a b d'.constants e'.constants) : Pairs L p q x y Free R := by
  intro d e a d' b e' hlink hp hq hx hy
  obtain ⟨hd, he, h⟩ := h d e a d' b e' hlink hp hq hx hy
  exact ⟨hd, he, fun _ => h (hG d e a d' b e' hlink hx hy)⟩

end Pairs

end Lowering

/-! ### Known values -/

namespace Fragment

/-- The known value, if it is pooled, is of a kind that is told apart in the pool. -/
def Granted (K : Value → Prop) : Lowering.Relation Fragment :=
  fun _ g _ _ => ∀ v, g.constant = some v → Draft.isInline v = false → K v

/-- What a known value is lowered to. -/
theorem ofConstant_eq (v : Value) (t : Ty) (d : Draft) :
    ofConstant v t d =
      .ok (⟨(d.constantCode v).1, t, some v, v.isNull, isMachineValue v⟩, (d.constantCode v).2) :=
  rfl

theorem ofBool?_cases (b : Option Bool) :
    (∃ c, (Datum.ofBool? b : Value) = .boolean c) ∨ (Datum.ofBool? b : Value) = .null := by
  cases b with
  | none => exact .inr rfl
  | some b => exact .inl ⟨b, rfl⟩

/-- A comparison is a boolean or null. -/
theorem compareAs_cases (op : Operator) (mode : CompareMode) (a b : Value) :
    (∃ c, Datum.compareAs op mode a b = .boolean c) ∨ Datum.compareAs op mode a b = .null := by
  unfold Datum.compareAs
  split
  · exact ofBool?_cases _
  · exact ofBool?_cases _

/-- A connective is a boolean or null. -/
theorem logic_cases (op : Operator) (a b : Value) :
    (∃ c, Datum.logic op a b = .boolean c) ∨ Datum.logic op a b = .null := by
  have hand : (∃ c, a.and b = .boolean c) ∨ a.and b = .null := by
    unfold Datum.and
    split <;> simp
  have hor : (∃ c, a.or b = .boolean c) ∨ a.or b = .null := by
    unfold Datum.or
    split <;> simp
  cases op with
  | or => exact hor
  | _ => exact hand

/-- What is a boolean or null is loaded without the pool. -/
theorem inline_of_cases {v : Value} (h : (∃ c, v = .boolean c) ∨ v = .null) :
    Draft.isInline v = true := by
  rcases h with ⟨c, rfl⟩ | rfl
  · rfl
  · rfl

end Fragment

namespace Outcome

/-- A known value that is loaded without the pool, or none. -/
def Inline : Outcome → Prop
  | value v _ => Draft.isInline v = true
  | fragment g => g.constant = none

/-- Of values that are loaded without the pool nothing has to be granted. -/
theorem Inline.pairs {K : Value → Prop} {L : Draft → Draft → Prop} {p q : List Value}
    {x y : Outcome} {R : Lowering.Relation Fragment} (hy : y.Inline)
    (h : Lowering.Pairs L p q x.emit y.emit (Fragment.Granted K) R) :
    Lowering.Pairs L p q x.emit y.emit Lowering.Free R := by
  refine h.grant fun d e a d' b e' _ _ hb v hv hinline => ?_
  cases y with
  | value w t =>
    cases hb
    cases hv
    rw [Inline, hinline] at hy
    cases hy
  | fragment g =>
    cases hb
    rw [Inline, hv] at hy
    cases hy

end Outcome

namespace Fragment

variable {o : Options}

/-! ### Operators whose values are not pooled -/

theorem connective_inline (op : Operator) (l r : Fragment) : (connective o op l r).Inline := by
  unfold connective
  split
  · exact inline_of_cases (logic_cases op _ _)
  · split
    · rfl
    · dsimp only
      split
      · rfl
      · rfl

theorem equality_inline (op : Operator) (l r : Fragment) : (equality o op l r).Inline := by
  unfold equality
  dsimp only
  split
  · rfl
  · split
    · rfl
    · rfl

end Fragment

end Feel
