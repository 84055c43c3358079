import Mathlib.Algebra.BigOperators.Group.List.Basic
import Mathlib.Data.Set.Card
import Feel.Eval.Decision
import Feel.Proofs.Equality

/-!
# Aggregates do not see the order

Collected values are combined from the left, and a combination may end early. On ordinary values
the result still depends on nothing but which values were collected: sums of numbers are exact, an
extreme is one of the values and none is better, and the values that are kept as distinct stand for
the classes of equal values.

* `Builtin.rational?_reduce_add`: a sum denotes the sum of what was added.
* `Datum.Comparable`, `Builtin.IsExtreme`: values that have an order, and the extremes of them.
* `Builtin.isExtreme_extreme`, `Builtin.extreme_eq_null`: there is one, or the result is null.
* `Datum.classes`, `Builtin.length_distinct`: distinct values are as many as classes.
* `Decision.aggregate_perm`: aggregates of the same values in another order are equal.
-/

namespace Feel

variable {u v w m : Value} {vs ws : List Value} {wanted o : Ordering}

namespace Datum

/-- What a number denotes that is not of binary64. -/
def rational? (v : Value) : Option ℚ := v.asNumber?.bind Number.value?

theorem rational?_eq_some {x : ℚ} :
    v.rational? = some x ↔ ∃ n, v = number n ∧ n.value? = some x := by
  cases v <;> simp [rational?, asNumber?]

/-- Numbers that denote the same are the same in structures. -/
theorem same_of_rational? (hv : v.rational?.isSome) (h : v.rational? = w.rational?) :
    v.same w = true := by
  obtain ⟨x, hx⟩ := Option.isSome_iff_exists.mp hv
  obtain ⟨a, rfl, ha⟩ := rational?_eq_some.mp hx
  obtain ⟨b, rfl, hb⟩ := rational?_eq_some.mp (h ▸ hx)
  rw [same]
  exact Number.equal_of_value ha hb

/-- Numbers that denote the same are equal. -/
theorem equal_of_rational? (hv : v.rational?.isSome) (h : v.rational? = w.rational?) :
    v.equal w = true :=
  equal_iff.mpr (.inl (same_of_rational? hv h))

/-- The numbers among values without numbers of binary64 are those that denote something. -/
theorem Exact.isSome_rational? (hv : v.Exact) : v.rational?.isSome = v.asNumber?.isSome := by
  cases hv with
  | number h =>
    obtain ⟨x, hx⟩ := Number.exists_value h
    rw [rational?_eq_some.mpr ⟨_, rfl, hx⟩]
    rfl
  | _ => rfl

theorem Ordinary.null : (null : Value).Ordinary := ⟨.null, .null, .null⟩

theorem Ordinary.equal_refl (hv : v.Ordinary) : v.equal v = true :=
  equal_iff.mpr (.inl (same_refl hv))

/-- Two values that have an order. -/
def Comparable (v w : Value) : Prop := (v.order? w).isSome ∧ (w.order? v).isSome

theorem Comparable.symm (h : v.Comparable w) : w.Comparable v := ⟨h.2, h.1⟩

instance : Std.Symm Comparable := ⟨fun _ _ h => h.symm⟩

theorem comparable_iff (hv : v.Exact) (hw : w.Exact) :
    v.Comparable w ↔ (v.order? w).isSome := by
  rw [Comparable, order?_swap hv hw, Option.isSome_map, and_self]

theorem Comparable.trans (hu : u.Exact) (hv : v.Exact) (hw : w.Exact)
    (huv : u.Comparable v) (hvw : v.Comparable w) : u.Comparable w := by
  obtain ⟨o, ho⟩ := Option.isSome_iff_exists.mp huv.1
  obtain ⟨o', ho'⟩ := Option.isSome_iff_exists.mp hvw.1
  obtain ⟨o'', h, -⟩ := order?_trans hu hv hw ho ho'
  rw [comparable_iff hu hw, h]
  rfl

/-- What can be compared to one of some values can be compared to all of them. -/
theorem pairwise_comparable_cons (hv : v.Exact) (hw : w.Exact) (hvs : ∀ u ∈ vs, u.Exact)
    (hvw : v.Comparable w) (h : (w :: vs).Pairwise Comparable) :
    (v :: w :: vs).Pairwise Comparable := by
  refine List.pairwise_cons.mpr ⟨List.forall_mem_cons.mpr ⟨hvw, fun u hu => ?_⟩, h⟩
  exact hvw.trans hv hw (hvs u hu) (List.rel_of_pairwise_cons h hu)

/-- What is no worse than a value is better than all that the value is better than. -/
theorem order?_wanted_trans (hu : u.Exact) (hv : v.Exact) (hw : w.Exact)
    (hwanted : wanted ≠ .eq) (huv : u.order? v = some o) (ho : o ≠ wanted.swap)
    (hvw : v.order? w = some wanted) : u.order? w = some wanted := by
  cases wanted with
  | eq => exact absurd rfl hwanted
  | lt =>
    obtain ⟨o', ho', hle⟩ := order?_trans hu hv hw huv hvw
    have := hle (by cases o <;> simp_all [Ordering.swap]) rfl
    cases o' <;> simp_all
  | gt =>
    have hvu : v.order? u = some o.swap := by rw [order?_swap hu hv, huv]; rfl
    have hwv : w.order? v = some .lt := by rw [order?_swap hv hw, hvw]; rfl
    obtain ⟨o', ho', hle⟩ := order?_trans hw hv hu hwv hvu
    have := hle rfl (by cases o <;> simp_all [Ordering.swap])
    rw [order?_swap hw hu, ho']
    cases o' <;> simp_all

/-- The values of a list that equal one of them. -/
def classOf (vs : List Value) (v : Value) : Set Value := {w | w ∈ vs ∧ v.equal w = true}

/-- The classes of equal values. -/
def classes (vs : List Value) : Set (Set Value) := classOf vs '' {v | v ∈ vs}

theorem classes_perm (h : vs.Perm ws) : classes vs = classes ws := by
  have hclass : classOf vs = classOf ws := by
    funext v
    simp only [classOf, h.mem_iff]
  rw [classes, classes, hclass]
  simp only [h.mem_iff]

end Datum

namespace Builtin

open Datum (Comparable)

/-! ### Sums -/

/-- A sum, a difference or a product of two numbers. -/
theorem rational?_arith (op : Number.RingOp) {x y : ℚ} (hv : v.rational? = some x)
    (hw : w.rational? = some y) (precision : Nat) :
    (v.arith op.operator w .native precision).rational? = some (op.onRat x y) := by
  obtain ⟨a, rfl, ha⟩ := Datum.rational?_eq_some.mp hv
  obtain ⟨b, rfl, hb⟩ := Datum.rational?_eq_some.mp hw
  obtain ⟨n, hn, hvalue, -⟩ := op.value_native ha hb
  refine Datum.rational?_eq_some.mpr ⟨n, ?_, hvalue⟩
  have harith : (Datum.number a : Value).arith op.operator (.number b) .native precision =
      .ofNumber? (op.native a b) := by
    cases op <;> rfl
  rw [harith, hn]
  rfl

/-- Numbers combined from the left, from a first one on. -/
theorem rational?_foldl (op : Number.RingOp) {x : ℚ} (hv : v.rational? = some x)
    (hvs : ∀ w ∈ vs, w.rational?.isSome) (precision : Nat) :
    (vs.foldl (fun acc w => acc.arith op.operator w .native precision) v).rational? =
      some ((vs.filterMap Datum.rational?).foldl op.onRat x) := by
  induction vs generalizing v x with
  | nil => exact hv
  | cons w vs ih =>
    rw [List.forall_mem_cons] at hvs
    obtain ⟨y, hy⟩ := Option.isSome_iff_exists.mp hvs.1
    rw [List.foldl_cons, ih (rational?_arith op hv hy precision) hvs.2,
      List.filterMap_cons_some hy, List.foldl_cons]

/-- **A sum denotes the sum of what was added.** -/
theorem rational?_reduce_add (hne : vs ≠ []) (hvs : ∀ v ∈ vs, v.rational?.isSome) :
    (reduce .add vs).rational? = some (vs.filterMap Datum.rational?).sum := by
  cases vs with
  | nil => exact absurd rfl hne
  | cons v vs =>
    rw [List.forall_mem_cons] at hvs
    obtain ⟨x, hx⟩ := Option.isSome_iff_exists.mp hvs.1
    rw [List.filterMap_cons_some hx, List.sum_eq_foldl, List.foldl_cons, zero_add]
    exact rational?_foldl .add hx hvs.2 _

/-- **A product denotes the product of what was multiplied.** -/
theorem rational?_reduce_mul (hne : vs ≠ []) (hvs : ∀ v ∈ vs, v.rational?.isSome) :
    (reduce .mul vs).rational? = some (vs.filterMap Datum.rational?).prod := by
  cases vs with
  | nil => exact absurd rfl hne
  | cons v vs =>
    rw [List.forall_mem_cons] at hvs
    obtain ⟨x, hx⟩ := Option.isSome_iff_exists.mp hvs.1
    rw [List.filterMap_cons_some hx, List.prod_eq_foldl, List.foldl_cons, one_mul]
    exact rational?_foldl .mul hx hvs.2 _

theorem arith_add_eq_null (h : v.asNumber? = none ∨ w.asNumber? = none) (precision : Nat) :
    v.arith .add w .native precision = .null := by
  cases v <;> cases w <;> first | rfl | simp [Datum.asNumber?] at h

theorem foldl_add_eq_null (h : ∃ u ∈ v :: vs, u.asNumber? = none) (hne : vs ≠ [])
    (precision : Nat) :
    vs.foldl (fun acc w => acc.arith .add w .native precision) v = .null := by
  induction vs generalizing v with
  | nil => exact absurd rfl hne
  | cons w vs ih =>
    rw [List.exists_mem_cons_iff, List.exists_mem_cons_iff, ← or_assoc] at h
    rw [List.foldl_cons]
    obtain h | h := h
    · -- the sum is null from here on, and null is no number
      rw [arith_add_eq_null h]
      cases vs with
      | nil => rfl
      | cons u vs => exact ih ⟨_, List.mem_cons_self, rfl⟩ (List.cons_ne_nil u vs)
    · obtain ⟨u, hu, hnone⟩ := h
      exact ih ⟨u, List.mem_cons_of_mem _ hu, hnone⟩ (List.ne_nil_of_mem hu)

/-- Nothing can be added to what is no number, nor the other way round. -/
theorem reduce_add_eq_null (hlength : 1 < vs.length) (h : ∃ v ∈ vs, v.asNumber? = none) :
    reduce .add vs = .null := by
  cases vs with
  | nil => cases hlength
  | cons v vs =>
    rw [List.length_cons, Nat.lt_add_left_iff_pos] at hlength
    exact foldl_add_eq_null h (List.ne_nil_of_length_pos hlength) _

/-! ### Extremes -/

/-- One of the values, than which none of them is better. -/
structure IsExtreme (wanted : Ordering) (vs : List Value) (m : Value) : Prop where
  mem : m ∈ vs
  best : ∀ v ∈ vs, v.order? m ≠ some wanted

theorem IsExtreme.perm (h : IsExtreme wanted vs m) (hperm : vs.Perm ws) : IsExtreme wanted ws m :=
  ⟨hperm.mem_iff.mp h.mem, fun v hv => h.best v (hperm.mem_iff.mpr hv)⟩

/-- Of two candidates the worse one is no extreme of what has the better one in it. -/
theorem IsExtreme.cons_worse (hwanted : wanted ≠ .eq) (hexact : ∀ v ∈ vs, v.Exact)
    (hw : w.Exact) (hv : v ∈ vs) (hvw : v.order? w = some o) (ho : o ≠ wanted.swap)
    (h : IsExtreme wanted vs m) : IsExtreme wanted (w :: vs) m := by
  refine ⟨List.mem_cons_of_mem _ h.mem, List.forall_mem_cons.mpr ⟨fun hwm => ?_, h.best⟩⟩
  exact h.best v hv
    (Datum.order?_wanted_trans (hexact v hv) hw (hexact m h.mem) hwanted hvw ho hwm)

theorem isExtreme_extremeFrom (hwanted : wanted ≠ .eq) (hexact : ∀ u ∈ v :: vs, u.Exact)
    (h : (v :: vs).Pairwise Comparable) : IsExtreme wanted (v :: vs) (extremeFrom wanted v vs) := by
  induction vs generalizing v with
  | nil =>
    refine ⟨List.mem_cons_self, List.forall_mem_singleton.mpr fun hself => ?_⟩
    have hv := hexact v List.mem_cons_self
    have hself : v.order? v = some wanted := hself
    have hswap : some wanted = some wanted.swap := by
      rw [← hself, Datum.order?_swap hv hv, hself]
      rfl
    cases wanted with
    | eq => exact hwanted rfl
    | _ => cases hswap
  | cons w vs ih =>
    obtain ⟨hv, hvs⟩ := List.pairwise_cons.mp h
    obtain ⟨o, ho⟩ := Option.isSome_iff_exists.mp (hv w List.mem_cons_self).2
    obtain ⟨hvexact, hwexact, hexact'⟩ : v.Exact ∧ w.Exact ∧ ∀ u ∈ vs, u.Exact := by
      rwa [List.forall_mem_cons, List.forall_mem_cons] at hexact
    rw [extremeFrom, ho]
    dsimp only
    split
    · next heq =>
      have hext := ih (List.forall_mem_cons.mpr ⟨hwexact, hexact'⟩) hvs
      exact hext.cons_worse hwanted (List.forall_mem_cons.mpr ⟨hwexact, hexact'⟩) hvexact
        List.mem_cons_self ho (by subst heq; cases o <;> simp_all)
    · next hne =>
      have hvo : v.order? w = some o.swap := by
        rw [Datum.order?_swap hwexact hvexact, ho]
        rfl
      have hext := ih (List.forall_mem_cons.mpr ⟨hvexact, hexact'⟩)
        (List.pairwise_cons.mpr ⟨fun u hu => hv u (List.mem_cons_of_mem w hu),
          (List.pairwise_cons.mp hvs).2⟩)
      refine (hext.cons_worse hwanted (List.forall_mem_cons.mpr ⟨hvexact, hexact'⟩) hwexact
        List.mem_cons_self hvo fun h => hne (Ordering.swap_inj.mp h)).perm (.swap v w vs)

/-- **An extreme of values that all have an order.** -/
theorem isExtreme_extreme (hwanted : wanted ≠ .eq) (hexact : ∀ v ∈ vs, v.Exact) (hne : vs ≠ [])
    (h : vs.Pairwise Comparable) : IsExtreme wanted vs (extreme wanted vs) := by
  cases vs with
  | nil => exact absurd rfl hne
  | cons v vs => exact isExtreme_extremeFrom hwanted hexact h

theorem pairwise_of_extremeFrom (hexact : ∀ u ∈ v :: vs, u.Exact)
    (h : extremeFrom wanted v vs ≠ .null) : (v :: vs).Pairwise Comparable := by
  induction vs generalizing v with
  | nil => exact List.pairwise_singleton _ v
  | cons w vs ih =>
    obtain ⟨hv, hw, hvs⟩ : v.Exact ∧ w.Exact ∧ ∀ u ∈ vs, u.Exact := by
      rwa [List.forall_mem_cons, List.forall_mem_cons] at hexact
    rw [extremeFrom] at h
    cases ho : w.order? v with
    | none => exact absurd (by rw [ho]) h
    | some o =>
      rw [ho] at h
      have hwv : w.Comparable v := (Datum.comparable_iff hw hv).mpr (by rw [ho]; rfl)
      dsimp only at h
      split at h
      · exact Datum.pairwise_comparable_cons hv hw hvs hwv.symm
          (ih (List.forall_mem_cons.mpr ⟨hw, hvs⟩) h)
      · have hpairs := Datum.pairwise_comparable_cons hw hv hvs hwv
          (ih (List.forall_mem_cons.mpr ⟨hv, hvs⟩) h)
        exact (List.Perm.pairwise_iff (fun h => h.symm) (.swap v w vs)).mp hpairs

/-- Where two of the values have no order, there is no extreme. -/
theorem extreme_eq_null (hexact : ∀ v ∈ vs, v.Exact) (h : ¬ vs.Pairwise Comparable) :
    extreme wanted vs = .null := by
  cases vs with
  | nil => rfl
  | cons v vs => exact not_not.mp fun hne => h (pairwise_of_extremeFrom hexact hne)

/-! ### Distinct values -/

/-- Values that stand for the classes of equal values. -/
structure Represent (ds vs : List Value) : Prop where
  mem : ∀ d ∈ ds, d ∈ vs
  apart : ds.Pairwise fun d e => ¬ d.equal e = true
  covers : ∀ v ∈ vs, ∃ d ∈ ds, d.equal v = true

theorem Represent.nil : Represent [] [] := ⟨by simp, .nil, by simp⟩

theorem represent_distinctFrom {kept : List Value} (hvs : ∀ v ∈ vs, v.equal v = true)
    (h : Represent kept ws) : Represent (distinctFrom kept vs) (ws ++ vs) := by
  induction vs generalizing kept ws with
  | nil => rwa [List.append_nil]
  | cons v vs ih =>
    rw [List.forall_mem_cons] at hvs
    rw [distinctFrom, List.append_cons ws]
    refine ih hvs.2 ?_
    split
    · next hany =>
      obtain ⟨d, hd, hdv⟩ := List.any_eq_true.mp hany
      refine ⟨fun d hd => List.mem_append_left _ (h.mem d hd), h.apart, fun w hw => ?_⟩
      obtain hw | hw := List.mem_append.mp hw
      · exact h.covers w hw
      · rw [List.mem_singleton.mp hw]
        exact ⟨d, hd, hdv⟩
    · next hany =>
      refine ⟨fun d hd => ?_, List.pairwise_append.mpr ⟨h.apart, List.pairwise_singleton _ v, ?_⟩,
        fun w hw => ?_⟩
      · rw [List.mem_append] at hd ⊢
        exact hd.imp_left (h.mem d)
      · intro d hd e he heq
        rw [List.mem_singleton.mp he] at heq
        exact hany (List.any_eq_true.mpr ⟨d, hd, heq⟩)
      · obtain hw | hw := List.mem_append.mp hw
        · obtain ⟨d, hd, hdw⟩ := h.covers w hw
          exact ⟨d, List.mem_append_left _ hd, hdw⟩
        · rw [List.mem_singleton.mp hw]
          exact ⟨v, by simp, hvs.1⟩

/-- Equal values have one class. -/
theorem classOf_congr (hvs : ∀ v ∈ vs, v.Ordinary) (hv : v ∈ vs) (hw : w ∈ vs)
    (h : v.equal w = true) : Datum.classOf vs v = Datum.classOf vs w := by
  have hsymm := Datum.equal_symm (hvs v hv) (hvs w hw) h
  ext u
  exact and_congr_right fun hu =>
    ⟨Datum.equal_trans (hvs w hw) (hvs v hv) (hvs u hu) hsymm,
      Datum.equal_trans (hvs v hv) (hvs w hw) (hvs u hu) h⟩

/-- The distinct values of a list stand for its classes. -/
theorem represent_distinct (hvs : ∀ v ∈ vs, v.Ordinary) : Represent (distinct vs) vs :=
  represent_distinctFrom (fun v hv => (hvs v hv).equal_refl) .nil

/-- **As many values are distinct as there are classes of equal values.** -/
theorem length_distinct (hvs : ∀ v ∈ vs, v.Ordinary) :
    (distinct vs).length = (Datum.classes vs).ncard := by
  classical
  have h := represent_distinct hvs
  -- the class of each distinct value is one of the classes, no two have the same, and none is left
  have hinjective : (distinct vs).Pairwise fun d e => Datum.classOf vs d ≠ Datum.classOf vs e := by
    refine h.apart.imp_of_mem fun {d e} hd he hne heq => hne ?_
    have hmem : e ∈ Datum.classOf vs d := heq ▸ ⟨h.mem e he, (hvs e (h.mem e he)).equal_refl⟩
    exact hmem.2
  have hnodup : ((distinct vs).map (Datum.classOf vs)).Nodup := List.pairwise_map.mpr hinjective
  have hclasses : Datum.classes vs = ((distinct vs).map (Datum.classOf vs)).toFinset := by
    ext c
    simp only [Datum.classes, Set.mem_image, Set.mem_ofPred_eq, List.coe_toFinset, List.mem_map]
    constructor
    · rintro ⟨v, hv, rfl⟩
      obtain ⟨d, hd, hdv⟩ := h.covers v hv
      exact ⟨d, hd, classOf_congr hvs (h.mem d hd) hv hdv⟩
    · rintro ⟨d, hd, rfl⟩
      exact ⟨d, h.mem d hd, rfl⟩
  rw [hclasses, Set.ncard_coe_finset, List.toFinset_card_of_nodup hnodup, List.length_map]

theorem length_distinct_perm (hvs : ∀ v ∈ vs, v.Ordinary) (h : vs.Perm ws) :
    (distinct vs).length = (distinct ws).length := by
  rw [length_distinct hvs, length_distinct fun v hv => hvs v (h.mem_iff.mpr hv),
    Datum.classes_perm h]

end Builtin

namespace Decision

open Datum (Comparable)

/-! ### Any order -/

theorem reduce_perm (hvs : ∀ v ∈ vs, v.Ordinary) (h : vs.Perm ws) :
    (Builtin.reduce .add vs).equal (Builtin.reduce .add ws) = true := by
  by_cases hlength : 1 < vs.length
  · by_cases hnumbers : ∀ v ∈ vs, v.rational?.isSome
    · have hne : vs ≠ [] := List.ne_nil_of_length_pos (by omega)
      have hsum := Builtin.rational?_reduce_add hne hnumbers
      have hne' : ws ≠ [] := fun hnil => hne (List.perm_nil.mp (hnil ▸ h))
      have hsum' := Builtin.rational?_reduce_add hne' fun v hv => hnumbers v (h.mem_iff.mpr hv)
      refine Datum.equal_of_rational? (by rw [hsum]; rfl) ?_
      rw [hsum, hsum', (h.filterMap _).sum_eq]
    · have hnone : ∃ v ∈ vs, v.asNumber? = none := by
        obtain ⟨v, hv, hnone⟩ : ∃ v ∈ vs, v.rational?.isSome = false := by simpa using hnumbers
        rw [(hvs v hv).isExact.isSome_rational?, Option.isSome_eq_false_iff,
          Option.isNone_iff_eq_none] at hnone
        exact ⟨v, hv, hnone⟩
      obtain ⟨v, hv, hnull⟩ := hnone
      rw [Builtin.reduce_add_eq_null hlength ⟨v, hv, hnull⟩,
        Builtin.reduce_add_eq_null (h.length_eq ▸ hlength) ⟨v, h.mem_iff.mp hv, hnull⟩]
      exact Datum.Ordinary.null.equal_refl
  · cases vs with
    | nil =>
      rw [List.nil_perm.mp h]
      exact Datum.Ordinary.null.equal_refl
    | cons v vs =>
      cases vs with
      | nil =>
        rw [← List.singleton_perm.mp h]
        exact (hvs v List.mem_cons_self).equal_refl
      | cons w vs => simp at hlength

theorem extreme_perm (hwanted : wanted ≠ .eq) (hvs : ∀ v ∈ vs, v.Ordinary) (h : vs.Perm ws) :
    (Builtin.extreme wanted vs).equal (Builtin.extreme wanted ws) = true := by
  have hexact : ∀ v ∈ vs, v.Exact := fun v hv => (hvs v hv).isExact
  have hexact' : ∀ v ∈ ws, v.Exact := fun v hv => hexact v (h.mem_iff.mpr hv)
  have hpairs := List.Perm.pairwise_iff (R := Comparable) (fun h => h.symm) h
  by_cases hcomparable : vs.Pairwise Comparable
  · by_cases hne : vs = []
    · subst hne
      rw [List.nil_perm.mp h]
      exact Datum.Ordinary.null.equal_refl
    · have hne' : ws ≠ [] := fun hnil => hne (List.perm_nil.mp (hnil ▸ h))
      have hm := Builtin.isExtreme_extreme hwanted hexact hne hcomparable
      have hm' := (Builtin.isExtreme_extreme hwanted hexact' hne'
        (hpairs.mp hcomparable)).perm h.symm
      generalize Builtin.extreme wanted vs = m at hm ⊢
      generalize Builtin.extreme wanted ws = m' at hm' ⊢
      by_cases heq : m = m'
      · rw [heq]
        exact (hvs m' hm'.mem).equal_refl
      · have hmm := hcomparable.forall hm.mem hm'.mem heq
        obtain ⟨o, ho⟩ := Option.isSome_iff_exists.mp hmm.1
        refine (Datum.order?_eq_eq_iff_equal (hexact m hm.mem) (hexact m' hm'.mem) hmm.1).mp ?_
        have hbest := hm'.best m hm.mem
        have hbest' := hm.best m' hm'.mem
        rw [Datum.order?_swap (hexact m hm.mem) (hexact m' hm'.mem), ho] at hbest'
        rw [ho] at hbest ⊢
        cases wanted <;> cases o <;> simp_all [Ordering.swap]
  · rw [Builtin.extreme_eq_null hexact hcomparable,
      Builtin.extreme_eq_null hexact' (mt hpairs.mpr hcomparable)]
    exact Datum.Ordinary.null.equal_refl

/-- **Aggregates do not see the order** of ordinary values. -/
theorem aggregate_perm (aggregation : Aggregation) (hvs : ∀ v ∈ vs, v.Ordinary)
    (h : vs.Perm ws) : (aggregate aggregation vs).equal (aggregate aggregation ws) = true := by
  cases aggregation with
  | count =>
    show (Datum.long _).equal (Datum.long _) = true
    rw [Builtin.length_distinct_perm hvs h]
    exact Datum.Ordinary.equal_refl ⟨.number _, .number _, .number (by simp [Number.kind])⟩
  | sum => exact reduce_perm hvs h
  | min => exact extreme_perm (by decide) hvs h
  | max => exact extreme_perm (by decide) hvs h

end Decision

end Feel
