import Mathlib.Data.List.Induction
import Feel.Eval.Denote
import Feel.Proofs.Aggregates

/-!
# Distinct values

Values are kept one after another, unless they equal one that is kept. On ordinary values equality
is an equivalence relation, so what equals a value before it equals the one that is kept for it, and
the values that are kept are those that no value before them equals. They stand for the classes of
equal values, and how many there are does not depend on the order.

Lists are joined in their order, so it makes no difference whether values that are equal are left
out of each list beforehand or of all of them together.

* `Builtin.firsts`: the items of a list that no item before them equals.
* `Builtin.distinct_eq_firsts`: these are kept.
* `Builtin.Deduplicates`: what is kept of a list.
* `Builtin.distinctFrom_distinct`: values that are left out beforehand.
* `Action.callBuiltin_distinct`: `distinct values`, `union`, and the number of distinct values.
-/

namespace Feel

variable {v : Value} {vs ws kept : List Value}

namespace Builtin

/-! ### First occurrences -/

/-- The items of a list that no item before them equals. -/
def firsts (vs : List Value) : List Value :=
  (vs.zipIdx.filter fun p => (vs.take p.2).all fun u => !u.equal p.1).map (·.1)

theorem firsts_concat (vs : List Value) (v : Value) :
    firsts (vs ++ [v]) = if vs.any (·.equal v) then firsts vs else firsts vs ++ [v] := by
  have hbefore : (vs.zipIdx.filter fun p => ((vs ++ [v]).take p.2).all fun u => !u.equal p.1) =
      vs.zipIdx.filter fun p => (vs.take p.2).all fun u => !u.equal p.1 := by
    refine List.filter_congr fun p hp => ?_
    rw [List.take_append_of_le_length (List.snd_lt_of_mem_zipIdx hp).le]
  have hnone : (vs.all fun u => !u.equal v) = !vs.any (·.equal v) := by
    rw [List.any_eq_not_all_not, Bool.not_not]
  rw [firsts, List.zipIdx_append, List.filter_append, List.map_append, hbefore, ← firsts,
    List.zipIdx_singleton, List.filter_singleton, Nat.zero_add, List.take_left, hnone]
  cases vs.any (·.equal v) with
  | true => exact List.append_nil _
  | false => rfl

/-! ### What is kept -/

theorem distinctFrom_append (kept vs ws : List Value) :
    distinctFrom kept (vs ++ ws) = distinctFrom (distinctFrom kept vs) ws := by
  induction vs generalizing kept with
  | nil => rfl
  | cons v vs ih => exact ih _

theorem prefix_distinctFrom (kept vs : List Value) : kept <+: distinctFrom kept vs := by
  induction vs generalizing kept with
  | nil => exact List.prefix_rfl
  | cons v vs ih =>
    rw [distinctFrom]
    split
    · exact ih kept
    · exact (List.prefix_append kept [v]).trans (ih _)

theorem distinctFrom_sublist (kept vs : List Value) :
    (distinctFrom kept vs).Sublist (kept ++ vs) := by
  induction vs generalizing kept with
  | nil => rw [List.append_nil]; exact List.Sublist.refl kept
  | cons v vs ih =>
    rw [distinctFrom]
    split
    · exact (ih kept).trans ((List.sublist_cons_self v vs).append_left kept)
    · rw [List.append_cons kept v vs]
      exact ih _

/-- What is apart already is all kept. -/
theorem distinctFrom_of_apart (h : (kept ++ vs).Pairwise fun u v => ¬ u.equal v = true) :
    distinctFrom kept vs = kept ++ vs := by
  induction vs generalizing kept with
  | nil => rw [List.append_nil]; rfl
  | cons v vs ih =>
    have hnone : ¬ kept.any (·.equal v) = true := fun hany => by
      obtain ⟨u, hu, huv⟩ := List.any_eq_true.mp hany
      exact (List.pairwise_append.mp h).2.2 u hu v List.mem_cons_self huv
    rw [List.append_cons] at h ⊢
    rw [distinctFrom, if_neg hnone, ih h]

/-- What stands for the classes of values has one that equals a value as soon as they have. -/
theorem Represent.any_equal (h : Represent kept vs) (hvs : ∀ u ∈ vs, u.Ordinary)
    (hv : v.Ordinary) : kept.any (·.equal v) = vs.any (·.equal v) := by
  rw [Bool.eq_iff_iff, List.any_eq_true, List.any_eq_true]
  constructor
  · rintro ⟨d, hd, hdv⟩
    exact ⟨d, h.mem d hd, hdv⟩
  · rintro ⟨u, hu, huv⟩
    obtain ⟨d, hd, hdu⟩ := h.covers u hu
    exact ⟨d, hd, Datum.equal_trans (hvs d (h.mem d hd)) (hvs u hu) hv hdu huv⟩

theorem distinct_concat (hvs : ∀ u ∈ vs, u.Ordinary) (hv : v.Ordinary) :
    distinct (vs ++ [v]) = if vs.any (·.equal v) then distinct vs else distinct vs ++ [v] := by
  rw [distinct, distinctFrom_append, ← distinct, distinctFrom,
    (represent_distinct hvs).any_equal hvs hv]
  rfl

/-- **The values that are kept** are those that no value before them equals. -/
theorem distinct_eq_firsts (hvs : ∀ v ∈ vs, v.Ordinary) : distinct vs = firsts vs := by
  induction vs using List.reverseRecOn with
  | nil => rfl
  | append_singleton vs v ih =>
    simp only [List.forall_mem_append, List.forall_mem_singleton] at hvs
    rw [distinct_concat hvs.1 hvs.2, firsts_concat, ih hvs.1]

/-- What is kept of a list: items in their order, of which no two are equal, and for each item the
first that equals it. -/
structure Deduplicates (vs ds : List Value) : Prop where
  sublist : ds.Sublist vs
  apart : ds.Pairwise fun d e => d.equal e = false ∧ e.equal d = false
  first : ∀ v ∈ vs, ∃ d ∈ ds, d.equal v = true ∧ vs.find? (·.equal v) = some d

theorem mem_distinct_of_first (hvs : ∀ u ∈ vs, u.Ordinary) (hv : v ∈ vs) {d : Value}
    (hd : vs.find? (·.equal v) = some d) : d ∈ distinct vs := by
  obtain ⟨hdv, before, after, rfl, hbefore⟩ := List.find?_eq_some_iff_append.mp hd
  have hd : d.Ordinary := hvs d (by simp)
  have hnone : ¬ before.any (·.equal d) = true := fun hany => by
    obtain ⟨u, hu, hud⟩ := List.any_eq_true.mp hany
    have huv := Datum.equal_trans (hvs u (by simp [hu])) hd (hvs v hv) hud hdv
    simpa [huv] using hbefore u hu
  rw [List.append_cons, distinct, distinctFrom_append, ← distinct,
    distinct_concat (fun u hu => hvs u (by simp [hu])) hd, if_neg hnone]
  exact (prefix_distinctFrom _ after).subset (by simp)

theorem deduplicates_distinct (hvs : ∀ v ∈ vs, v.Ordinary) : Deduplicates vs (distinct vs) where
  sublist := distinctFrom_sublist [] vs
  apart := by
    have h := represent_distinct hvs
    refine h.apart.imp_of_mem fun {d e} hd he hne => ⟨by simpa using hne, ?_⟩
    have hed := mt (Datum.equal_symm (hvs e (h.mem e he)) (hvs d (h.mem d hd))) hne
    simpa using hed
  first := fun v hv => by
    have hsome : (vs.find? (·.equal v)).isSome = true :=
      List.find?_isSome.mpr ⟨v, hv, (hvs v hv).equal_refl⟩
    obtain ⟨d, hd⟩ := Option.isSome_iff_exists.mp hsome
    have hdv : d.equal v = true := List.find?_some (p := fun u : Value => u.equal v) hd
    exact ⟨d, mem_distinct_of_first hvs hv hd, hdv, hd⟩

theorem distinct_distinct (hvs : ∀ v ∈ vs, v.Ordinary) : distinct (distinct vs) = distinct vs :=
  distinctFrom_of_apart (represent_distinct hvs).apart

/-! ### Joined lists -/

theorem joined?_lists (vss : List (List Value)) : joined? (vss.map .list) = some vss.flatten := by
  induction vss with
  | nil => rfl
  | cons vs vss ih => rw [List.map_cons, joined?, ih, List.flatten_cons]; rfl

/-- **Values that are left out beforehand** would be left out. -/
theorem distinctFrom_distinct (h : Represent kept ws) (hws : ∀ w ∈ ws, w.Ordinary)
    (hvs : ∀ v ∈ vs, v.Ordinary) : distinctFrom kept (distinct vs) = distinctFrom kept vs := by
  induction vs using List.reverseRecOn with
  | nil => rfl
  | append_singleton vs v ih =>
    simp only [List.forall_mem_append, List.forall_mem_singleton] at hvs
    rw [distinct_concat hvs.1 hvs.2, distinctFrom_append kept vs]
    split
    · next hany =>
      have hall : ∀ w ∈ ws ++ vs, w.Ordinary := List.forall_mem_append.mpr ⟨hws, hvs.1⟩
      have hkept := represent_distinctFrom (fun v hv => (hvs.1 v hv).equal_refl) h
      rw [ih hvs.1, distinctFrom, hkept.any_equal hall hvs.2, List.any_append, hany, Bool.or_true]
      rfl
    · rw [distinctFrom_append, ih hvs.1]

/-- Any of the lists may be replaced by its distinct values. -/
theorem distinctFrom_flatten {vss wss : List (List Value)} (h : Represent kept ws)
    (hws : ∀ w ∈ ws, w.Ordinary) (hvss : ∀ vs ∈ vss, ∀ v ∈ vs, v.Ordinary)
    (hlists : List.Forall₂ (fun vs ws => ws = vs ∨ ws = distinct vs) vss wss) :
    distinctFrom kept wss.flatten = distinctFrom kept vss.flatten := by
  induction hlists generalizing kept ws with
  | nil => rfl
  | @cons vs ds vss wss hhead _ ih =>
    rw [List.forall_mem_cons] at hvss
    have hstep : distinctFrom kept ds = distinctFrom kept vs := by
      rcases hhead with rfl | rfl
      · rfl
      · exact distinctFrom_distinct h hws hvss.1
    rw [List.flatten_cons, List.flatten_cons, distinctFrom_append, distinctFrom_append, hstep]
    exact ih (represent_distinctFrom (fun v hv => (hvss.1 v hv).equal_refl) h)
      (List.forall_mem_append.mpr ⟨hws, hvss.1⟩) hvss.2

end Builtin

namespace Decision

/-! ### Counting -/

/-- The collected values are counted as they are kept. -/
theorem rational?_aggregate_count (hvs : ∀ v ∈ vs, v.Ordinary) (hlength : vs.length < 2 ^ 63) :
    (aggregate .count vs).rational? = some ((Builtin.firsts vs).length : ℚ) := by
  have hle : (Builtin.firsts vs).length ≤ vs.length := by
    rw [← Builtin.distinct_eq_firsts hvs]
    exact (Builtin.deduplicates_distinct hvs).sublist.length_le
  have hfits : (Int64.ofInt (Builtin.firsts vs).length).toInt = (Builtin.firsts vs).length :=
    Int64.toInt_ofInt_of_le (by omega) (by omega)
  show (Datum.long (Builtin.distinct vs).length).rational? = _
  rw [Builtin.distinct_eq_firsts hvs]
  exact Datum.rational?_eq_some.mpr ⟨_, rfl, by rw [Number.value?, hfits]; rfl⟩

end Decision

namespace Action

open Builtin (firsts)

/-! ### Calls -/

section Calls

variable (precision : Nat) (invoke : FunctionValue → List Value → Except EvalError Value)

theorem callBuiltin_distinctValues (hvs : ∀ v ∈ vs, v.Ordinary) :
    callBuiltin "distinct values" [.list vs] precision invoke = .ok (.list (firsts vs)) := by
  rw [← Builtin.distinct_eq_firsts hvs]
  rfl

theorem callBuiltin_concatenate (vss : List (List Value)) :
    callBuiltin "concatenate" (vss.map .list) precision invoke = .ok (.list vss.flatten) := by
  show Except.ok (((Builtin.joined? (vss.map .list)).map Datum.list).getD .null) = _
  rw [Builtin.joined?_lists]
  rfl

theorem callBuiltin_union (vss : List (List Value)) :
    callBuiltin "union" (vss.map .list) precision invoke =
      .ok (.list (Builtin.distinct vss.flatten)) := by
  show Except.ok (((Builtin.joined? (vss.map .list)).map fun vs =>
    Datum.list (Builtin.distinct vs)).getD .null) = _
  rw [Builtin.joined?_lists]
  rfl

end Calls

/-- **Distinct values are the first of equal values.** Of ordinary values, `distinct values` keeps
those that no value before them equals: no two of them are equal, and every value equals the first
of its kind, which is kept. Done twice it is the same as done once; how many are kept does not
depend on the order, and is what the values are counted to. The `union` of lists has the distinct
values of the lists one behind the other, whichever of the lists are replaced by their distinct
values beforehand. -/
theorem callBuiltin_distinct (precision : Nat)
    (invoke : FunctionValue → List Value → Except EvalError Value) :
    (∀ vs : List Value, (∀ v ∈ vs, v.Ordinary) →
      callBuiltin "distinct values" [.list vs] precision invoke = .ok (.list (firsts vs)) ∧
      Builtin.Deduplicates vs (firsts vs) ∧
      callBuiltin "distinct values" [.list (firsts vs)] precision invoke =
        .ok (.list (firsts vs)) ∧
      (∀ ws, vs.Perm ws → (firsts ws).length = (firsts vs).length) ∧
      Decision.aggregate .count vs = .long (firsts vs).length ∧
      (vs.length < 2 ^ 63 →
        (Decision.aggregate .count vs).rational? = some ((firsts vs).length : ℚ))) ∧
    ∀ vss : List (List Value), (∀ vs ∈ vss, ∀ v ∈ vs, v.Ordinary) →
      callBuiltin "concatenate" (vss.map .list) precision invoke = .ok (.list vss.flatten) ∧
      callBuiltin "union" (vss.map .list) precision invoke =
        callBuiltin "distinct values" [.list vss.flatten] precision invoke ∧
      ∀ wss, List.Forall₂ (fun vs ws => ws = vs ∨
          callBuiltin "distinct values" [.list vs] precision invoke = .ok (.list ws)) vss wss →
        callBuiltin "union" (wss.map .list) precision invoke =
          callBuiltin "union" (vss.map .list) precision invoke := by
  constructor
  · intro vs hvs
    have hkept := Builtin.deduplicates_distinct hvs
    have htwice := Builtin.distinct_distinct hvs
    rw [Builtin.distinct_eq_firsts hvs] at hkept htwice
    refine ⟨callBuiltin_distinctValues precision invoke hvs, hkept, ?_, fun ws h => ?_, ?_,
      Decision.rational?_aggregate_count hvs⟩
    · show Except.ok (Datum.list (Builtin.distinct (firsts vs))) = _
      rw [htwice]
    · have hws : ∀ w ∈ ws, w.Ordinary := fun w hw => hvs w (h.mem_iff.mpr hw)
      rw [← Builtin.distinct_eq_firsts hvs, ← Builtin.distinct_eq_firsts hws,
        Builtin.length_distinct_perm hvs h]
    · rw [← Builtin.distinct_eq_firsts hvs]
      rfl
  · intro vss hvss
    refine ⟨callBuiltin_concatenate precision invoke vss,
      callBuiltin_union precision invoke vss, fun wss hlists => ?_⟩
    have hlists : List.Forall₂ (fun vs ws => ws = vs ∨ ws = Builtin.distinct vs) vss wss := by
      refine hlists.imp fun vs ws h => h.imp_right fun h => ?_
      cases h
      rfl
    rw [callBuiltin_union, callBuiltin_union, Builtin.distinct,
      Builtin.distinctFrom_flatten .nil (by simp) hvss hlists, ← Builtin.distinct]

/-- One in two representations, a date and its midnight, and lists: the list of a date does not
equal that of its midnight. -/
theorem callBuiltin_distinct_mixed :
    let one : Value := .number (.decimal ⟨10, 1⟩)
    let d : Value := .date .epoch
    let m : Value := .dateTime (.atMidnight .epoch)
    let invoke : FunctionValue → List Value → Except EvalError Value := fun _ _ => .ok .null
    let vs : List Value := [.count 1, d, one, m, .list [d], .list [m]]
    let kept : List Value := [.count 1, d, .list [d], .list [m]]
    (∀ v ∈ vs, v.Ordinary) ∧
      callBuiltin "distinct values" [.list vs] 34 invoke = .ok (.list kept) ∧
      (vs.Perm vs.reverse ∧ (firsts vs.reverse).length = 4) ∧
      Decision.aggregate .count vs = .long 4 ∧
      callBuiltin "union" [.list [one, m], .list kept] 34 invoke =
        callBuiltin "union" [.list [one, m], .list vs] 34 invoke := by
  intro one d m invoke vs kept
  have hd : d.Ordinary := ⟨.date _, .date _, .date _⟩
  have hm : m.Ordinary := ⟨.dateTime _, .dateTime _, .dateTime _⟩
  have hnumber {n : Number} (h : n.kind ≠ .double) : (Datum.number n : Value).Ordinary :=
    ⟨.number n, .number n, .number h⟩
  have hlist {v : Value} (hv : v.Ordinary) : (Datum.list [v]).Ordinary :=
    ⟨.list (by simpa using hv.plain), .list (by simpa using hv.keyed),
      .list (by simpa using hv.isExact)⟩
  have hone : one.Ordinary := hnumber (by decide)
  have hcount : (Datum.count 1 : Value).Ordinary := hnumber (by decide)
  have hvs : ∀ v ∈ vs, v.Ordinary := by
    simp only [vs, List.forall_mem_cons]
    exact ⟨hcount, hd, hone, hm, hlist hd, hlist hm, by simp⟩
  have hvss : ∀ ws ∈ [[one, m], vs], ∀ w ∈ ws, w.Ordinary := by
    simp only [List.forall_mem_cons]
    exact ⟨⟨hone, hm, by simp⟩, hvs, by simp⟩
  have hkept : firsts vs = kept := by
    rw [firsts, show vs.zipIdx = [(.count 1, 0), (d, 1), (one, 2), (m, 3), (.list [d], 4),
        (.list [m], 5)] from rfl,
      List.filter_cons_of_pos (by decide +kernel), List.filter_cons_of_pos (by decide +kernel),
      List.filter_cons_of_neg (by decide +kernel), List.filter_cons_of_neg (by decide +kernel),
      List.filter_cons_of_pos (by decide +kernel), List.filter_cons_of_pos (by decide +kernel)]
    rfl
  have hperm : vs.Perm vs.reverse := (List.reverse_perm vs).symm
  obtain ⟨hfirst, hsecond⟩ := callBuiltin_distinct 34 invoke
  obtain ⟨hdistinct, -, -, hlength, hcounted, -⟩ := hfirst vs hvs
  obtain ⟨-, -, hunion⟩ := hsecond [[one, m], vs] hvss
  rw [hkept] at hdistinct hlength hcounted
  exact ⟨hvs, hdistinct, ⟨hperm, hlength _ hperm⟩, hcounted,
    hunion [[one, m], kept] (.cons (.inl rfl) (.cons (.inr hdistinct) .nil))⟩

end Action

end Feel
