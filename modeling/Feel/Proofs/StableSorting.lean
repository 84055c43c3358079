import Mathlib.Data.List.Basic
import Feel.Builtin.Apply
import Feel.Proofs.Aggregates

/-!
# Sorting is stable

Lists are sorted in three ways: by inserting each item in front of the first one that it precedes,
by inserting it behind the last one that it does not precede, and by merging. Where what comes first
is a strict weak order of the items, all three give one thing: the items in order, and tied items in
the order that they had.

An insertion splits the items placed before into those that stay in front of the new one and those
that it comes before. No tied item is among the latter, and that is all that stability needs.

* `StrictWeak`, `Tied`: a strict weak order of the members of a list, and its ties.
* `StableSort`: the items of a list in order, ties as they were.
* `StableSort.insert`: what an insertion preserves.
* `Builtin.sortBy_spec`, `Builtin.sortWith?_stable`: the sorts.
* `Builtin.sort_stable`: the function `sort`, by a function that says what comes first or without.
-/

namespace Feel

/-! ### Strict weak orders -/

section Order

variable {α β : Type} {before : α → α → Prop} {vs ws l r : List α} {a b c v x : α}

/-- Neither of two comes before the other. -/
def Tied (before : α → α → Prop) (a b : α) : Prop := ¬ before a b ∧ ¬ before b a

/-- A strict weak order of the members of a list: a strict order in which to be tied is
transitive. -/
structure StrictWeak (before : α → α → Prop) (vs : List α) : Prop where
  irrefl : ∀ a ∈ vs, ¬ before a a
  trans : ∀ a ∈ vs, ∀ b ∈ vs, ∀ c ∈ vs, before a b → before b c → before a c
  tied_trans : ∀ a ∈ vs, ∀ b ∈ vs, ∀ c ∈ vs,
    Tied before a b → Tied before b c → Tied before a c

theorem Tied.symm (h : Tied before a b) : Tied before b a := ⟨h.2, h.1⟩

namespace StrictWeak

theorem mono (h : StrictWeak before vs) (hsub : ws ⊆ vs) : StrictWeak before ws :=
  ⟨fun a ha => h.irrefl a (hsub ha),
    fun a ha b hb c hc => h.trans a (hsub ha) b (hsub hb) c (hsub hc),
    fun a ha b hb c hc => h.tied_trans a (hsub ha) b (hsub hb) c (hsub hc)⟩

theorem asymm (h : StrictWeak before vs) (ha : a ∈ vs) (hb : b ∈ vs) (hab : before a b) :
    ¬ before b a :=
  fun hba => h.irrefl a ha (h.trans a ha b hb a ha hab hba)

/-- Of two that are in order, one is in order with any third. -/
theorem cotrans (h : StrictWeak before vs) (ha : a ∈ vs) (hb : b ∈ vs) (hc : c ∈ vs)
    (hac : before a c) : before a b ∨ before b c := by
  by_contra hne
  obtain ⟨hab, hbc⟩ := not_or.mp hne
  have hba : ¬ before b a := fun hba => hbc (h.trans b hb a ha c hc hba hac)
  have hcb : ¬ before c b := fun hcb => hab (h.trans a ha c hc b hb hac hcb)
  exact (h.tied_trans a ha b hb c hc ⟨hab, hba⟩ ⟨hbc, hcb⟩).1 hac

end StrictWeak

/-! ### Stable sorts -/

open Classical in
/-- The items of a list in order. Items that are tied are in the order that they had. -/
structure StableSort (before : α → α → Prop) (vs ws : List α) : Prop where
  perm : ws.Perm vs
  ordered : ws.Pairwise fun a b => ¬ before b a
  stable : ∀ x ∈ vs, ws.filter (Tied before x ·) = vs.filter (Tied before x ·)

namespace StableSort

theorem nil : StableSort before [] [] := ⟨.nil, .nil, by simp⟩

open Classical in
/-- The ties of another item are in the order that they had, too. -/
theorem filter_tied (h : StableSort before vs ws) (hweak : StrictWeak before (v :: vs)) :
    ws.filter (Tied before v ·) = vs.filter (Tied before v ·) := by
  by_cases htied : ∃ x ∈ vs, Tied before v x
  · obtain ⟨x, hx, hvx⟩ := htied
    -- what is tied with the item is what is tied with one in the list
    have hsame : ∀ y ∈ vs, Tied before v y ↔ Tied before x y := fun y hy =>
      ⟨hweak.tied_trans x (List.mem_cons_of_mem v hx) v List.mem_cons_self y
          (List.mem_cons_of_mem v hy) hvx.symm,
        hweak.tied_trans v List.mem_cons_self x (List.mem_cons_of_mem v hx) y
          (List.mem_cons_of_mem v hy) hvx⟩
    have hfilter : ∀ {us : List α}, us ⊆ vs →
        us.filter (Tied before v ·) = us.filter (Tied before x ·) := fun hsub =>
      List.filter_congr fun y hy => decide_eq_decide.mpr (hsame y (hsub hy))
    rw [hfilter h.perm.subset, hfilter (List.Subset.refl vs), h.stable x hx]
  · have hnone : ∀ {us : List α}, us ⊆ vs → us.filter (Tied before v ·) = [] := fun hsub =>
      List.filter_eq_nil_iff.mpr fun y hy => by
        simpa using fun hvy => htied ⟨y, hsub hy, hvy⟩
    rw [hnone h.perm.subset, hnone (List.Subset.refl vs)]

open Classical in
/-- **Insertion is stable**: an item comes behind those that it does not come before. -/
theorem insert (h : StableSort before vs (l ++ r)) (hweak : StrictWeak before (v :: vs))
    (hl : ∀ a ∈ l, ¬ before v a) (hr : ∀ b ∈ r, before v b) :
    StableSort before (vs ++ [v]) (l ++ v :: r) := by
  have hmem : ∀ b ∈ r, b ∈ v :: vs := fun b hb =>
    List.mem_cons_of_mem v (h.perm.subset (List.mem_append_right l hb))
  obtain ⟨hordl, hordr, hordlr⟩ := List.pairwise_append.mp h.ordered
  refine ⟨?_, ?_, fun x hx => ?_⟩
  · exact List.perm_middle.trans ((h.perm.cons v).trans (List.perm_append_singleton v vs).symm)
  · refine List.pairwise_append.mpr ⟨hordl, List.pairwise_cons.mpr ⟨fun b hb => ?_, hordr⟩, ?_⟩
    · exact hweak.asymm List.mem_cons_self (hmem b hb) (hr b hb)
    · exact fun a ha => List.forall_mem_cons.mpr ⟨hl a ha, hordlr a ha⟩
  · have hxmem : x ∈ v :: vs := (List.perm_append_singleton v vs).subset hx
    have hkept : (l ++ r).filter (Tied before x ·) = vs.filter (Tied before x ·) :=
      h.filter_tied (hweak.mono (List.cons_subset.mpr ⟨hxmem, List.subset_cons_self v vs⟩))
    rw [List.filter_append, List.filter_append, ← hkept, List.filter_append, List.append_assoc]
    by_cases hxv : Tied before x v
    · -- none of the items that the new one comes before is tied with it
      have hnone : r.filter (Tied before x ·) = [] := by
        refine List.filter_eq_nil_iff.mpr fun b hb => ?_
        simp only [decide_eq_true_eq]
        exact fun hxb => (hweak.tied_trans v List.mem_cons_self x hxmem b (hmem b hb)
          hxv.symm hxb).1 (hr b hb)
      rw [List.filter_cons_of_pos (by simpa using hxv), hnone, List.nil_append,
        List.filter_cons_of_pos (by simpa using hxv), List.filter_nil]
    · rw [List.filter_cons_of_neg (by simpa using hxv),
        List.filter_cons_of_neg (by simpa using hxv), List.filter_nil, List.append_nil]

/-- Where an item comes before the next one, it comes before all behind. -/
theorem insert_before (h : StableSort before vs (l ++ r)) (hweak : StrictWeak before (v :: vs))
    (hl : ∀ a ∈ l, ¬ before v a) (hhead : ∀ b ∈ r.head?, before v b) :
    StableSort before (vs ++ [v]) (l ++ v :: r) := by
  refine h.insert hweak hl ?_
  have hmem : ∀ b ∈ r, b ∈ v :: vs := fun b hb =>
    List.mem_cons_of_mem v (h.perm.subset (List.mem_append_right l hb))
  cases r with
  | nil => exact fun b hb => absurd hb List.not_mem_nil
  | cons c r =>
    have hvc : before v c := hhead c rfl
    refine List.forall_mem_cons.mpr ⟨hvc, fun b hb => ?_⟩
    have hcb : ¬ before b c :=
      List.rel_of_pairwise_cons (List.pairwise_append.mp h.ordered).2.1 hb
    exact (hweak.cotrans List.mem_cons_self (hmem b (List.mem_cons_of_mem c hb))
      (hmem c List.mem_cons_self) hvc).resolve_right hcb

/-- Where an item does not come before the one in front of it, it comes before none of them. -/
theorem insert_behind (h : StableSort before vs (l ++ r)) (hweak : StrictWeak before (v :: vs))
    (hlast : ∀ a ∈ l.getLast?, ¬ before v a) (hr : ∀ b ∈ r, before v b) :
    StableSort before (vs ++ [v]) (l ++ v :: r) := by
  refine h.insert hweak ?_ hr
  have hmem : ∀ a ∈ l, a ∈ v :: vs := fun a ha =>
    List.mem_cons_of_mem v (h.perm.subset (List.mem_append_left r ha))
  obtain rfl | ⟨l, c, rfl⟩ := l.eq_nil_or_concat'
  · exact fun a ha => absurd ha List.not_mem_nil
  · have hvc : ¬ before v c := hlast c (by simp)
    have hordered := (List.pairwise_append.mp (List.pairwise_append.mp h.ordered).1).2.2
    refine List.forall_mem_append.mpr ⟨fun a ha hva => ?_, List.forall_mem_singleton.mpr hvc⟩
    obtain hvc' | hca := hweak.cotrans List.mem_cons_self (hmem c (by simp))
      (hmem a (List.mem_append_left _ ha)) hva
    · exact hvc hvc'
    · exact hordered a ha c (List.mem_singleton.mpr rfl) hca

theorem map {us us' : List β} {f : β → α}
    (h : StableSort (fun a b => before (f a) (f b)) us us') :
    StableSort before (us.map f) (us'.map f) := by
  refine ⟨h.perm.map f, List.pairwise_map.mpr h.ordered, List.forall_mem_map.mpr fun x hx => ?_⟩
  rw [List.filter_map, List.filter_map]
  exact congrArg (List.map f) (h.stable x hx)

end StableSort

open Classical in
/-- Merging is stable, where items that do not come before one another are in a linear preorder. -/
theorem stableSort_mergeSort_of_total {le : α → α → Bool}
    (hle : ∀ a b, le a b = true ↔ ¬ before b a)
    (htrans : ∀ a b c, le a b = true → le b c = true → le a c = true)
    (htotal : ∀ a b, (le a b || le b a) = true) (vs : List α) :
    StableSort before vs (vs.mergeSort le) := by
  refine ⟨List.mergeSort_perm vs le,
    (List.pairwise_mergeSort htrans htotal vs).imp fun {a b} h => (hle a b).mp h, fun x _ => ?_⟩
  -- what is tied with one item is a sorted part of the list, and merging keeps such parts
  have hpart : (vs.filter (Tied before x ·)).Pairwise fun a b => le a b = true := by
    refine List.pairwise_of_forall_mem_list fun a ha b hb => ?_
    have ha := of_decide_eq_true (List.mem_filter.mp ha).2
    have hb := of_decide_eq_true (List.mem_filter.mp hb).2
    exact htrans a x b ((hle a x).mpr ha.1) ((hle x b).mpr hb.2)
  have hsub := (List.sublist_mergeSort htrans htotal hpart List.filter_sublist).filter
    (Tied before x ·)
  rw [List.filter_filter] at hsub
  simp only [Bool.and_self] at hsub
  have hperm := (List.mergeSort_perm vs le).filter (Tied before x ·)
  exact (hsub.eq_of_length hperm.length_eq.symm).symm

/-- **Merging is stable** where what comes first is a strict weak order of the items. -/
theorem stableSort_mergeSort {le : α → α → Bool} (hweak : StrictWeak before vs)
    (hle : ∀ a b, le a b = true ↔ ¬ before b a) : StableSort before vs (vs.mergeSort le) := by
  let le' (a b : {v // v ∈ vs}) : Bool := le a b
  have hmap : (vs.attach.mergeSort le').map Subtype.val = vs.mergeSort le := by
    rw [List.map_mergeSort (s := le) fun _ _ _ _ => rfl, List.attach_map_subtype_val]
  have hle' : ∀ a b, le' a b = true ↔ ¬ before b.1 a.1 := fun a b => hle a b
  have h : StableSort (fun a b : {v // v ∈ vs} => before a b) vs.attach
      (vs.attach.mergeSort le') := by
    refine stableSort_mergeSort_of_total hle' (fun a b c hab hbc => ?_) (fun a b => ?_) vs.attach
    · rw [hle'] at hab hbc ⊢
      exact fun hca => (hweak.cotrans c.2 b.2 a.2 hca).elim hbc hab
    · rw [Bool.or_eq_true, hle', hle', ← not_and_or]
      exact fun h => hweak.asymm b.2 a.2 h.1 h.2
  have hvs := h.map
  rwa [hmap, List.attach_map_subtype_val] at hvs

end Order

namespace Builtin

open Datum (Comparable)

variable {ε : Type} {v w : Value} {vs ws placed out : List Value}

/-! ### Sorting by a function -/

section SortBy

variable {precedes : Value → Value → Except ε Bool}

/-- An item is inserted behind items none of which it precedes, and in front of one that it
precedes. -/
theorem insertBy_eq_ok (h : ∀ w ∈ ws, ∃ b, precedes v w = .ok b) :
    ∃ l r, ws = l ++ r ∧ insertBy precedes v ws = .ok (l ++ v :: r) ∧
      (∀ a ∈ l, precedes v a ≠ .ok true) ∧ ∀ b ∈ r.head?, precedes v b = .ok true := by
  induction ws with
  | nil => exact ⟨[], [], rfl, rfl, by simp, by simp⟩
  | cons w ws ih =>
    rw [List.forall_mem_cons] at h
    obtain ⟨⟨b, hb⟩, hws⟩ := h
    cases b with
    | true =>
      refine ⟨[], w :: ws, rfl, ?_, by simp, by simpa using hb⟩
      rw [insertBy, hb]
      rfl
    | false =>
      obtain ⟨l, r, rfl, hinsert, hl, hr⟩ := ih hws
      refine ⟨w :: l, r, rfl, ?_, List.forall_mem_cons.mpr ⟨by simp [hb], hl⟩, hr⟩
      rw [insertBy, hb, hinsert]
      rfl

/-- **Sorting by a function.** The items that are sorted join those that are placed already; where
the function is a strict weak order, each joins them at its place. -/
theorem sortBy_spec (h : ∀ v ∈ vs, ∀ w ∈ placed ++ vs, ∃ b, precedes v w = .ok b)
    (hws : ws.Perm placed) :
    ∃ out, sortBy precedes vs ws = .ok out ∧ out.Perm (placed ++ vs) ∧
      (StrictWeak (fun a b => precedes a b = .ok true) (placed ++ vs) →
        StableSort (fun a b => precedes a b = .ok true) placed ws →
        StableSort (fun a b => precedes a b = .ok true) (placed ++ vs) out) := by
  induction vs generalizing placed ws with
  | nil =>
    rw [List.append_nil]
    exact ⟨ws, rfl, hws, fun _ => id⟩
  | cons v vs ih =>
    obtain ⟨hv, hvs⟩ := List.forall_mem_cons.mp h
    obtain ⟨l, r, rfl, hinsert, hl, hr⟩ := insertBy_eq_ok fun w hw =>
      hv w (List.mem_append_left _ (hws.subset hw))
    have hplaced : (l ++ v :: r).Perm (placed ++ [v]) :=
      List.perm_middle.trans ((hws.cons v).trans (List.perm_append_singleton v placed).symm)
    rw [List.append_cons placed] at hvs ⊢
    obtain ⟨out, hout, hperm, hstable⟩ := ih hvs hplaced
    refine ⟨out, ?_, hperm, fun hweak hsort => hstable hweak ?_⟩
    · rw [sortBy, hinsert]
      exact hout
    · refine hsort.insert_before (hweak.mono fun a ha => ?_) hl hr
      rw [List.mem_append, List.mem_append, List.mem_singleton]
      exact .inl (List.mem_cons.mp ha).symm

end SortBy

/-! ### Sorting by a question -/

section SortWith

variable {before? : Before?}

/-- What comes first by a question. -/
abbrev Answers (before? : Before?) (v w : Value) : Prop := before? v w = some true

/-- An item is inserted into a descending list behind items all of which it comes before. -/
theorem insertDown?_eq_some (h : ∀ w ∈ ws, (before? v w).isSome) :
    ∃ l r, ws = l ++ r ∧ insertDown? before? v ws = some (l ++ v :: r) ∧
      (∀ a ∈ l, Answers before? v a) ∧ ∀ b ∈ r.head?, ¬ Answers before? v b := by
  induction ws with
  | nil => exact ⟨[], [], rfl, rfl, by simp, by simp⟩
  | cons w ws ih =>
    rw [List.forall_mem_cons] at h
    obtain ⟨b, hb⟩ := Option.isSome_iff_exists.mp h.1
    cases b with
    | true =>
      obtain ⟨l, r, rfl, hinsert, hl, hr⟩ := ih h.2
      refine ⟨w :: l, r, rfl, ?_, List.forall_mem_cons.mpr ⟨hb, hl⟩, hr⟩
      rw [insertDown?, hb, hinsert]
      rfl
    | false =>
      refine ⟨[], w :: ws, rfl, ?_, by simp, by simp [Answers, hb]⟩
      rw [insertDown?, hb]
      rfl

/-- Inserting from the end keeps a list in order that is read from the end. -/
theorem foldlM_insertDown?
    (hanswer : (placed ++ vs).Pairwise fun a b => (before? a b).isSome ∧ (before? b a).isSome)
    (hweak : StrictWeak (Answers before?) (placed ++ vs))
    (h : StableSort (Answers before?) placed ws.reverse) :
    ∃ out, vs.foldlM (fun sorted v => insertDown? before? v sorted) ws = some out ∧
      StableSort (Answers before?) (placed ++ vs) out.reverse := by
  induction vs generalizing placed ws with
  | nil =>
    rw [List.append_nil]
    exact ⟨ws, rfl, h⟩
  | cons v vs ih =>
    have hv : ∀ w ∈ ws, (before? v w).isSome := fun w hw =>
      ((List.pairwise_append.mp hanswer).2.2 w (h.perm.subset (List.mem_reverse.mpr hw)) v
        List.mem_cons_self).2
    obtain ⟨l, r, rfl, hinsert, hl, hr⟩ := insertDown?_eq_some hv
    rw [List.append_cons placed] at hanswer hweak ⊢
    have hnext : StableSort (Answers before?) (placed ++ [v]) (l ++ v :: r).reverse := by
      rw [List.reverse_append] at h
      rw [List.reverse_append, List.reverse_cons, List.append_assoc]
      refine h.insert_behind (hweak.mono fun a ha => ?_) ?_
        fun a ha => hl a (List.mem_reverse.mp ha)
      · rw [List.mem_append, List.mem_append, List.mem_singleton]
        exact .inl (List.mem_cons.mp ha).symm
      · rwa [List.getLast?_reverse]
    obtain ⟨out, hout, hstable⟩ := ih hanswer hweak hnext
    refine ⟨out, ?_, hstable⟩
    rw [List.foldlM_cons, hinsert]
    exact hout

theorem answered_of_pairwise (h : vs.Pairwise fun a b => (before? a b).isSome) :
    answered before? vs = true := by
  induction vs with
  | nil => rfl
  | cons v vs ih =>
    cases vs with
    | nil => rfl
    | cons w vs =>
      obtain ⟨hv, hvs⟩ := List.pairwise_cons.mp h
      rw [answered, hv w List.mem_cons_self, ih hvs]
      rfl

/-- **Sorting by a question** that has an answer for all pairs. -/
theorem sortWith?_stable
    (hanswer : vs.Pairwise fun a b => (before? a b).isSome ∧ (before? b a).isSome)
    (hweak : StrictWeak (Answers before?) vs) :
    ∃ ws, sortWith? before? vs = some ws ∧ StableSort (Answers before?) vs ws := by
  unfold sortWith?
  split
  · obtain ⟨out, hout, hstable⟩ :
        ∃ out, vs.foldlM (fun sorted v => insertDown? before? v sorted) [] = some out ∧
          StableSort (Answers before?) ([] ++ vs) out.reverse :=
      foldlM_insertDown? hanswer hweak .nil
    exact ⟨out.reverse, by rw [insertionSort?, hout]; rfl, hstable⟩
  · have hstable : StableSort (Answers before?) vs
        (vs.mergeSort fun a b => before? b a != some true) :=
      stableSort_mergeSort hweak fun a b => by simp [Answers]
    have hanswered := (List.Perm.pairwise_iff (fun h => h.symm) hstable.perm).mpr hanswer
    refine ⟨_, ?_, hstable⟩
    rw [mergeSort?, answered_of_pairwise (hanswered.imp And.left)]
    rfl

end SortWith

/-! ### Natural order -/

/-- One value is less than another. -/
def Less (v w : Value) : Prop := v.order? w = some .lt

/-- Whether one value is less than another. -/
abbrev less? : Before? := fun v w => (v.order? w).map (· == .lt)

theorem answers_less : Answers less? = Less := by
  funext v w
  refine propext ?_
  rw [Answers, less?, Less]
  cases v.order? w with
  | none => simp
  | some o => simp

theorem tied_less_iff (hv : v.Exact) (hw : w.Exact) (h : v.Comparable w) :
    Tied Less v w ↔ v.order? w = some .eq := by
  obtain ⟨o, ho⟩ := Option.isSome_iff_exists.mp h.1
  rw [Tied, Less, Less, Datum.order?_swap hv hw, ho]
  cases o <;> decide

/-- Values that can be compared to one another are in a strict weak order. -/
theorem strictWeak_less (hexact : ∀ v ∈ vs, v.Exact) (h : vs.Pairwise Comparable) :
    StrictWeak Less vs := by
  refine ⟨fun a ha haa => ?_, fun a ha b hb c hc hab hbc => ?_, fun a ha b hb c hc hab hbc => ?_⟩
  · have hswap := Datum.order?_swap (hexact a ha) (hexact a ha)
    rw [haa] at hswap
    cases hswap
  · obtain ⟨o, ho, hle⟩ := Datum.order?_trans (hexact a ha) (hexact b hb) (hexact c hc) hab hbc
    have := hle rfl rfl
    rw [Less, ho]
    cases o <;> simp_all
  · by_cases heq : a = b
    · rwa [heq]
    · by_cases heq' : b = c
      · rwa [← heq']
      · have hcab := h.forall ha hb heq
        have hcbc := h.forall hb hc heq'
        rw [tied_less_iff (hexact a ha) (hexact b hb) hcab,
          Datum.order?_eq_eq_iff (hexact a ha) (hexact b hb)] at hab
        rw [tied_less_iff (hexact b hb) (hexact c hc) hcbc,
          Datum.order?_eq_eq_iff (hexact b hb) (hexact c hc)] at hbc
        obtain ⟨p, hp, hp'⟩ := hab
        obtain ⟨p', hp'', hc'⟩ := hbc
        rw [hp', Option.some.injEq] at hp''
        rw [tied_less_iff (hexact a ha) (hexact c hc)
          (hcab.trans (hexact a ha) (hexact b hb) (hexact c hc) hcbc),
          Datum.order?_eq_eq_iff (hexact a ha) (hexact c hc)]
        exact ⟨p, hp, hp'' ▸ hc'⟩

/-- **Ascending order.** Values that can be compared to one another are sorted. -/
theorem ascending?_stable (hexact : ∀ v ∈ vs, v.Exact) (h : vs.Pairwise Comparable) :
    ∃ ws, ascending? vs = some ws ∧ StableSort Less vs ws := by
  rw [← answers_less]
  refine sortWith?_stable (h.imp fun hvw => ?_) (answers_less ▸ strictWeak_less hexact h)
  rwa [Option.isSome_map, Option.isSome_map]

/-- An item that is inserted is asked about against the first one. -/
theorem insertDown?_asked {before? : Before?} (h : insertDown? before? v ws = some out) :
    out.Perm (v :: ws) ∧ ∀ w ∈ ws.head?, (before? v w).isSome := by
  induction ws generalizing out with
  | nil =>
    cases h
    exact ⟨.refl _, by simp⟩
  | cons w ws ih =>
    rw [insertDown?] at h
    obtain ⟨b, hb, h⟩ := Option.bind_eq_some_iff.mp h
    refine ⟨?_, by simp [hb]⟩
    cases b with
    | true =>
      obtain ⟨rest, hrest, h⟩ := Option.bind_eq_some_iff.mp h
      cases h
      exact ((ih hrest).1.cons w).trans (.swap v w ws)
    | false =>
      cases h
      exact .refl _

/-- Values that are inserted can be compared to those that are placed. -/
theorem pairwise_of_foldlM (hexact : ∀ v ∈ vs ++ ws, v.Exact) (hws : ws.Pairwise Comparable)
    (h : vs.foldlM (fun sorted v => insertDown? less? v sorted) ws = some out) :
    out.Perm (vs ++ ws) ∧ out.Pairwise Comparable := by
  induction vs generalizing ws with
  | nil =>
    cases h
    exact ⟨.refl _, hws⟩
  | cons v vs ih =>
    obtain ⟨mid, hmid, h⟩ := Option.bind_eq_some_iff.mp h
    obtain ⟨hperm, hasked⟩ := insertDown?_asked hmid
    have hmove : (vs ++ mid).Perm (v :: vs ++ ws) :=
      (hperm.append_left vs).trans List.perm_middle
    have hpairs : (v :: ws).Pairwise Comparable := by
      cases ws with
      | nil => exact List.pairwise_singleton _ v
      | cons w ws =>
        have hv : v.Exact := hexact v List.mem_cons_self
        have hw : w.Exact := hexact w (List.mem_append_right _ List.mem_cons_self)
        refine Datum.pairwise_comparable_cons hv hw (fun u hu => ?_) ?_ hws
        · exact hexact u (List.mem_append_right _ (List.mem_cons_of_mem w hu))
        · have hvw := hasked w rfl
          rw [Option.isSome_map] at hvw
          exact (Datum.comparable_iff hv hw).mpr hvw
    obtain ⟨hout, hpairs⟩ := ih (fun u hu => hexact u (hmove.subset hu))
      ((List.Perm.pairwise_iff (fun h => h.symm) hperm).mpr hpairs) h
    exact ⟨hout.trans hmove, hpairs⟩

/-- Values whose neighbours can be compared can all be compared. -/
theorem pairwise_of_answered (hexact : ∀ v ∈ vs, v.Exact) (h : answered less? vs = true) :
    vs.Pairwise Comparable := by
  induction vs with
  | nil => exact .nil
  | cons v vs ih =>
    cases vs with
    | nil => exact List.pairwise_singleton _ v
    | cons w vs =>
      rw [answered, Bool.and_eq_true, Option.isSome_map] at h
      rw [List.forall_mem_cons] at hexact
      obtain ⟨hw, hvs⟩ := List.forall_mem_cons.mp hexact.2
      exact Datum.pairwise_comparable_cons hexact.1 hw hvs
        ((Datum.comparable_iff hexact.1 hw).mpr h.1) (ih hexact.2 h.2)

/-- **What is sorted can be compared**: every value is compared to one of those that are placed
already, or to its neighbour in the result. -/
theorem pairwise_of_ascending? (hexact : ∀ v ∈ vs, v.Exact) (h : ascending? vs = some ws) :
    vs.Pairwise Comparable := by
  unfold ascending? sortWith? at h
  split at h
  · obtain ⟨out, hout, -⟩ := Option.map_eq_some_iff.mp h
    obtain ⟨hperm, hpairs⟩ := pairwise_of_foldlM (by rwa [List.append_nil]) .nil hout
    rw [List.append_nil] at hperm
    exact (List.Perm.pairwise_iff (fun h => h.symm) hperm).mp hpairs
  · unfold mergeSort? at h
    extract_lets sorted at h
    split at h
    · next hanswered =>
      have hperm : sorted.Perm vs := List.mergeSort_perm vs _
      have hpairs := pairwise_of_answered (fun v hv => hexact v (hperm.subset hv)) hanswered
      exact (List.Perm.pairwise_iff (fun h => h.symm) hperm).mp hpairs
    · cases h

/-! ### The function -/

theorem isTrue_eq_ok_true (answer : Except ε Value) :
    isTrue answer = .ok true ↔ answer = .ok (.boolean true) := by
  cases answer with
  | error e => simp [isTrue, Except.map]
  | ok v => cases v <;> simp [isTrue, Except.map, Datum.isBool]

/-- **`sort` is a stable sort.** With a function that answers for all pairs of items, the result has
the same items, and where the function says what comes first in a strict weak order it is a stable
sort by this order. Without one, values that can be compared to one another are sorted in natural
order; the result is null where two of them cannot. -/
theorem sort_stable {args : List Value} (hlist : Args.get args 0 = .list vs) (precision : Nat)
    (invoke : FunctionValue → List Value → Except ε Value) :
    (∀ precedes, Args.get args 1 = .function precedes →
      (∀ a ∈ vs, ∀ b ∈ vs, ∃ v, invoke precedes [a, b] = .ok v) →
      ∃ ws, sort.apply args precision invoke = .ok (.list ws) ∧ ws.Perm vs ∧
        (StrictWeak (fun a b => invoke precedes [a, b] = .ok (.boolean true)) vs →
          StableSort (fun a b => invoke precedes [a, b] = .ok (.boolean true)) vs ws)) ∧
    (Args.get args 1 = .null → (∀ v ∈ vs, v.Exact) →
      (vs.Pairwise Comparable →
        ∃ ws, sort.apply args precision invoke = .ok (.list ws) ∧ StableSort Less vs ws) ∧
      (¬ vs.Pairwise Comparable → sort.apply args precision invoke = .ok .null)) := by
  constructor
  · intro precedes hfunction hnever
    let first (a b : Value) : Except ε Bool := isTrue (invoke precedes [a, b])
    have hfirst : (fun a b => first a b = .ok true) =
        fun a b => invoke precedes [a, b] = .ok (.boolean true) := by
      funext a b
      exact propext (isTrue_eq_ok_true _)
    have hanswer : ∀ a ∈ vs, ∀ b ∈ [] ++ vs, ∃ c, first a b = .ok c := by
      intro a ha b hb
      obtain ⟨v, hv⟩ := hnever a ha b hb
      exact ⟨v.isBool true, by rw [show first a b = _ from congrArg isTrue hv]; rfl⟩
    obtain ⟨ws, hws, hperm, hstable⟩ := sortBy_spec hanswer .nil
    rw [List.nil_append, hfirst] at hstable
    refine ⟨ws, ?_, hperm, fun hweak => hstable hweak .nil⟩
    have happly : sort.apply args precision invoke = (sortBy first vs []).map .list := by
      simp only [apply, hlist, hfunction]
      rfl
    rw [happly, hws]
    rfl
  · intro hnull hexact
    have happly : sort.apply args precision invoke = .ok (sortNatural vs) := by
      simp only [apply, value, onList, hlist, hnull]
      rfl
    rw [happly]
    refine ⟨fun hpairs => ?_, fun hpairs => ?_⟩
    · obtain ⟨ws, hws, hstable⟩ := ascending?_stable hexact hpairs
      exact ⟨ws, by rw [sortNatural, hws], hstable⟩
    · cases hws : ascending? vs with
      | none => rw [sortNatural, hws]
      | some ws => exact absurd (pairwise_of_ascending? hexact hws) hpairs

/-- Texts of one length stay as they were, behind the shorter one. A text and a number have no
natural order. -/
theorem sort_stable_lengths :
    let f : FunctionValue := .builtin "shorter" .any
    let invoke : FunctionValue → List Value → Except Unit Value := fun _ args =>
      .ok (.boolean (decide ((Args.get args 0).text.length < (Args.get args 1).text.length)))
    let vs : List Value := [.string "bb", .string "a", .string "cc"]
    let ws : List Value := [.string "a", .string "bb", .string "cc"]
    sort.apply [.list vs, .function f] 0 invoke = .ok (.list ws) ∧
      StableSort (fun a b => invoke f [a, b] = .ok (.boolean true)) vs ws ∧
      sort.apply [.list [.string "a", .count 1]] 0 invoke = .ok .null := by
  intro f invoke vs ws
  have hanswer : ∀ a b, invoke f [a, b] = .ok (.boolean true) ↔ a.text.length < b.text.length := by
    intro a b
    simp [invoke, Args.get]
  have hweak : StrictWeak (fun a b => invoke f [a, b] = .ok (.boolean true)) vs := by
    simp only [hanswer]
    exact ⟨fun _ _ => lt_irrefl _, fun _ _ _ _ _ _ => lt_trans, fun a _ b _ c _ hab hbc => by
      simp only [Tied, not_lt] at hab hbc ⊢
      omega⟩
  have happly : sort.apply [.list vs, .function f] 0 invoke = .ok (.list ws) := rfl
  obtain ⟨hby, -⟩ := sort_stable (rfl : Args.get [.list vs, .function f] 0 = .list vs) 0 invoke
  obtain ⟨out, hout, -, hstable⟩ := hby f rfl fun a _ b _ => ⟨_, rfl⟩
  rw [happly] at hout
  cases hout
  obtain ⟨-, hnatural⟩ := sort_stable
    (rfl : Args.get [.list [.string "a", .count 1]] 0 = .list [.string "a", .count 1]) 0 invoke
  refine ⟨happly, hstable hweak, (hnatural rfl ?_).2 ?_⟩
  · exact List.forall_mem_cons.mpr ⟨.string _, List.forall_mem_singleton.mpr (.number (by decide))⟩
  · intro h
    cases (List.rel_of_pairwise_cons h (List.mem_singleton.mpr rfl)).1

end Builtin

end Feel
