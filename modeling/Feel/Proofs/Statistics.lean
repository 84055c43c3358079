import Mathlib.Data.List.GetD
import Feel.Proofs.BuiltinTypes
import Feel.Proofs.Quotients
import Feel.Proofs.StableSorting

/-!
# Statistics of lists

Functions over lists combine or select items, and most of them depend on nothing but which items
there are. A sum and a product denote the sum and the product of what the numbers denote. Numbers in
ascending order denote the same numbers wherever they come from, and so the middle one and the most
frequent ones do not depend on the order either.

A mean is a quotient, and its rounding depends on the digits in which the sum is written: long
division rounds at the last of them or behind a hundred digits, whichever is later, before the mean
is rounded to the precision. Sums of the same numbers in another order are equal, but may be written
with a different number of zeros. So means are equal where no limit of rounding comes into it, which
is so for all numbers of few digits.

* `Datum.quantity`: what a number denotes.
* `Builtin.sortedNumbers?_perm`: numbers in ascending order.
* `Builtin.Tally`, `Builtin.tally_runs`: how often each number occurs.
* `Builtin.Averages`, `Builtin.FewDigits`: means, and where they are rounded once.
* `Builtin.statistics_perm`: the functions over lists and the order of the items.
-/

namespace Feel

open Rounding

variable {v w : Value} {vs ws : List Value}

/-! ### Quantities -/

namespace Datum

/-- What a number denotes; zero for everything else. -/
def quantity (v : Value) : ℚ := v.rational?.getD 0

theorem rational?_eq_quantity (hv : v.rational?.isSome) : v.rational? = some v.quantity := by
  obtain ⟨x, hx⟩ := Option.isSome_iff_exists.mp hv
  rw [quantity, hx]
  rfl

theorem order?_quantity (hv : v.rational?.isSome) (hw : w.rational?.isSome) :
    v.order? w = some (Ord.compare v.quantity w.quantity) := by
  obtain ⟨a, rfl, ha⟩ := rational?_eq_some.mp (rational?_eq_quantity hv)
  obtain ⟨b, rfl, hb⟩ := rational?_eq_some.mp (rational?_eq_quantity hw)
  exact Number.order?_eq_compare ha hb

theorem equal_iff_quantity (hv : v.rational?.isSome) (hw : w.rational?.isSome) :
    v.equal w = true ↔ v.quantity = w.quantity := by
  have hplace : v.place?.isSome := by
    obtain ⟨a, rfl, ha⟩ := rational?_eq_some.mp (rational?_eq_quantity hv)
    rw [place?, ha]
    rfl
  rw [equal_iff_order? hplace, order?_quantity hv hw, Option.some.injEq, compare_eq_iff_eq]

theorem less_iff_quantity (hv : v.rational?.isSome) (hw : w.rational?.isSome) :
    Builtin.Less v w ↔ v.quantity < w.quantity := by
  rw [Builtin.Less, order?_quantity hv hw, Option.some.injEq, compare_lt_iff_lt]

theorem filterMap_rational? (hvs : ∀ v ∈ vs, v.rational?.isSome) :
    vs.filterMap rational? = vs.map quantity := by
  rw [← List.filterMap_eq_map]
  exact List.filterMap_congr fun v hv => rational?_eq_quantity (hvs v hv)

end Datum

/-- A quotient is developed to a hundred digits at least, and the development is rounded to the
precision. -/
theorem Number.divide?_developed {a b : Number} {x y : ℚ} {precision : ℕ}
    (ha : a.value? = some x) (hb : b.value? = some y) (hy : y ≠ 0) (hp : precision ≠ 0) :
    ∃ d z, a.divide? b precision = some (.decimal d) ∧ Developed 100 (x / y) z ∧
      Nearest precision z d.value := by
  have hdeveloped : Developed 100 _ _ := Decimal.developed_quotient (a := a.toDecimal)
    ((value_toDecimal hb).symm ▸ hy)
  rw [value_toDecimal ha, value_toDecimal hb] at hdeveloped
  refine ⟨_, _, ?_, hdeveloped, Decimal.nearest_roundTo hp _⟩
  rw [divide?, isZero_of_value hb hy]
  rfl

theorem Fits.equal_self (h : Fits v .boolean) : v.equal v = true := by
  cases h with
  | null => exact Datum.Ordinary.null.equal_refl
  | boolean b => exact Datum.Ordinary.equal_refl ⟨.boolean b, .boolean b, .boolean b⟩

namespace Builtin

open Datum (quantity Comparable)

/-! ### Sums and products -/

/-- Without a number of binary64, all items are numbers where all of them denote something. -/
theorem all_isSome_iff (hvs : ∀ v ∈ vs, v.Exact) :
    vs.all (·.asNumber?.isSome) = true ↔ ∀ v ∈ vs, v.rational?.isSome := by
  rw [List.all_eq_true]
  exact forall₂_congr fun v hv => by rw [(hvs v hv).isSome_rational?]

theorem total_eq_reduce (hexact : ∀ v ∈ vs, v.Exact) (hnumbers : ∀ v ∈ vs, v.rational?.isSome)
    (op : Operator) : total op vs = reduce op vs := by
  rw [total, if_pos ((all_isSome_iff hexact).mpr hnumbers)]

theorem total_perm {op : Operator} (hop : op = .add ∨ op = .mul) (hvs : ∀ v ∈ vs, v.Ordinary)
    (h : vs.Perm ws) : (total op vs).equal (total op ws) = true := by
  have hexact : ∀ v ∈ vs, v.Exact := fun v hv => (hvs v hv).isExact
  rw [total, total, ← h.all_eq]
  split
  · next hall =>
    have hnumbers := (all_isSome_iff hexact).mp hall
    have hnumbers' : ∀ v ∈ ws, v.rational?.isSome := fun v hv => hnumbers v (h.mem_iff.mpr hv)
    by_cases hne : vs = []
    · subst hne
      rw [List.nil_perm.mp h]
      exact Datum.Ordinary.null.equal_refl
    · have hne' : ws ≠ [] := fun hnil => hne (List.perm_nil.mp (hnil ▸ h))
      obtain rfl | rfl := hop
      · refine Datum.equal_of_rational? ?_ ?_ <;>
          rw [rational?_reduce_add hne hnumbers]
        · rfl
        · rw [rational?_reduce_add hne' hnumbers', (h.filterMap _).sum_eq]
      · refine Datum.equal_of_rational? ?_ ?_ <;>
          rw [rational?_reduce_mul hne hnumbers]
        · rfl
        · rw [rational?_reduce_mul hne' hnumbers', (h.filterMap _).prod_eq]
  · exact Datum.Ordinary.null.equal_refl

/-! ### Truth values -/

/-- Items that are combined by conjunction or disjunction. -/
def isTruth (v : Value) : Bool := v.isNull || v.asBool?.isSome

theorem quantify_eq (op : Value → Value → Value) (acc : Value) (vs : List Value) :
    quantify op acc vs = if vs.all isTruth then vs.foldl op acc else .null := by
  induction vs generalizing acc with
  | nil => rfl
  | cons v vs ih =>
    have hstep : quantify op acc (v :: vs) =
        if isTruth v then quantify op (op acc v) vs else .null := rfl
    rw [hstep, List.all_cons, List.foldl_cons, ih]
    cases isTruth v <;> rfl

/-- Items are combined with what came before in any order. -/
theorem and_right_comm (u v w : Value) : (u.and v).and w = (u.and w).and v := by
  unfold Datum.and
  generalize u.asBool? = a
  generalize v.asBool? = b
  generalize w.asBool? = c
  rcases a with _ | _ | _ <;> rcases b with _ | _ | _ <;> rcases c with _ | _ | _ <;> rfl

theorem or_right_comm (u v w : Value) : (u.or v).or w = (u.or w).or v := by
  unfold Datum.or
  generalize u.asBool? = a
  generalize v.asBool? = b
  generalize w.asBool? = c
  rcases a with _ | _ | _ <;> rcases b with _ | _ | _ <;> rcases c with _ | _ | _ <;> rfl

theorem quantify_perm {op : Value → Value → Value}
    (hop : ∀ u v w, op (op u v) w = op (op u w) v) (acc : Value) (h : vs.Perm ws) :
    quantify op acc vs = quantify op acc ws := by
  rw [quantify_eq, quantify_eq, ← h.all_eq, h.foldl_eq' fun v _ w _ u => hop u v w]

/-! ### Ascending numbers -/

/-- Whether one number is less than another, where a pair without an order counts as equal. -/
abbrev lessOrNot : Before? := fun v w => some (v.order? w == some .lt)

theorem answers_lessOrNot : Answers lessOrNot = Less := by
  funext v w
  rw [Answers, lessOrNot, Less, Option.some.injEq, beq_iff_eq]

theorem pairwise_comparable (hnumbers : ∀ v ∈ vs, v.rational?.isSome) :
    vs.Pairwise Comparable := by
  refine List.pairwise_of_forall_mem_list fun v hv w hw => ?_
  rw [Comparable, Datum.order?_quantity (hnumbers v hv) (hnumbers w hw),
    Datum.order?_quantity (hnumbers w hw) (hnumbers v hv)]
  exact ⟨rfl, rfl⟩

/-- **Numbers are sorted in ascending order.** -/
theorem sortedNumbers?_stable (hexact : ∀ v ∈ vs, v.Exact) (hne : vs ≠ [])
    (hnumbers : ∀ v ∈ vs, v.rational?.isSome) :
    ∃ sorted, sortedNumbers? vs = some sorted ∧ StableSort Less vs sorted := by
  have hpairs := pairwise_comparable hnumbers
  have hweak : StrictWeak (Answers lessOrNot) vs :=
    answers_lessOrNot ▸ strictWeak_less hexact hpairs
  obtain ⟨sorted, hsorted, hstable⟩ := sortWith?_stable (hpairs.imp fun _ => ⟨rfl, rfl⟩) hweak
  refine ⟨sorted, ?_, answers_lessOrNot ▸ hstable⟩
  rw [sortedNumbers?, (all_isSome_iff hexact).mpr hnumbers, if_neg (by simpa using hne)]
  exact hsorted

/-- Nothing is sorted where there is no item, or one that is no number. -/
theorem sortedNumbers?_eq_none (hexact : ∀ v ∈ vs, v.Exact)
    (h : ¬ (vs ≠ [] ∧ ∀ v ∈ vs, v.rational?.isSome)) : sortedNumbers? vs = none := by
  rw [sortedNumbers?, if_pos]
  rw [← all_isSome_iff hexact] at h
  by_cases hne : vs = []
  · simp [hne]
  · simpa [hne] using h

section Sorted

variable {sorted sorted' : List Value}

/-- What sorted numbers denote ascends. -/
theorem ascending_quantities (hnumbers : ∀ v ∈ vs, v.rational?.isSome)
    (hs : StableSort Less vs sorted) : (sorted.map quantity).Pairwise (· ≤ ·) := by
  refine List.pairwise_map.mpr (hs.ordered.imp_of_mem fun {v w} hv hw hwv => ?_)
  rw [Datum.less_iff_quantity (hnumbers w (hs.perm.subset hw)) (hnumbers v (hs.perm.subset hv)),
    not_lt] at hwv
  exact hwv

/-- Sorted numbers denote the same, whatever order they come from. -/
theorem quantities_eq (hnumbers : ∀ v ∈ vs, v.rational?.isSome) (h : vs.Perm ws)
    (hs : StableSort Less vs sorted) (hs' : StableSort Less ws sorted') :
    sorted.map quantity = sorted'.map quantity := by
  have hperm := ((hs.perm.trans h).trans hs'.perm.symm).map quantity
  exact hperm.eq_of_pairwise (fun _ _ _ _ => le_antisymm) (ascending_quantities hnumbers hs)
    (ascending_quantities (fun v hv => hnumbers v (h.mem_iff.mpr hv)) hs')

end Sorted

/-! ### Frequencies -/

/-- Numbers of a list in ascending order, each with the number of times that it occurs. -/
structure Tally (vs : List Value) (rs : List (Value × ℕ)) : Prop where
  ascending : (rs.map fun r => quantity r.1).Pairwise (· < ·)
  mem : ∀ r ∈ rs, r.1 ∈ vs
  count : ∀ r ∈ rs, r.2 = (vs.map quantity).count (quantity r.1)
  covers : ∀ v ∈ vs, ∃ r ∈ rs, quantity r.1 = quantity v

theorem Tally.perm {rs : List (Value × ℕ)} (h : Tally vs rs) (hperm : vs.Perm ws) :
    Tally ws rs where
  ascending := h.ascending
  mem r hr := hperm.subset (h.mem r hr)
  count r hr := (h.count r hr).trans ((hperm.map quantity).count_eq _)
  covers v hv := h.covers v (hperm.mem_iff.mpr hv)

/-- A run of equal numbers in front of greater ones. -/
theorem Tally.cons {block : List Value} {rs : List (Value × ℕ)} (h : Tally vs rs)
    (hv : v ∈ block) (hblock : ∀ b ∈ block, quantity b = quantity v)
    (hlt : ∀ u ∈ vs, quantity v < quantity u) :
    Tally (block ++ vs) ((v, block.length) :: rs) where
  ascending := by
    refine List.pairwise_cons.mpr ⟨List.forall_mem_map.mpr fun r hr => ?_, h.ascending⟩
    exact hlt r.1 (h.mem r hr)
  mem := List.forall_mem_cons.mpr
    ⟨List.mem_append_left _ hv, fun r hr => List.mem_append_right _ (h.mem r hr)⟩
  count := by
    refine List.forall_mem_cons.mpr ⟨?_, fun r hr => ?_⟩
    · rw [List.map_append, List.count_append, List.count_eq_length.mpr, List.length_map,
        List.count_eq_zero.mpr, add_zero]
      · rw [List.mem_map]
        rintro ⟨u, hu, heq⟩
        exact (hlt u hu).ne' heq
      · exact List.forall_mem_map.mpr fun b hb => (hblock b hb).symm
    · rw [List.map_append, List.count_append, List.count_eq_zero.mpr, zero_add, h.count r hr]
      rw [List.mem_map]
      rintro ⟨b, hb, heq⟩
      exact (hlt r.1 (h.mem r hr)).ne ((hblock b hb).symm.trans heq)
  covers := by
    refine List.forall_mem_append.mpr ⟨fun b hb => ?_, fun u hu => ?_⟩
    · exact ⟨_, List.mem_cons_self, (hblock b hb).symm⟩
    · obtain ⟨r, hr, heq⟩ := h.covers u hu
      exact ⟨r, List.mem_cons_of_mem _ hr, heq⟩

/-- Runs go on from a block of equal numbers. -/
theorem tally_go {block : List Value} (hv : v ∈ block)
    (hblock : ∀ b ∈ block, quantity b = quantity v)
    (hnumbers : ∀ u ∈ block ++ ws, u.rational?.isSome)
    (hsorted : ((block ++ ws).map quantity).Pairwise (· ≤ ·)) :
    Tally (block ++ ws) (runs.go v block.length ws) := by
  induction ws generalizing v block with
  | nil =>
    have hnil : Tally [] [] := ⟨.nil, by simp, by simp, by simp⟩
    exact hnil.cons hv hblock (by simp)
  | cons w ws ih =>
    have hvnumber := hnumbers v (List.mem_append_left _ hv)
    have hwnumber := hnumbers w (List.mem_append_right _ List.mem_cons_self)
    rw [runs.go]
    split
    · next heq =>
      rw [Datum.equal_iff_quantity hvnumber hwnumber] at heq
      rw [List.append_cons] at hnumbers hsorted ⊢
      have hlength : block.length + 1 = (block ++ [w]).length := by simp
      rw [hlength]
      refine ih (List.mem_append_left _ hv) ?_ hnumbers hsorted
      exact List.forall_mem_append.mpr ⟨hblock, List.forall_mem_singleton.mpr heq.symm⟩
    · next hne =>
      rw [Datum.equal_iff_quantity hvnumber hwnumber] at hne
      rw [List.map_append, List.pairwise_append] at hsorted
      obtain ⟨-, hrest, hle⟩ := hsorted
      have hnext : Tally ([w] ++ ws) (runs.go w [w].length ws) := ih List.mem_cons_self (by simp)
        (fun u hu => hnumbers u (List.mem_append_right _ hu)) hrest
      refine hnext.cons hv hblock fun u hu => ?_
      have hvw : quantity v < quantity w := lt_of_le_of_ne
        (hle _ (List.mem_map_of_mem hv) _ (List.mem_map_of_mem List.mem_cons_self)) hne
      obtain rfl | hu := List.mem_cons.mp hu
      · exact hvw
      · exact hvw.trans_le (List.rel_of_pairwise_cons hrest (List.mem_map_of_mem hu))

theorem tally_runs (hnumbers : ∀ v ∈ vs, v.rational?.isSome)
    (hsorted : (vs.map quantity).Pairwise (· ≤ ·)) : Tally vs (runs vs) := by
  cases vs with
  | nil => exact ⟨.nil, by simp [runs], by simp [runs], by simp⟩
  | cons v vs =>
    have hblock : ∀ b ∈ [v], quantity b = quantity v := by simp
    exact tally_go List.mem_cons_self hblock hnumbers hsorted

/-- A number occurs in a list, and no number occurs there more often. -/
def MostFrequent (xs : List ℚ) (x : ℚ) : Prop := x ∈ xs ∧ ∀ y, xs.count y ≤ xs.count x

/-- The greatest of some counts. -/
theorem foldl_max_spec (rs : List (Value × ℕ)) (n : ℕ) :
    let top := rs.foldl (fun m r => Nat.max m r.2) n
    n ≤ top ∧ (∀ r ∈ rs, r.2 ≤ top) ∧ (top = n ∨ ∃ r ∈ rs, r.2 = top) := by
  induction rs generalizing n with
  | nil => exact ⟨le_rfl, by simp, .inl rfl⟩
  | cons r rs ih =>
    obtain ⟨hstart, hall, htop⟩ := ih (Nat.max n r.2)
    refine ⟨(Nat.le_max_left n r.2).trans hstart,
      List.forall_mem_cons.mpr ⟨(Nat.le_max_right n r.2).trans hstart, hall⟩, ?_⟩
    obtain htop | ⟨r', hr', htop⟩ := htop
    · rw [List.foldl_cons, htop]
      obtain h | h := Nat.le_total n r.2
      · exact .inr ⟨r, List.mem_cons_self, (Nat.max_eq_right h).symm⟩
      · exact .inl (Nat.max_eq_left h)
    · exact .inr ⟨r', List.mem_cons_of_mem r hr', htop⟩

/-- The counts that are greatest are those that no count exceeds. -/
theorem eq_foldl_max_iff {rs : List (Value × ℕ)} {r : Value × ℕ} (hr : r ∈ rs) :
    r.2 = rs.foldl (fun m r => Nat.max m r.2) 0 ↔ ∀ r' ∈ rs, r'.2 ≤ r.2 := by
  obtain ⟨-, hall, htop⟩ := foldl_max_spec rs 0
  refine ⟨fun h r' hr' => h ▸ hall r' hr', fun h => le_antisymm (hall r hr) ?_⟩
  obtain htop | ⟨r', hr', htop⟩ := htop
  · rw [htop]
    exact Nat.zero_le _
  · rw [← htop]
    exact h r' hr'

/-- The numbers with the greatest count are the most frequent ones. -/
theorem Tally.mostFrequent_iff {rs : List (Value × ℕ)} (h : Tally vs rs) (x : ℚ) :
    (∃ r ∈ rs, r.2 = rs.foldl (fun m r => Nat.max m r.2) 0 ∧ quantity r.1 = x) ↔
      MostFrequent (vs.map quantity) x := by
  constructor
  · rintro ⟨r, hr, htop, rfl⟩
    rw [eq_foldl_max_iff hr] at htop
    refine ⟨List.mem_map_of_mem (h.mem r hr), fun y => ?_⟩
    by_cases hy : y ∈ vs.map quantity
    · obtain ⟨v, hv, rfl⟩ := List.mem_map.mp hy
      obtain ⟨r', hr', heq⟩ := h.covers v hv
      rw [← heq, ← h.count r' hr', ← h.count r hr]
      exact htop r' hr'
    · rw [List.count_eq_zero.mpr hy]
      exact Nat.zero_le _
  · rintro ⟨hx, hmost⟩
    obtain ⟨v, hv, rfl⟩ := List.mem_map.mp hx
    obtain ⟨r, hr, heq⟩ := h.covers v hv
    refine ⟨r, hr, (eq_foldl_max_iff hr).mpr fun r' hr' => ?_, heq⟩
    rw [h.count r' hr', h.count r hr, heq]
    exact hmost _

/-- **The mode** is the list of the most frequent numbers, in ascending order. -/
theorem modes_spec (hexact : ∀ v ∈ vs, v.Exact) (hne : vs ≠ [])
    (hnumbers : ∀ v ∈ vs, v.rational?.isSome) :
    ∃ ms, modes vs = .list ms ∧ (ms.map quantity).Pairwise (· < ·) ∧ (∀ m ∈ ms, m ∈ vs) ∧
      ∀ x, x ∈ ms.map quantity ↔ MostFrequent (vs.map quantity) x := by
  obtain ⟨sorted, hsorted, hstable⟩ := sortedNumbers?_stable hexact hne hnumbers
  have htally : Tally vs (runs sorted) := by
    refine Tally.perm (tally_runs (fun v hv => ?_) (ascending_quantities hnumbers hstable))
      hstable.perm
    exact hnumbers v (hstable.perm.subset hv)
  rw [modes, hsorted]
  dsimp only
  generalize runs sorted = rs at htally ⊢
  refine ⟨_, rfl, ?_, ?_, fun x => ?_⟩
  · rw [List.map_map]
    exact htally.ascending.sublist (List.filter_sublist.map _)
  · exact List.forall_mem_map.mpr fun r hr => htally.mem r (List.mem_filter.mp hr).1
  · rw [← htally.mostFrequent_iff, List.map_map, List.mem_map]
    simp only [List.mem_filter, beq_iff_eq, Function.comp_apply, and_assoc]

/-- Lists of numbers that denote the same are equal. -/
theorem equal_list {ms ms' : List Value} (hnumbers : ∀ m ∈ ms, m.rational?.isSome)
    (hnumbers' : ∀ m ∈ ms', m.rational?.isSome) (h : ms.map quantity = ms'.map quantity) :
    (Datum.list ms : Value).equal (.list ms') = true := by
  refine Datum.equal_iff.mpr (.inl (Datum.same_list_iff.mpr ?_))
  induction ms generalizing ms' with
  | nil =>
    rw [List.map_eq_nil_iff.mp h.symm]
    exact .nil
  | cons m ms ih =>
    cases ms' with
    | nil => cases h
    | cons m' ms' =>
      rw [List.forall_mem_cons] at hnumbers hnumbers'
      rw [List.map_cons, List.map_cons, List.cons.injEq] at h
      refine .cons (Datum.same_of_rational? hnumbers.1 ?_) (ih hnumbers.2 hnumbers'.2 h.2)
      rw [Datum.rational?_eq_quantity hnumbers.1, Datum.rational?_eq_quantity hnumbers'.1, h.1]

theorem modes_perm (hexact : ∀ v ∈ vs, v.Exact) (h : vs.Perm ws) :
    (modes vs).equal (modes ws) = true := by
  have hexact' : ∀ v ∈ ws, v.Exact := fun v hv => hexact v (h.mem_iff.mpr hv)
  have hiff : vs ≠ [] ∧ (∀ v ∈ vs, v.rational?.isSome) ↔
      ws ≠ [] ∧ ∀ v ∈ ws, v.rational?.isSome := by
    simp only [ne_eq, ← List.length_eq_zero_iff, h.length_eq, h.mem_iff]
  by_cases hfull : vs ≠ [] ∧ ∀ v ∈ vs, v.rational?.isSome
  · obtain ⟨ms, hms, hasc, hmem, hmost⟩ := modes_spec hexact hfull.1 hfull.2
    obtain ⟨ms', hms', hasc', hmem', hmost'⟩ :=
      modes_spec hexact' (hiff.mp hfull).1 (hiff.mp hfull).2
    rw [hms, hms']
    have hperm := h.map quantity
    have hsame : (ms.map quantity).Perm (ms'.map quantity) := by
      refine (List.perm_ext_iff_of_nodup (hasc.imp ne_of_lt) (hasc'.imp ne_of_lt)).mpr fun x => ?_
      rw [hmost, hmost', MostFrequent, MostFrequent, hperm.mem_iff]
      simp only [hperm.count_eq]
    exact equal_list (fun m hm => hfull.2 m (hmem m hm))
      (fun m hm => (hiff.mp hfull).2 m (hmem' m hm))
      (hsame.eq_of_pairwise (fun _ _ _ _ hlt hgt => absurd hgt hlt.not_gt) hasc hasc')
  · rw [modes, modes, sortedNumbers?_eq_none hexact hfull,
      sortedNumbers?_eq_none hexact' (mt hiff.mpr hfull)]
    exact Datum.Ordinary.null.equal_refl

/-! ### Means -/

variable {precision n : ℕ} {x : ℚ}

/-- A mean, as long division and the precision round it: the sum divided by the number of items is
developed to a hundred digits at least, and the development is rounded. -/
def Averages (precision n : ℕ) (x : ℚ) (v : Value) : Prop :=
  ∃ d z, v = .number (.decimal d) ∧ Developed 100 (x / n) z ∧ Nearest precision z d.value

/-- The quotient has no more than a hundred digits, or is that of integers of few digits. -/
def FewDigits (precision n : ℕ) (x : ℚ) : Prop :=
  Digits 100 (x / n) ∨
    ∃ a t : ℤ, x = a * 10 ^ t ∧ |a| ≤ 10 ^ 99 ∧ (n : ℤ) * 10 ^ precision ≤ 10 ^ 99

/-- A mean of few digits is rounded once. -/
theorem Averages.nearest (h : Averages precision n x v) (hp : precision ≠ 0)
    (hfew : FewDigits precision n x) :
    ∃ d, v = .number (.decimal d) ∧ Nearest precision (x / n) d.value := by
  obtain ⟨d, z, rfl, hdeveloped, hnearest⟩ := h
  refine ⟨d, rfl, ?_⟩
  obtain hdigits | ⟨a, t, rfl, ha, hn⟩ := hfew
  · exact hdeveloped.eq_of_digits hdigits ▸ hnearest
  · have hpower : (10 : ℚ) ^ (((100 : ℕ) : ℤ) - 1) = 10 ^ 99 := rfl
    refine (hdeveloped.nearest_iff (by decide) hp hnearest).mpr
      (hdeveloped.not_apart (a := a) (b := n) (t := t) ?_ ?_ ?_)
    · rw [Int.cast_natCast]
      ring
    · rw [hpower]
      exact_mod_cast ha
    · rw [hpower, Int.cast_natCast, Nat.abs_cast]
      exact_mod_cast hn

/-- Means of equal sums are equal where they are rounded once. -/
theorem Averages.equal (h : Averages precision n x v) (h' : Averages precision n x w)
    (hp : precision ≠ 0) (hfew : FewDigits precision n x) : v.equal w = true := by
  obtain ⟨d, rfl, hd⟩ := h.nearest hp hfew
  obtain ⟨d', rfl, hd'⟩ := h'.nearest hp hfew
  have hvalue : (Number.decimal d).value? = some d'.value := congrArg some (hd.unique hd')
  exact Datum.equal_of_rational? (by rfl) (hvalue.trans rfl)

/-- **Means** are quotients of the sum by the number of items. -/
theorem averages_meanOf (hexact : ∀ v ∈ vs, v.Exact) (hne : vs ≠ [])
    (hnumbers : ∀ v ∈ vs, v.rational?.isSome) (hp : precision ≠ 0) :
    Averages precision vs.length (vs.map quantity).sum (meanOf vs precision) := by
  have hsum := rational?_reduce_add hne hnumbers
  rw [Datum.filterMap_rational? hnumbers] at hsum
  obtain ⟨m, hm, hvalue⟩ := Datum.rational?_eq_some.mp hsum
  have hlength : ((vs.length : ℤ) : ℚ) ≠ 0 :=
    Int.cast_ne_zero.mpr (Int.natCast_ne_zero.mpr (mt List.length_eq_zero_iff.mp hne))
  obtain ⟨d, z, hd, hz, hnearest⟩ :=
    Number.divide?_developed hvalue (Number.value_ofInt vs.length) hlength hp
  refine ⟨d, z, ?_, by rwa [Int.cast_natCast] at hz, hnearest⟩
  rw [meanOf, total_eq_reduce hexact hnumbers, hm]
  dsimp only [Datum.count, Datum.arith]
  rw [if_pos rfl, hd]
  rfl

/-- No mean of items that are not all numbers. -/
theorem meanOf_eq_null (hexact : ∀ v ∈ vs, v.Exact)
    (h : ¬ (vs ≠ [] ∧ ∀ v ∈ vs, v.rational?.isSome)) : meanOf vs precision = .null := by
  have htotal : total .add vs = .null := by
    rw [total]
    split
    · next hall =>
      rw [all_isSome_iff hexact] at hall
      rw [not_not.mp fun hne => h ⟨hne, hall⟩]
      rfl
    · rfl
  rw [meanOf, htotal]

/-- A mean of the items is rounded once. -/
def MeanFits (precision : ℕ) (vs : List Value) : Prop :=
  vs ≠ [] → (∀ v ∈ vs, v.rational?.isSome) → FewDigits precision vs.length (vs.map quantity).sum

theorem meanOf_congr (hexact : ∀ v ∈ vs, v.Exact) (hexact' : ∀ v ∈ ws, v.Exact)
    (hnumbers : (∀ v ∈ vs, v.rational?.isSome) ↔ ∀ v ∈ ws, v.rational?.isSome)
    (hlength : vs.length = ws.length) (hsum : (vs.map quantity).sum = (ws.map quantity).sum)
    (hp : precision ≠ 0) (hfits : MeanFits precision vs) :
    (meanOf vs precision).equal (meanOf ws precision) = true := by
  have hiff : vs ≠ [] ∧ (∀ v ∈ vs, v.rational?.isSome) ↔
      ws ≠ [] ∧ ∀ v ∈ ws, v.rational?.isSome := by
    rw [hnumbers, ne_eq, ne_eq, ← List.length_eq_zero_iff, hlength, List.length_eq_zero_iff]
  by_cases hfull : vs ≠ [] ∧ ∀ v ∈ vs, v.rational?.isSome
  · have h := averages_meanOf hexact hfull.1 hfull.2 hp
    have h' := averages_meanOf hexact' (hiff.mp hfull).1 (hiff.mp hfull).2 hp
    rw [← hlength, ← hsum] at h'
    exact h.equal h' hp (hfits hfull.1 hfull.2)
  · rw [meanOf_eq_null hexact hfull, meanOf_eq_null hexact' (mt hiff.mpr hfull)]
    exact Datum.Ordinary.null.equal_refl

/-! ### Medians -/

/-- The two items in the middle of a list. -/
def middle (vs : List Value) : List Value := (vs.drop (vs.length / 2 - 1)).take 2

theorem medianOf_spec (hexact : ∀ v ∈ vs, v.Exact) (hne : vs ≠ [])
    (hnumbers : ∀ v ∈ vs, v.rational?.isSome) (precision : ℕ) :
    ∃ sorted, StableSort Less vs sorted ∧ medianOf vs precision =
      if vs.length % 2 = 1 then sorted.getD (vs.length / 2) .null
      else meanOf (middle sorted) precision := by
  obtain ⟨sorted, hsorted, hstable⟩ := sortedNumbers?_stable hexact hne hnumbers
  refine ⟨sorted, hstable, ?_⟩
  rw [medianOf, hsorted, ← hstable.perm.length_eq]
  rfl

theorem medianOf_eq_null (hexact : ∀ v ∈ vs, v.Exact)
    (h : ¬ (vs ≠ [] ∧ ∀ v ∈ vs, v.rational?.isSome)) : medianOf vs precision = .null := by
  rw [medianOf, sortedNumbers?_eq_none hexact h]

theorem map_middle (vs : List Value) :
    (middle vs).map quantity =
      ((vs.map quantity).drop ((vs.map quantity).length / 2 - 1)).take 2 := by
  rw [middle, List.map_take, List.map_drop, List.length_map]

theorem length_middle (heven : vs.length % 2 = 0) (hne : vs ≠ []) : (middle vs).length = 2 := by
  have hpos := List.length_pos_iff.mpr hne
  rw [middle, List.length_take, List.length_drop]
  omega

theorem middle_subset (vs : List Value) : middle vs ⊆ vs :=
  List.Subset.trans (List.take_subset _ _) (List.drop_subset _ _)

/-- Medians do not see the order, unless they are means that are not rounded once. -/
theorem medianOf_perm (hexact : ∀ v ∈ vs, v.Exact) (h : vs.Perm ws) (hp : precision ≠ 0)
    (hfits : vs.length % 2 = 0 → ∀ sorted, StableSort Less vs sorted →
      MeanFits precision (middle sorted)) :
    (medianOf vs precision).equal (medianOf ws precision) = true := by
  have hexact' : ∀ v ∈ ws, v.Exact := fun v hv => hexact v (h.mem_iff.mpr hv)
  have hiff : vs ≠ [] ∧ (∀ v ∈ vs, v.rational?.isSome) ↔
      ws ≠ [] ∧ ∀ v ∈ ws, v.rational?.isSome := by
    simp only [ne_eq, ← List.length_eq_zero_iff, h.length_eq, h.mem_iff]
  by_cases hfull : vs ≠ [] ∧ ∀ v ∈ vs, v.rational?.isSome
  · have hfull' := hiff.mp hfull
    obtain ⟨sorted, hs, hmedian⟩ := medianOf_spec hexact hfull.1 hfull.2 precision
    obtain ⟨sorted', hs', hmedian'⟩ := medianOf_spec hexact' hfull'.1 hfull'.2 precision
    have hnumbers : ∀ v ∈ sorted, v.rational?.isSome :=
      fun v hv => hfull.2 v (hs.perm.subset hv)
    have hnumbers' : ∀ v ∈ sorted', v.rational?.isSome :=
      fun v hv => hfull'.2 v (hs'.perm.subset hv)
    have hquantities := quantities_eq hfull.2 h hs hs'
    rw [hmedian, hmedian', ← h.length_eq]
    split
    · next hodd =>
      have hlt : vs.length / 2 < sorted.length := by
        rw [hs.perm.length_eq]
        omega
      have hlt' : vs.length / 2 < sorted'.length := by
        rw [hs'.perm.length_eq, ← h.length_eq]
        omega
      rw [List.getD_eq_getElem _ _ hlt, List.getD_eq_getElem _ _ hlt',
        Datum.equal_iff_quantity (hnumbers _ (List.getElem_mem hlt))
          (hnumbers' _ (List.getElem_mem hlt')), ← List.getElem_map quantity,
        ← List.getElem_map quantity]
      · simp only [hquantities]
      · simpa using hlt'
      · simpa using hlt
    · next hodd =>
      have heven : vs.length % 2 = 0 := by omega
      have hmiddle : (middle sorted).map quantity = (middle sorted').map quantity := by
        rw [map_middle, map_middle, hquantities]
      have hmem := middle_subset sorted
      have hmem' := middle_subset sorted'
      refine meanOf_congr (fun v hv => hexact v (hs.perm.subset (hmem hv)))
        (fun v hv => hexact' v (hs'.perm.subset (hmem' hv)))
        (iff_of_true (fun v hv => hnumbers v (hmem hv)) fun v hv => hnumbers' v (hmem' hv))
        ?_ (congrArg List.sum hmiddle) hp (hfits heven sorted hs)
      simpa using congrArg List.length hmiddle
  · rw [medianOf_eq_null hexact hfull, medianOf_eq_null hexact' (mt hiff.mpr hfull)]
    exact Datum.Ordinary.null.equal_refl

/-! ### The functions -/

/-- How often a number occurs, counting equal values. -/
theorem countP_equal (hnumbers : ∀ v ∈ vs, v.rational?.isSome) (hw : w ∈ vs) :
    vs.countP (w.equal ·) = (vs.map quantity).count (quantity w) := by
  rw [List.count, List.countP_map]
  refine List.countP_congr fun v hv => ?_
  rw [Datum.equal_iff_quantity (hnumbers w hw) (hnumbers v hv), Function.comp_apply, beq_iff_eq,
    eq_comm]

/-- An item is one of the most frequent numbers if no item occurs more often. -/
theorem mostFrequent_iff (hnumbers : ∀ v ∈ vs, v.rational?.isSome) (hv : v ∈ vs) :
    MostFrequent (vs.map quantity) (quantity v) ↔
      ∀ w ∈ vs, vs.countP (w.equal ·) ≤ vs.countP (v.equal ·) := by
  rw [MostFrequent, countP_equal hnumbers hv]
  constructor
  · rintro ⟨-, hmost⟩ w hw
    rw [countP_equal hnumbers hw]
    exact hmost _
  · refine fun hmost => ⟨List.mem_map_of_mem hv, fun y => ?_⟩
    by_cases hy : y ∈ vs.map quantity
    · obtain ⟨w, hw, rfl⟩ := List.mem_map.mp hy
      rw [← countP_equal hnumbers hw]
      exact hmost w hw
    · rw [List.count_eq_zero.mpr hy]
      exact Nat.zero_le _

/-- What the functions over lists give for numbers. -/
structure Describes (vs : List Value) (precision : ℕ) (answer : Builtin → Value) : Prop where
  sum : (answer .sum).rational? = some (vs.map quantity).sum
  product : (answer .product).rational? = some (vs.map quantity).prod
  mean : Averages precision vs.length (vs.map quantity).sum (answer .mean)
  median : ∃ sorted, StableSort Less vs sorted ∧
    (vs.length % 2 = 1 → answer .median = sorted.getD (vs.length / 2) .null) ∧
    (vs.length % 2 = 0 → Averages precision 2 ((middle sorted).map quantity).sum (answer .median))
  mode : ∃ ms, answer .mode = .list ms ∧ ms.Pairwise Less ∧ (∀ m ∈ ms, m ∈ vs) ∧
    ∀ v ∈ vs, (∃ m ∈ ms, m.equal v = true) ↔
      ∀ w ∈ vs, vs.countP (w.equal ·) ≤ vs.countP (v.equal ·)

theorem describes {args : List Value} (hexact : ∀ v ∈ Args.items args, v.Exact)
    (hne : Args.items args ≠ []) (hnumbers : ∀ v ∈ Args.items args, v.rational?.isSome)
    (hp : precision ≠ 0) : Describes (Args.items args) precision (·.value args precision) where
  sum := by
    show (total .add (Args.items args)).rational? = _
    rw [total_eq_reduce hexact hnumbers, rational?_reduce_add hne hnumbers,
      Datum.filterMap_rational? hnumbers]
  product := by
    show (total .mul (Args.items args)).rational? = _
    rw [total_eq_reduce hexact hnumbers, rational?_reduce_mul hne hnumbers,
      Datum.filterMap_rational? hnumbers]
  mean := averages_meanOf hexact hne hnumbers hp
  median := by
    obtain ⟨sorted, hs, hmedian⟩ := medianOf_spec hexact hne hnumbers precision
    have hmem : middle sorted ⊆ Args.items args :=
      List.Subset.trans (middle_subset sorted) hs.perm.subset
    have hvalue : median.value args precision = medianOf (Args.items args) precision := rfl
    refine ⟨sorted, hs, fun hodd => ?_, fun heven => ?_⟩
    · rw [hvalue, hmedian, if_pos hodd]
    · have hlength : (middle sorted).length = 2 := by
        refine length_middle (hs.perm.length_eq ▸ heven) fun hnil => hne ?_
        exact List.nil_perm.mp (hnil ▸ hs.perm)
      have hmean := averages_meanOf (fun v hv => hexact v (hmem hv))
        (List.ne_nil_of_length_pos (by omega)) (fun v hv => hnumbers v (hmem hv)) hp
      rw [hlength] at hmean
      rw [hvalue, hmedian, if_neg (by omega)]
      exact hmean
  mode := by
    obtain ⟨ms, hms, hasc, hmem, hmost⟩ := modes_spec hexact hne hnumbers
    refine ⟨ms, hms, ?_, hmem, fun v hv => ?_⟩
    · refine (List.pairwise_map.mp hasc).imp_of_mem fun {m m'} hm hm' hlt => ?_
      exact (Datum.less_iff_quantity (hnumbers m (hmem m hm)) (hnumbers m' (hmem m' hm'))).mpr hlt
    · have hequal : (∃ m ∈ ms, m.equal v = true) ↔ quantity v ∈ ms.map quantity := by
        rw [List.mem_map]
        exact exists_congr fun m => and_congr_right fun hm =>
          Datum.equal_iff_quantity (hnumbers m (hmem m hm)) (hnumbers v hv)
      rw [hequal, hmost, mostFrequent_iff hnumbers hv]

/-- **Functions over lists and the order of the items**, for ordinary values. Sums, products,
extremes, modes, conjunctions and disjunctions do not depend on the order. Neither do means and
medians, unless a mean is rounded more than once. Of numbers, sums and products are exact, a mean is
the quotient as it is developed and rounded, a median is the middle one of the numbers in ascending
order or the mean of the two in the middle, and modes are the most frequent numbers in ascending
order. -/
theorem statistics_perm {args args' : List Value} (hitems : ∀ v ∈ Args.items args, v.Ordinary)
    (h : (Args.items args).Perm (Args.items args')) (hp : precision ≠ 0) :
    (∀ f ∈ [sum, product, min, max, mode, all, any],
      (f.value args precision).equal (f.value args' precision) = true) ∧
    (MeanFits precision (Args.items args) →
      (mean.value args precision).equal (mean.value args' precision) = true) ∧
    (((Args.items args).length % 2 = 0 → ∀ sorted, StableSort Less (Args.items args) sorted →
        MeanFits precision (middle sorted)) →
      (median.value args precision).equal (median.value args' precision) = true) ∧
    (Args.items args ≠ [] → (∀ v ∈ Args.items args, v.rational?.isSome) →
      Describes (Args.items args) precision (·.value args precision)) := by
  have hexact : ∀ v ∈ Args.items args, v.Exact := fun v hv => (hitems v hv).isExact
  have hexact' : ∀ v ∈ Args.items args', v.Exact := fun v hv => hexact v (h.mem_iff.mpr hv)
  refine ⟨?_, fun hfits => ?_, fun hfits => medianOf_perm hexact h hp hfits,
    fun hne hnumbers => describes hexact hne hnumbers hp⟩
  · simp only [List.forall_mem_cons, value]
    refine ⟨total_perm (.inl rfl) hitems h, total_perm (.inr rfl) hitems h,
      Decision.extreme_perm (by decide) hitems h, Decision.extreme_perm (by decide) hitems h,
      modes_perm hexact h, ?_, ?_, by simp⟩
    · rw [quantify_perm and_right_comm _ h]
      exact (quantify_fits .and (.boolean true) _).equal_self
    · rw [quantify_perm or_right_comm _ h]
      exact (quantify_fits .or (.boolean false) _).equal_self
  · exact meanOf_congr hexact hexact' (by simp only [h.mem_iff]) h.length_eq
      (h.map quantity).sum_eq hp hfits

/-- One in two representations and three, as a list and as items in another order. A sum that is
written with a zero of a hundred places is divided beyond the tie at 34 digits, and the same sum
with a place less up to it. -/
theorem statistics_perm_mixed :
    let one : Value := .number (.decimal ⟨10, 1⟩)
    let long : Value := .number (.decimal ⟨2 * 10 ^ 99 + 15 * 10 ^ 65 + 1, 99⟩)
    let zero : Value := .number (.decimal ⟨0, 100⟩)
    (∀ f ∈ [sum, product, min, max, mode, all, any, mean, median],
      (f.value [.list [.count 3, .count 1, one]] 34).equal
        (f.value [one, .count 1, .count 3] 34) = true) ∧
    (sum.value [long, .count 1, zero] 34).equal (sum.value [zero, .count 1, long] 34) = true ∧
    (mean.value [long, .count 1, zero] 34).equal
      (mean.value [zero, .count 1, long] 34) = false := by
  intro one long zero
  have hnumber {n : Number} (h : n.kind ≠ .double) : (Datum.number n : Value).Ordinary :=
    ⟨.number n, .number n, .number h⟩
  refine ⟨?_, ?_, ?_⟩
  · have hitems : ∀ v ∈ Args.items [.list [.count 3, .count 1, one]], v.Ordinary :=
      List.forall_mem_cons.mpr ⟨hnumber (by decide), List.forall_mem_cons.mpr
        ⟨hnumber (by decide), List.forall_mem_singleton.mpr (hnumber (by decide))⟩⟩
    have hperm : (Args.items [.list [.count 3, .count 1, one]]).Perm
        (Args.items [one, .count 1, .count 3]) := (List.reverse_perm _).symm
    have hp : 34 ≠ 0 := by decide
    obtain ⟨hfunctions, hmean, hmedian, -⟩ := statistics_perm hitems hperm hp
    have hsum : (([.count 3, .count 1, one] : List Value).map quantity).sum = 5 * 10 ^ (0 : ℤ) := by
      decide +kernel
    have hfits : MeanFits 34 [.count 3, .count 1, one] :=
      fun _ _ => .inr ⟨5, 0, by exact_mod_cast hsum, by decide, by decide⟩
    simp only [List.forall_mem_cons] at hfunctions ⊢
    obtain ⟨h₁, h₂, h₃, h₄, h₅, h₆, h₇, -⟩ := hfunctions
    exact ⟨h₁, h₂, h₃, h₄, h₅, h₆, h₇, hmean hfits, hmedian fun heven => absurd heven (by decide),
      by simp⟩
  · have hitems : ∀ v ∈ Args.items [long, .count 1, zero], v.Ordinary :=
      List.forall_mem_cons.mpr ⟨hnumber (by decide), List.forall_mem_cons.mpr
        ⟨hnumber (by decide), List.forall_mem_singleton.mpr (hnumber (by decide))⟩⟩
    have hperm : (Args.items [long, .count 1, zero]).Perm (Args.items [zero, .count 1, long]) :=
      (List.reverse_perm _).symm
    have hp : 34 ≠ 0 := by decide
    exact (statistics_perm hitems hperm hp).1 sum List.mem_cons_self
  · have hlong : (mean.value [long, .count 1, zero] 34).rational?.isSome := by decide +kernel
    have hshort : (mean.value [zero, .count 1, long] 34).rational?.isSome := by decide +kernel
    rw [Bool.eq_false_iff, ne_eq, Datum.equal_iff_quantity hlong hshort]
    decide +kernel

end Builtin

end Feel
