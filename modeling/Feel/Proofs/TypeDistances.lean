import Feel.Proofs.TypeJoins

/-!
# Distances between types

How far a type is from a target says how its values are used there. Each bound on the distance
is a relation of its own, given form by form: at most `equal` is equality up to the order of
fields and the names of parameters, at most `conforms` is being a subtype, and anything below
`incompatible` is that some conversion exists. The relation for subtypes is an order, and joins
and meets can be reached by conversion.

* `Ty.Reaches`: the distance is at most the `k`-th.
* `Ty.rank_compat_le_iff`: the relation says what the distance is.
* `Ty.Reaches.trans`, `Ty.Reaches.antisymm`: subtypes are ordered.
* `Ty.reaches_join`, `Ty.Mutual.met`: joins and meets are reached.
* `Ty.conformsTo_order`, `Ty.convertsTo_bounds`: the same said by the functions on types.
-/

namespace Feel

namespace Compat

/-- The greater of two distances is within a bound when both are. -/
theorem rank_max_le {a b : Compat} {k : Nat} : (a.max b).rank ≤ k ↔ a.rank ≤ k ∧ b.rank ≤ k := by
  unfold max
  split <;> omega

theorem rank_eq_zero {a : Compat} : a.rank ≤ 0 ↔ a = equal := by
  cases a <;> simp [rank]

theorem isConforming_iff {a : Compat} : a.isConforming = true ↔ a.rank ≤ 1 := by
  cases a <;> simp [isConforming, rank]

theorem isConvertible_iff {a : Compat} : a.isConvertible = true ↔ a.rank ≤ 4 := by
  cases a <;> simp [isConvertible, rank]

end Compat

namespace NumberKind

variable {i j l : NumberKind} {k : Nat}

theorem rank_compat_le_zero : (i.compat j).rank ≤ 0 ↔ i = j := by
  cases i <;> cases j <;> decide

/-- Kinds widen, but to decimals they are converted. -/
theorem rank_compat_le_one : (i.compat j).rank ≤ 1 ↔ i = j ∨ i.width < j.width ∧ j ≠ decimal := by
  cases i <;> cases j <;> decide

theorem rank_compat_le_four : (i.compat j).rank ≤ 4 := by
  cases i <;> cases j <;> decide

theorem rank_compat_trans (hk : k ≤ 1) (h : (i.compat j).rank ≤ k) (h' : (j.compat l).rank ≤ k) :
    (i.compat l).rank ≤ k := by
  obtain rfl | rfl : k = 0 ∨ k = 1 := by omega
  · rw [rank_compat_le_zero] at *
    exact h.trans h'
  · rw [rank_compat_le_one] at *
    rcases h with rfl | h
    · exact h'
    rcases h' with rfl | h'
    · exact .inr h
    · exact .inr ⟨Nat.lt_trans h.1 h'.1, h'.2⟩

theorem eq_of_rank_compat_le_one (h : (i.compat j).rank ≤ 1) (h' : (j.compat i).rank ≤ 1) :
    i = j := by
  rw [rank_compat_le_one] at h h'
  rcases h with rfl | h
  · rfl
  rcases h' with rfl | h'
  · rfl
  · exact absurd (Nat.lt_trans h.1 h'.1) (Nat.lt_irrefl _)

end NumberKind

namespace Ty

/-! ### Bounds on the distance -/

/-- The distance from a type to another is at most the `k`-th, counted from `equal`. -/
inductive Reaches : Nat → Ty → Ty → Prop
  | any {k : Nat} (h : 1 ≤ k) (t : Ty) : Reaches k t any
  | null {k : Nat} (h : 1 ≤ k) (t : Ty) : Reaches k null t
  /-- Of values of any type only a run can tell. -/
  | runtime {k : Nat} (h : 4 ≤ k) (t : Ty) : Reaches k any t
  | anySelf (k : Nat) : Reaches k any any
  | nullSelf (k : Nat) : Reaches k null null
  | number {k : Nat} {i j : NumberKind} (h : (i.compat j).rank ≤ k) :
      Reaches k (number i) (number j)
  | string (k : Nat) : Reaches k string string
  | boolean (k : Nat) : Reaches k boolean boolean
  | date (k : Nat) : Reaches k date date
  | time (k : Nat) : Reaches k time time
  | dateTime (k : Nat) : Reaches k dateTime dateTime
  | dayTimeDuration (k : Nat) : Reaches k dayTimeDuration dayTimeDuration
  | yearMonthDuration (k : Nat) : Reaches k yearMonthDuration yearMonthDuration
  | dateOfDateTime {k : Nat} (h : 2 ≤ k) : Reaches k dateTime date
  | timeOfDateTime {k : Nat} (h : 2 ≤ k) : Reaches k dateTime time
  | dateTimeOfDate {k : Nat} (h : 3 ≤ k) : Reaches k date dateTime
  /-- A list of subtypes is converted, and is no subtype itself. -/
  | list {k : Nat} {a b : Ty} (h : Reaches (if k = 1 then 0 else k) a b) :
      Reaches k (list a) (list b)
  /-- Each field of the target is one of the source; equal contexts have no other fields. -/
  | context {k : Nat} {a b : List (String × Ty)} (hsize : k = 0 → a.length ≤ b.length)
      (hfields : ∀ field ∈ b, (a.lookup field.1).isSome)
      (h : ∀ field ∈ b, ∀ t, a.lookup field.1 = some t → Reaches k t field.2) :
      Reaches k (context a) (context b)
  /-- A flag of the target asks for the same flag; equal ranges have the same flags. -/
  | range {k : Nat} {a b : Ty} {sa ea sb eb : Option Bool} (hs : sb = none ∨ sa = sb)
      (he : eb = none ∨ ea = eb) (hflags : k = 0 → sa = sb ∧ ea = eb) (h : Reaches k a b) :
      Reaches k (range a sa ea) (range b sb eb)
  | function {k : Nat} {ps qs : List Ty} {ns ms : Option (List String)} {r q : Ty}
      (hlength : ps.length = qs.length)
      (h : ∀ (i : Nat) (p q : Ty), ps[i]? = some p → qs[i]? = some q → Reaches k p q)
      (hresult : Reaches k r q) : Reaches k (function ps ns r) (function qs ms q)

/-! ### The distance of a type to itself -/

theorem compatFields_of_forall {a b : List (String × Ty)}
    (h : ∀ field ∈ b, a.lookup field.1 = some field.2 ∧ field.2.compat field.2 = .equal) :
    compatFields b a .equal = .equal := by
  induction b with
  | nil => rfl
  | cons field fields ih =>
    obtain ⟨name, t⟩ := field
    rw [List.forall_mem_cons] at h
    obtain ⟨⟨hlookup, hself⟩, hrest⟩ := h
    have hself : compatTo t t = .equal := hself
    rw [compatFields, hlookup]
    simp only [hself]
    exact ih hrest

/-- A type is equal to itself. -/
theorem compat_self {t : Ty} (h : t.Distinct) : t.compat t = .equal := by
  induction h with
  | @context fields names _ ih =>
    have hfields := compatFields_of_forall (a := fields) (b := fields) fun field hfield =>
      ⟨(Entries.lookup_eq_some_iff_mem names).mpr hfield, ih field hfield⟩
    simp only [compat, compatTo, hfields, Nat.lt_irrefl, if_false]
  | number kind => simp [compat, compatTo, NumberKind.compat]
  | _ => simp [compat, compatTo]

/-! ### The distance by its bounds -/

variable {s t u : Ty} {k : Nat}

theorem rank_compat_list (ha : s.Distinct) (b : Ty) :
    ((list s).compat (list b)).rank ≤ k ↔ (s.compat b).rank ≤ if k = 1 then 0 else k := by
  by_cases h : s = b
  · subst h
    rw [compat_self ha, compat_self (.list ha)]
    exact iff_of_true (Nat.zero_le _) (Nat.zero_le _)
  · simp only [compat, compatTo, if_neg h]
    cases compatTo b s <;> simp only [Compat.rank] <;> split <;> omega

theorem rank_compatFields_le (hk : k < 5) (a b : List (String × Ty)) (rank : Compat) :
    (compatFields b a rank).rank ≤ k ↔ rank.rank ≤ k ∧
      ∀ field ∈ b, ∃ t, a.lookup field.1 = some t ∧ (t.compat field.2).rank ≤ k := by
  induction b generalizing rank with
  | nil => simp [compatFields]
  | cons field fields ih =>
    obtain ⟨name, expected⟩ := field
    rw [compatFields, List.forall_mem_cons]
    cases hlookup : a.lookup name with
    | none =>
      have hfive : ¬ Compat.incompatible.rank ≤ k := by
        simp only [Compat.rank]
        omega
      simp [hfive]
    | some actual =>
      dsimp only
      rw [ih, Compat.rank_max_le, and_assoc]
      simp [compat]

theorem rank_compat_context (hk : k < 5) (a b : List (String × Ty)) :
    ((context a).compat (context b)).rank ≤ k ↔ (k = 0 → a.length ≤ b.length) ∧
      ∀ field ∈ b, ∃ t, a.lookup field.1 = some t ∧ (t.compat field.2).rank ≤ k := by
  have hfields := rank_compatFields_le hk a b .equal
  have hzero : Compat.equal.rank ≤ k := Nat.zero_le k
  rw [← and_iff_right hzero (b := ∀ field ∈ b, _), ← hfields]
  simp only [compat, compatTo]
  cases compatFields b a .equal <;> dsimp only
  · split <;> simp only [Compat.rank] <;> omega
  all_goals simp only [Compat.rank]; omega

theorem rank_compat_range (ha : s.Distinct) (hk : k < 5) (b : Ty) (sa ea sb eb : Option Bool) :
    ((range s sa ea).compat (range b sb eb)).rank ≤ k ↔ (sb = none ∨ sa = sb) ∧
      (eb = none ∨ ea = eb) ∧ (k = 0 → sa = sb ∧ ea = eb) ∧ (s.compat b).rank ≤ k := by
  by_cases heq : s = b ∧ sa = sb ∧ ea = eb
  · obtain ⟨rfl, rfl, rfl⟩ := heq
    rw [compat_self ha, compat_self (.range ha)]
    simp [Compat.rank]
  · simp only [compat, compatTo, if_neg heq]
    by_cases hflags : (sb.isSome && sa != sb || eb.isSome && ea != eb) = true
    · rw [if_pos hflags]
      have hfive : ¬ Compat.incompatible.rank ≤ k := by
        simp only [Compat.rank]
        omega
      refine iff_of_false hfive fun h => ?_
      rw [Bool.or_eq_true, Bool.and_eq_true, Bool.and_eq_true, bne_iff_ne, bne_iff_ne] at hflags
      obtain ⟨hs, he, -⟩ := h
      rcases hflags with ⟨hsome, hne⟩ | ⟨hsome, hne⟩
      · rcases hs with rfl | hs
        · exact Bool.false_ne_true hsome
        · exact hne hs
      · rcases he with rfl | he
        · exact Bool.false_ne_true hsome
        · exact hne he
    · rw [if_neg hflags]
      have hsome : (sb = none ∨ sa = sb) ∧ (eb = none ∨ ea = eb) := by
        cases sb <;> cases eb <;> simp_all
      rw [and_iff_right hsome.1, and_iff_right hsome.2]
      cases compatTo b s <;> dsimp only
      · by_cases hsame : sa = sb ∧ ea = eb
        · simp [hsame, Compat.rank]
        · have hne : (sa != sb || ea != eb) = true := by
            simp only [bne, Bool.or_eq_true, Bool.not_eq_true', beq_eq_false_iff_ne]
            exact not_and_or.mp hsame
          rw [if_pos hne]
          simp only [Compat.rank]
          constructor
          · intro h
            exact ⟨fun h0 => by omega, Nat.zero_le k⟩
          · intro h
            by_contra hlt
            exact hsame (h.1 (by omega))
      all_goals
        simp only [Compat.rank]
        constructor
        · intro h
          exact ⟨fun h0 => by omega, h⟩
        · exact fun h => h.2

theorem rank_compatParams_le {ps qs : List Ty} (h : ps.length = qs.length) (rank : Compat) :
    (compatParams qs ps rank).rank ≤ k ↔ rank.rank ≤ k ∧
      ∀ (i : Nat) (p q : Ty), ps[i]? = some p → qs[i]? = some q → (p.compat q).rank ≤ k := by
  induction ps generalizing qs rank with
  | nil =>
    cases qs with
    | nil => simp [compatParams]
    | cons q qs => simp at h
  | cons p ps ih =>
    cases qs with
    | nil => simp at h
    | cons q qs =>
      rw [compatParams, ih (Nat.succ.inj h), Compat.rank_max_le, and_assoc]
      refine and_congr_right fun _ => ⟨fun h i => ?_, fun h => ?_⟩
      · cases i with
        | zero =>
          rintro _ _ ⟨⟩ ⟨⟩
          exact h.1
        | succ i => exact h.2 i
      · exact ⟨h 0 p q rfl rfl, fun i => h (i + 1)⟩

theorem rank_compat_function {ps qs : List Ty} {ns ms : Option (List String)}
    (hps : ∀ p ∈ ps, p.Distinct) (hs : s.Distinct) (hk : k < 5) (t : Ty) :
    ((function ps ns s).compat (function qs ms t)).rank ≤ k ↔ ps.length = qs.length ∧
      (∀ (i : Nat) (p q : Ty), ps[i]? = some p → qs[i]? = some q → (p.compat q).rank ≤ k) ∧
      (s.compat t).rank ≤ k := by
  by_cases heq : function ps ns s = function qs ms t
  · cases heq
    rw [compat_self hs, compat_self (.function hps hs)]
    have hself : ∀ (i : Nat) (p q : Ty), ps[i]? = some p → ps[i]? = some q →
        (p.compat q).rank ≤ k := by
      intro i p q hp hq
      cases hp.symm.trans hq
      rw [compat_self (hps p (List.mem_of_getElem? hp))]
      exact Nat.zero_le k
    exact ⟨fun _ => ⟨rfl, hself, Nat.zero_le k⟩, fun _ => Nat.zero_le k⟩
  · simp only [compat, compatTo, if_neg heq]
    by_cases hlength : ps.length = qs.length
    · have hlength' : (ps.length != qs.length) = false := by simpa using hlength
      rw [hlength', if_neg Bool.false_ne_true, rank_compatParams_le hlength]
      simp only [hlength, true_and]
      exact and_comm
    · have hlength' : (ps.length != qs.length) = true := by simpa using hlength
      rw [hlength', if_pos rfl]
      simp only [Compat.rank, hlength, false_and, iff_false]
      omega

theorem compat_of_family_ne (hs : s ≠ any) (hs' : s ≠ null) (ht : t ≠ any)
    (h : s.family ≠ t.family) : s.compat t = .incompatible := by
  cases t with
  | any => exact absurd rfl ht
  | _ =>
    cases s with
    | any => exact absurd rfl hs
    | null => exact absurd rfl hs'
    | _ => first | exact absurd rfl h | rfl

theorem Reaches.eq_of_family_ne (h : Reaches k s t) (hfamily : s.family ≠ t.family) :
    1 ≤ k ∧ t = Ty.any ∨ 1 ≤ k ∧ s = Ty.null ∨ 4 ≤ k ∧ s = Ty.any := by
  cases h <;> simp_all [family]

/-- The relation says what the distance is if it does so within a family. -/
theorem rank_compat_le_iff_of_family (hk : k < 5)
    (h : s.family = t.family → ((s.compat t).rank ≤ k ↔ Reaches k s t)) :
    (s.compat t).rank ≤ k ↔ Reaches k s t := by
  by_cases hst : s.family = t.family
  · exact h hst
  by_cases ht : t = Ty.any
  · subst ht
    have hs : s ≠ Ty.any := fun e => hst (congrArg family e)
    have hrank : (s.compat Ty.any).rank = 1 := by simp [compat, compatTo, hs, Compat.rank]
    rw [hrank]
    refine ⟨fun h => .any h s, fun h => ?_⟩
    rcases h.eq_of_family_ne hst with h | h | h <;> omega
  by_cases hs : s = Ty.null
  · subst hs
    have hrank : (Ty.null.compat t).rank = 1 := by
      cases t with
      | any => exact absurd rfl ht
      | null => exact absurd rfl hst
      | _ => rfl
    rw [hrank]
    refine ⟨fun h => .null h t, fun h => ?_⟩
    rcases h.eq_of_family_ne hst with h | h | h <;> omega
  by_cases hs' : s = Ty.any
  · subst hs'
    have hrank : (Ty.any.compat t).rank = 4 := by
      cases t with
      | any => exact absurd rfl ht
      | _ => rfl
    rw [hrank]
    refine ⟨fun h => .runtime h t, fun h => ?_⟩
    rcases h.eq_of_family_ne hst with h | h | h
    · exact absurd h.2 ht
    · exact absurd h.2 hs
    · exact h.1
  · rw [compat_of_family_ne hs' hs ht hst]
    refine iff_of_false (by simp only [Compat.rank]; omega) fun h => ?_
    rcases h.eq_of_family_ne hst with h | h | h
    · exact ht h.2
    · exact hs h.2
    · exact hs' h.2

/-- The bound of the distance between contexts, by those between their common fields. -/
theorem rank_compat_context_iff (hk : k < 5) {a b : List (String × Ty)}
    (ih : ∀ field ∈ b, ∀ t, a.lookup field.1 = some t →
      ((t.compat field.2).rank ≤ k ↔ Reaches k t field.2)) :
    ((context a).compat (context b)).rank ≤ k ↔ Reaches k (context a) (context b) := by
  rw [rank_compat_context hk]
  constructor
  · rintro ⟨hsize, h⟩
    refine .context hsize (fun field hfield => ?_) fun field hfield t ht => ?_
    · obtain ⟨t, ht, -⟩ := h field hfield
      exact Option.isSome_iff_exists.mpr ⟨t, ht⟩
    · obtain ⟨t', ht', hrank⟩ := h field hfield
      cases ht.symm.trans ht'
      exact (ih field hfield t ht).mp hrank
  · intro h
    cases h with
    | context hsize hfields h =>
      refine ⟨hsize, fun field hfield => ?_⟩
      obtain ⟨t, ht⟩ := Option.isSome_iff_exists.mp (hfields field hfield)
      exact ⟨t, ht, (ih field hfield t ht).mpr (h field hfield t ht)⟩

/-- The bound of the distance between functions, by those between parameters and results. -/
theorem rank_compat_function_iff {ps qs : List Ty} {ns ms : Option (List String)}
    (hps : ∀ p ∈ ps, p.Distinct) (hs : s.Distinct) (hk : k < 5)
    (ih : ∀ (i : Nat) (p q : Ty), ps[i]? = some p → qs[i]? = some q →
      ((p.compat q).rank ≤ k ↔ Reaches k p q))
    (ihresult : (s.compat t).rank ≤ k ↔ Reaches k s t) :
    ((function ps ns s).compat (function qs ms t)).rank ≤ k ↔
      Reaches k (function ps ns s) (function qs ms t) := by
  rw [rank_compat_function hps hs hk, ihresult]
  constructor
  · rintro ⟨hlength, h, hresult⟩
    exact .function hlength (fun i p q hp hq => (ih i p q hp hq).mp (h i p q hp hq)) hresult
  · intro h
    cases h with
    | function hlength h hresult =>
      exact ⟨hlength, fun i p q hp hq => (ih i p q hp hq).mpr (h i p q hp hq), hresult⟩

/-- **What the distance is**: the relation holds of the types whose distance is within it. -/
theorem rank_compat_le_iff (hs : s.Distinct) (ht : t.Distinct) (hk : k < 5) :
    (s.compat t).rank ≤ k ↔ Reaches k s t := by
  induction ht generalizing s k with
  | @list b _ ih =>
    refine rank_compat_le_iff_of_family hk fun hfamily => ?_
    cases hs with
    | list ha =>
      rw [rank_compat_list ha, ih ha (by split <;> omega)]
      refine ⟨.list, fun h => ?_⟩
      cases h with
      | list h => exact h
    | _ => simp [family] at hfamily
  | @context b hnb hb ih =>
    refine rank_compat_le_iff_of_family hk fun hfamily => ?_
    cases hs with
    | @context a hna ha =>
      exact rank_compat_context_iff hk fun field hfield t ht =>
        ih field hfield (ha _ (mem_of_lookup ht)) hk
    | _ => simp [family] at hfamily
  | @range b sb eb _ ih =>
    refine rank_compat_le_iff_of_family hk fun hfamily => ?_
    cases hs with
    | range ha =>
      rw [rank_compat_range ha hk, ih ha hk]
      constructor
      · rintro ⟨hs, he, hflags, h⟩
        exact .range hs he hflags h
      · intro h
        cases h with
        | range hs he hflags h => exact ⟨hs, he, hflags, h⟩
    | _ => simp [family] at hfamily
  | @function qs ms q hqs hq ihqs ihq =>
    refine rank_compat_le_iff_of_family hk fun hfamily => ?_
    cases hs with
    | @function ps ns r hps hr =>
      refine rank_compat_function_iff hps hr hk (fun i p q hp hq => ?_) (ihq hr hk)
      exact ihqs q (List.mem_of_getElem? hq) (hps p (List.mem_of_getElem? hp)) hk
    | _ => simp [family] at hfamily
  | number j =>
    refine rank_compat_le_iff_of_family hk fun hfamily => ?_
    cases hs with
    | number i =>
      refine ⟨.number, fun h => ?_⟩
      cases h with
      | number h => exact h
    | _ => simp [family] at hfamily
  | any =>
    refine rank_compat_le_iff_of_family hk fun hfamily => ?_
    cases hs <;> simp only [family, reduceCtorEq] at hfamily
    exact iff_of_true (Nat.zero_le k) (.anySelf k)
  | null =>
    refine rank_compat_le_iff_of_family hk fun hfamily => ?_
    cases hs <;> simp only [family, reduceCtorEq] at hfamily
    exact iff_of_true (Nat.zero_le k) (.nullSelf k)
  | _ =>
    refine rank_compat_le_iff_of_family hk fun hfamily => ?_
    cases hs <;> simp only [family, reduceCtorEq] at hfamily <;>
      first
        | exact iff_of_true (Nat.zero_le k) (by constructor)
        | exact ⟨fun h => by constructor; exact h, fun h => by cases h; assumption⟩
        | exact iff_of_false (Nat.not_le.mpr hk) (by rintro ⟨⟩)

/-! ### The order of subtypes -/

theorem Reaches.refl (h : t.Distinct) (hk : k < 5) : Reaches k t t := by
  rw [← rank_compat_le_iff h h hk, compat_self h]
  exact Nat.zero_le k

/-- Equal names lead to fields at the distance of the contexts. -/
theorem Reaches.field {a b : List (String × Ty)} {name : String}
    (h : Reaches k (Ty.context a) (Ty.context b)) (ha : a.lookup name = some s)
    (hb : b.lookup name = some t) : Reaches k s t := by
  cases h with
  | context _ _ h => exact h _ (mem_of_lookup hb) s ha

/-- A context has the fields of every context that it reaches. -/
theorem Reaches.isSome_lookup {a b : List (String × Ty)} {field : String × Ty}
    (h : Reaches k (Ty.context a) (Ty.context b)) (hfield : field ∈ b) :
    (a.lookup field.1).isSome := by
  cases h with
  | context _ hfields _ => exact hfields field hfield

/-- **Subtypes of subtypes**: types reached without conversion can be reached in one go. -/
theorem Reaches.trans (hk : k ≤ 1) (h : Reaches k s t) (h' : Reaches k t u) : Reaches k s u := by
  induction h generalizing u with
  | any h t =>
    cases h' with
    | any h' => exact .any h t
    | runtime h' => omega
    | anySelf => exact .any h t
  | null h t => exact .null h u
  | runtime h t => omega
  | number h =>
    cases h' with
    | any h => exact .any h _
    | number h' => exact .number (NumberKind.rank_compat_trans hk h h')
  | list h ih =>
    cases h' with
    | any h => exact .any h _
    | list h' => exact .list (ih (by split <;> omega) h')
  | @context k a b hsize hfields h ih =>
    cases h' with
    | any h => exact .any h _
    | @context _ _ c hsize' hfields' h' =>
      refine .context (fun h0 => Nat.le_trans (hsize h0) (hsize' h0)) (fun field hfield => ?_)
        fun field hfield t ht => ?_
      · obtain ⟨v, hv⟩ := Option.isSome_iff_exists.mp (hfields' field hfield)
        exact hfields (field.1, v) (mem_of_lookup hv)
      · obtain ⟨v, hv⟩ := Option.isSome_iff_exists.mp (hfields' field hfield)
        exact ih (field.1, v) (mem_of_lookup hv) t ht hk (h' field hfield v hv)
  | @range k a b sa ea sb eb hs he hflags h ih =>
    cases h' with
    | any h => exact .any h _
    | range hs' he' hflags' h' =>
      refine .range ?_ ?_ (fun h0 => ?_) (ih hk h')
      · rcases hs' with rfl | rfl
        · exact .inl rfl
        · exact hs
      · rcases he' with rfl | rfl
        · exact .inl rfl
        · exact he
      · exact ⟨(hflags h0).1.trans (hflags' h0).1, (hflags h0).2.trans (hflags' h0).2⟩
  | @function k ps qs ns ms r q hlength h hresult ihps ihr =>
    cases h' with
    | any h => exact .any h _
    | @function _ _ os _ ls _ o hlength' h' hresult' =>
      refine .function (hlength.trans hlength') (fun i p o hp ho => ?_) (ihr hk hresult')
      have hi : i < qs.length := hlength ▸ (List.getElem?_eq_some_iff.mp hp).1
      have hq : qs[i]? = some qs[i] := List.getElem?_eq_getElem hi
      exact ihps i p qs[i] hp hq hk (h' i qs[i] o hq ho)
  | dateOfDateTime h => omega
  | timeOfDateTime h => omega
  | dateTimeOfDate h => omega
  | _ => exact h'

theorem length_le_of_lookup {a b : List (String × Ty)} (h : (a.map (·.1)).Nodup)
    (hlookup : ∀ field ∈ a, (b.lookup field.1).isSome) : a.length ≤ b.length := by
  have hsubset : a.map (·.1) ⊆ b.map (·.1) := by
    intro name hname
    obtain ⟨field, hfield, rfl⟩ := List.mem_map.mp hname
    obtain ⟨t, ht⟩ := Option.isSome_iff_exists.mp (hlookup field hfield)
    exact List.mem_map.mpr ⟨_, mem_of_lookup ht, rfl⟩
  simpa using (List.subperm_of_subset h hsubset).length_le

/-- Types that reach each other are of one family, or one of them is any type. -/
theorem Reaches.family_eq (h : Reaches k s t) (h' : Reaches k t s) :
    s.family = t.family ∨ 4 ≤ k ∧ (s = Ty.any ∨ t = Ty.any) := by
  by_cases hfamily : s.family = t.family
  · exact .inl hfamily
  rcases h.eq_of_family_ne hfamily with ⟨-, rfl⟩ | ⟨-, rfl⟩ | ⟨hk, hs⟩
  · rcases h'.eq_of_family_ne (Ne.symm hfamily) with ⟨-, rfl⟩ | ⟨-, h⟩ | ⟨hk, -⟩
    · exact absurd rfl hfamily
    · cases h
    · exact .inr ⟨hk, .inr rfl⟩
  · rcases h'.eq_of_family_ne (Ne.symm hfamily) with ⟨-, h⟩ | ⟨-, rfl⟩ | ⟨hk, ht⟩
    · cases h
    · exact absurd rfl hfamily
    · exact .inr ⟨hk, .inr ht⟩
  · exact .inr ⟨hk, .inl hs⟩

/-- **Types that are subtypes of each other are equal.** -/
theorem Reaches.antisymm (hs : s.Distinct) (ht : t.Distinct) (h : Reaches 1 s t)
    (h' : Reaches 1 t s) : Reaches 0 s t := by
  have hfamily := (h.family_eq h').resolve_right (by omega)
  induction hs generalizing t with
  | list _ ih =>
    cases ht with
    | list hb =>
      cases h with
      | list h => exact .list h
    | _ => simp [family] at hfamily
  | @context a hna ha ih =>
    cases ht with
    | @context b hnb hb =>
      refine .context (fun _ => length_le_of_lookup hna fun field => h'.isSome_lookup)
        (fun field => h.isSome_lookup) fun field hfield t ht => ?_
      have hlookup := (Entries.lookup_eq_some_iff_mem hnb).mpr hfield
      have hfield' := h.field ht hlookup
      have hfield'' := h'.field hlookup ht
      exact ih (field.1, t) (mem_of_lookup ht) (hb field hfield) hfield' hfield''
        ((hfield'.family_eq hfield'').resolve_right (by omega))
    | _ => simp [family] at hfamily
  | range _ ih =>
    cases ht with
    | range hb =>
      cases h with
      | range hs he _ h =>
        cases h' with
        | range hs' he' _ h' =>
          refine .range hs he (fun _ => ⟨?_, ?_⟩)
            (ih hb h h' ((h.family_eq h').resolve_right (by omega)))
          · rcases hs with rfl | hs
            · exact hs'.elim id Eq.symm
            · exact hs
          · rcases he with rfl | he
            · exact he'.elim id Eq.symm
            · exact he
    | _ => simp [family] at hfamily
  | function _ _ ihps ihr =>
    cases ht with
    | function hqs hq =>
      cases h with
      | function hlength h hresult =>
        cases h' with
        | function _ h' hresult' =>
          refine .function hlength (fun i p q hp hq => ?_)
            (ihr hq hresult hresult' ((hresult.family_eq hresult').resolve_right (by omega)))
          have hp' := h i p q hp hq
          have hq' := h' i q p hq hp
          exact ihps p (List.mem_of_getElem? hp) (hqs q (List.mem_of_getElem? hq)) hp' hq'
            ((hp'.family_eq hq').resolve_right (by omega))
    | _ => simp [family] at hfamily
  | number i =>
    cases ht with
    | number j =>
      cases h with
      | number h =>
        cases h' with
        | number h' =>
          rw [NumberKind.eq_of_rank_compat_le_one h h']
          exact .number (NumberKind.rank_compat_le_zero.mpr rfl)
    | _ => simp [family] at hfamily
  | any =>
    cases ht <;> simp only [family, reduceCtorEq] at hfamily
    exact .anySelf 0
  | null =>
    cases ht <;> simp only [family, reduceCtorEq] at hfamily
    exact .nullSelf 0
  | _ =>
    cases ht <;> simp only [family, reduceCtorEq] at hfamily <;> cases h <;>
      first | exact absurd ‹_› (by decide : ¬ _ ≤ 1) | constructor

/-! ### Joins -/

/-- A join is reached if it is within a family. -/
theorem reaches_join_of_family (hs : s.Distinct)
    (h : s.family = t.family → Reaches 4 s (s.join t)) : Reaches 4 s (s.join t) := by
  by_cases hs' : s = Ty.null
  · rw [hs']
    exact .null (by omega) _
  by_cases ht' : t = Ty.null
  · rw [ht', join_null]
    exact Reaches.refl hs (by omega)
  by_cases hst : s.family = t.family
  · exact h hst
  · rw [join_of_family_ne hs' ht' hst]
    exact .any (by omega) s

theorem agreed_eq_none_or {α : Type} [DecidableEq α] (a b : Option α) :
    agreed a b = none ∨ a = agreed a b := by
  unfold agreed
  split
  · exact .inr rfl
  · exact .inl rfl

theorem reaches_context_join {a b : List (String × Ty)} (hna : (a.map (·.1)).Nodup)
    (ih : ∀ n t u, a.lookup n = some t → b.lookup n = some u → Reaches 4 t (t.join u)) :
    Reaches 4 (context a) ((context a).join (context b)) := by
  obtain ⟨c, hc, joined⟩ := exists_joined (b := b) hna
  rw [hc]
  have hfield : ∀ field ∈ c, ∃ t u, a.lookup field.1 = some t ∧ b.lookup field.1 = some u ∧
      t.join u = field.2 := by
    intro field hfield
    have hlookup := (Entries.lookup_eq_some_iff_mem joined.names).mpr hfield
    rw [joined.lookup] at hlookup
    exact commonField_eq_some hlookup
  refine .context (by omega) (fun field hmem => ?_) fun field hmem t ht => ?_
  · obtain ⟨t, u, ht, -⟩ := hfield field hmem
    exact Option.isSome_iff_exists.mpr ⟨t, ht⟩
  · obtain ⟨t', u, ht', hu, hjoin⟩ := hfield field hmem
    cases ht.symm.trans ht'
    rw [← hjoin]
    exact ih field.1 t u ht hu

/-- **Joins are reached by conversion.** -/
theorem reaches_join (hs : s.Distinct) (ht : t.Distinct) : Reaches 4 s (s.join t) := by
  induction hs generalizing t with
  | list ha ih =>
    refine reaches_join_of_family (.list ha) fun hfamily => ?_
    cases ht with
    | list hb =>
      rw [list_join_list]
      exact .list (ih hb)
    | _ => simp [family] at hfamily
  | @context a hna ha ih =>
    refine reaches_join_of_family (.context hna ha) fun hfamily => ?_
    cases ht with
    | @context b hnb hb =>
      exact reaches_context_join hna fun n t u ht hu =>
        ih (n, t) (mem_of_lookup ht) (hb (n, u) (mem_of_lookup hu))
    | _ => simp [family] at hfamily
  | range ha ih =>
    refine reaches_join_of_family (.range ha) fun hfamily => ?_
    cases ht with
    | range hb =>
      rw [range_join_range]
      exact .range (agreed_eq_none_or _ _) (agreed_eq_none_or _ _) (by omega) (ih hb)
    | _ => simp [family] at hfamily
  | @function ps ns r hps hr ihps ihr =>
    refine reaches_join_of_family (.function hps hr) fun hfamily => ?_
    cases ht with
    | @function qs ms q hqs hq =>
      by_cases hlength : ps.length = qs.length
      · rw [function_join_function hlength]
        refine .function (by simp [hlength]) (fun i p q hp hq => ?_) (ihr hq)
        obtain ⟨p', q', hp', hq', rfl⟩ := List.getElem?_zipWith_eq_some.mp hq
        cases hp.symm.trans hp'
        exact ihps p (List.mem_of_getElem? hp) (hqs q' (List.mem_of_getElem? hq'))
      · rw [function_join_function_of_ne hlength]
        exact .any (by omega) _
    | _ => simp [family] at hfamily
  | number i =>
    refine reaches_join_of_family (.number i) fun hfamily => ?_
    cases ht with
    | number j =>
      simp only [join]
      split <;> exact .number NumberKind.rank_compat_le_four
    | _ => simp [family] at hfamily
  | _ =>
    refine reaches_join_of_family (by constructor) fun hfamily => ?_
    cases t <;> simp only [family, reduceCtorEq] at hfamily <;> simp only [join] <;>
      constructor <;> omega

/-! ### Meets -/

theorem convertsTo_iff (hs : s.Distinct) (ht : t.Distinct) :
    s.convertsTo t = true ↔ Reaches 4 s t := by
  rw [convertsTo, Compat.isConvertible_iff, rank_compat_le_iff hs ht (by omega)]

theorem conformsTo_iff (hs : s.Distinct) (ht : t.Distinct) :
    s.conformsTo t = true ↔ Reaches 1 s t := by
  rw [conformsTo, Compat.isConforming_iff, rank_compat_le_iff hs ht (by omega)]

theorem compat_eq_equal_iff (hs : s.Distinct) (ht : t.Distinct) :
    s.compat t = .equal ↔ Reaches 0 s t := by
  rw [← Compat.rank_eq_zero, rank_compat_le_iff hs ht (by omega)]

/-- Two types that convert to each other. -/
structure Mutual (s t : Ty) : Prop where
  source : s.Distinct
  target : t.Distinct
  there : Reaches 4 s t
  back : Reaches 4 t s

theorem Mutual.symm (h : Mutual s t) : Mutual t s := ⟨h.target, h.source, h.back, h.there⟩

theorem meet_eq_null (hne : s ≠ t) (h : ¬ (s.convertsTo t = true ∧ t.convertsTo s = true)) :
    s.meet t = null := by
  have hcond : (!s.convertsTo t || !t.convertsTo s) = true := by
    rw [not_and_or] at h
    simpa using h
  unfold meet
  simp only [if_neg hne, if_pos hcond]

/-- The guard of a meet lets types pass that convert to each other. -/
theorem Mutual.guard (h : Mutual s t) : ¬ (!s.convertsTo t || !t.convertsTo s) = true := by
  simp [(convertsTo_iff h.source h.target).mpr h.there,
    (convertsTo_iff h.target h.source).mpr h.back]

theorem any_meet (ht : t.Distinct) : any.meet t = t := by
  by_cases hany : any = t
  · rw [← hany, meet_self]
  · have h : Mutual any t := ⟨.any, ht, .runtime (by omega) t, .any (by omega) t⟩
    unfold meet
    simp only [if_neg hany, if_neg h.guard]

theorem meet_any (ht : t.Distinct) : t.meet any = t := by
  by_cases hany : t = any
  · rw [hany, meet_self]
  · have h : Mutual t any := ⟨ht, .any, .any (by omega) t, .runtime (by omega) t⟩
    unfold meet
    simp only [if_neg hany, if_neg h.guard]

theorem exists_number_meet (i j : NumberKind) :
    ∃ k, (number i).meet (number j) = number k ∧ (number j).meet (number i) = number k := by
  cases i <;> cases j <;> exact ⟨_, rfl, rfl⟩

theorem list_meet_list (h : Mutual (list s) (list t)) :
    (list s).meet (list t) = list (s.meet t) := by
  by_cases hst : s = t
  · rw [hst, meet_self, meet_self]
  · have hne : list s ≠ list t := fun e => hst (list.inj e)
    rw [meet]
    simp only [if_neg hne, if_neg h.guard]

theorem meetFields_eq (a b : List (String × Ty)) : meetFields a b = commonFields meet a b := by
  induction a with
  | nil => rfl
  | cons field fields ih =>
    obtain ⟨name, t⟩ := field
    rw [meetFields, commonFields, List.filterMap_cons, ← commonFields, ih]
    cases b.lookup name with
    | none => rfl
    | some u => rfl

theorem commonFields_self {f : Ty → Ty → Ty} (hf : ∀ t, f t t = t) {fields : List (String × Ty)}
    (h : (fields.map (·.1)).Nodup) : commonFields f fields fields = fields := by
  have hmem : ∀ field ∈ fields,
      ((fields.lookup field.1).map fun u => (field.1, f field.2 u)) = some field := by
    intro field hfield
    rw [(Entries.lookup_eq_some_iff_mem h).mpr hfield]
    simp [hf]
  rw [commonFields, List.filterMap_congr hmem, List.filterMap_some]

theorem context_meet_context {a b : List (String × Ty)} (h : Mutual (context a) (context b)) :
    (context a).meet (context b) = context (commonFields meet a b) := by
  by_cases hab : a = b
  · subst hab
    cases h.source with
    | context hna _ => rw [meet_self, commonFields_self meet_self hna]
  · have hne : context a ≠ context b := fun e => hab (context.inj e)
    rw [meet]
    simp only [if_neg hne, if_neg h.guard, meetFields_eq]

theorem range_meet_range {sa ea sb eb : Option Bool} (h : Mutual (range s sa ea) (range t sb eb)) :
    (range s sa ea).meet (range t sb eb) = range (s.meet t) sa ea := by
  by_cases hst : range s sa ea = range t sb eb
  · cases hst
    rw [meet_self, meet_self]
  · have hor : sa.or sb = sa ∧ ea.or eb = ea := by
      cases h.there with
      | range hs he _ _ =>
        constructor
        · rcases hs with rfl | rfl <;> simp
        · rcases he with rfl | rfl <;> simp
    rw [meet]
    simp only [if_neg hst, if_neg h.guard, hor]

theorem meetParams_eq (ps qs : List Ty) : meetParams ps qs = ps.zipWith meet qs := by
  induction ps generalizing qs with
  | nil => rfl
  | cons p ps ih =>
    cases qs with
    | nil => rfl
    | cons q qs => rw [meetParams, ih, List.zipWith_cons_cons]

theorem function_meet_function {ps qs : List Ty} {ns ms : Option (List String)}
    (h : Mutual (function ps ns s) (function qs ms t)) :
    (function ps ns s).meet (function qs ms t) = function (ps.zipWith meet qs) ns (s.meet t) := by
  by_cases hst : function ps ns s = function qs ms t
  · cases hst
    rw [meet_self, meet_self]
    have hself : ps.zipWith meet ps = ps := by simp [List.zipWith_self]
    rw [hself]
  · rw [meet]
    simp only [if_neg hst, if_neg h.guard, meetParams_eq]

/-- What the meet of two types is where they convert to each other: a type that both reach, the
same from both sides. -/
structure Met (s t : Ty) : Prop where
  distinct : (s.meet t).Distinct
  left : Reaches 4 s (s.meet t)
  right : Reaches 4 t (s.meet t)
  comm : Reaches 0 (s.meet t) (t.meet s)

theorem Met.of_eq {m : Ty} (hm : m.Distinct) (h : s.meet t = m) (h' : t.meet s = m)
    (left : Reaches 4 s m) (right : Reaches 4 t m) : Met s t := by
  refine ⟨?_, ?_, ?_, ?_⟩
  · rwa [h]
  · rwa [h]
  · rwa [h]
  · rw [h, h']
    exact Reaches.refl hm (by omega)

/-- Types meet if they do so within a family. -/
theorem met_of_family (h : Mutual s t) (hmet : s.family = t.family → Met s t) : Met s t := by
  rcases h.there.family_eq h.back with hfamily | ⟨-, rfl | rfl⟩
  · exact hmet hfamily
  · exact .of_eq h.target (any_meet h.target) (meet_any h.target) h.there
      (Reaches.refl h.target (by omega))
  · exact .of_eq h.source (meet_any h.source) (any_meet h.source)
      (Reaches.refl h.source (by omega)) h.back

theorem exists_of_mem_commonFields {f : Ty → Ty → Ty} {a b : List (String × Ty)}
    {field : String × Ty} (h : (a.map (·.1)).Nodup) (hmem : field ∈ commonFields f a b) :
    ∃ t u, a.lookup field.1 = some t ∧ b.lookup field.1 = some u ∧ f t u = field.2 := by
  have hnames := (names_commonFields_sublist f a b).nodup h
  have hlookup := (Entries.lookup_eq_some_iff_mem hnames).mpr hmem
  rw [lookup_commonFields] at hlookup
  exact commonField_eq_some hlookup

theorem lookup_commonFields_of_some {f : Ty → Ty → Ty} {a b : List (String × Ty)} {name : String}
    (ha : a.lookup name = some s) (hb : b.lookup name = some t) :
    (commonFields f a b).lookup name = some (f s t) := by
  rw [lookup_commonFields, ha, hb]
  rfl

/-- A context reaches the common fields if its own fields reach them. -/
theorem reaches_commonFields {f : Ty → Ty → Ty} {a b c : List (String × Ty)}
    (h : (a.map (·.1)).Nodup)
    (hc : ∀ (name : String) (t u : Ty), a.lookup name = some t → b.lookup name = some u →
      ∃ v, c.lookup name = some v ∧ Reaches k v (f t u))
    (hsize : k = 0 → c.length ≤ (commonFields f a b).length) :
    Reaches k (context c) (context (commonFields f a b)) := by
  refine .context hsize (fun field hmem => ?_) fun field hmem v hv => ?_
  · obtain ⟨t, u, ht, hu, -⟩ := exists_of_mem_commonFields h hmem
    obtain ⟨v, hv, -⟩ := hc field.1 t u ht hu
    exact Option.isSome_iff_exists.mpr ⟨v, hv⟩
  · obtain ⟨t, u, ht, hu, hf⟩ := exists_of_mem_commonFields h hmem
    obtain ⟨v', hv', hreaches⟩ := hc field.1 t u ht hu
    cases hv.symm.trans hv'
    exact hf ▸ hreaches

/-- Contexts meet if their fields do. -/
theorem met_fields {a b : List (String × Ty)} (h : Mutual (context a) (context b))
    (hmet : ∀ (name : String) (t u : Ty), a.lookup name = some t → b.lookup name = some u →
      Met t u) : Met (context a) (context b) := by
  have hna : (a.map (·.1)).Nodup := by
    cases h.source with
    | context names _ => exact names
  have hnb : (b.map (·.1)).Nodup := by
    cases h.target with
    | context names _ => exact names
  have hab := context_meet_context h
  have hba := context_meet_context h.symm
  refine ⟨?_, ?_, ?_, ?_⟩
  · rw [hab]
    refine .context ((names_commonFields_sublist meet a b).nodup hna) fun field hmem => ?_
    obtain ⟨t, u, ht, hu, hmeet⟩ := exists_of_mem_commonFields hna hmem
    exact hmeet ▸ (hmet field.1 t u ht hu).distinct
  · rw [hab]
    exact reaches_commonFields hna
      (fun name t u ht hu => ⟨t, ht, (hmet name t u ht hu).left⟩) (by omega)
  · rw [hab]
    exact reaches_commonFields hna
      (fun name t u ht hu => ⟨u, hu, (hmet name t u ht hu).right⟩) (by omega)
  · rw [hab, hba]
    refine reaches_commonFields hnb (fun name u t hu ht =>
      ⟨t.meet u, lookup_commonFields_of_some ht hu, (hmet name t u ht hu).comm⟩) fun _ => ?_
    refine length_le_of_lookup ((names_commonFields_sublist meet a b).nodup hna)
      fun field hmem => ?_
    obtain ⟨t, u, ht, hu, -⟩ := exists_of_mem_commonFields hna hmem
    exact Option.isSome_iff_exists.mpr ⟨_, lookup_commonFields_of_some hu ht⟩

/-- Functions meet if their parameters and results do. -/
theorem met_function {ps qs : List Ty} {ns ms : Option (List String)}
    (h : Mutual (function ps ns s) (function qs ms t)) (hlength : ps.length = qs.length)
    (hmet : ∀ (i : Nat) (p q : Ty), ps[i]? = some p → qs[i]? = some q → Met p q)
    (hresult : Met s t) : Met (function ps ns s) (function qs ms t) := by
  have hpq := function_meet_function h
  have hqp := function_meet_function h.symm
  refine ⟨?_, ?_, ?_, ?_⟩
  · rw [hpq]
    refine .function (fun m hm => ?_) hresult.distinct
    obtain ⟨i, hi⟩ := List.mem_iff_getElem?.mp hm
    obtain ⟨p, q, hp, hq, rfl⟩ := List.getElem?_zipWith_eq_some.mp hi
    exact (hmet i p q hp hq).distinct
  · rw [hpq]
    refine .function (by simp [hlength]) (fun i p m hp hm => ?_) hresult.left
    obtain ⟨p', q, hp', hq, rfl⟩ := List.getElem?_zipWith_eq_some.mp hm
    cases hp.symm.trans hp'
    exact (hmet i p q hp hq).left
  · rw [hpq]
    refine .function (by simp [hlength]) (fun i q m hq hm => ?_) hresult.right
    obtain ⟨p, q', hp, hq', rfl⟩ := List.getElem?_zipWith_eq_some.mp hm
    cases hq.symm.trans hq'
    exact (hmet i p q hp hq).right
  · rw [hpq, hqp]
    refine .function (by simp [hlength]) (fun i m m' hm hm' => ?_) hresult.comm
    obtain ⟨p, q, hp, hq, rfl⟩ := List.getElem?_zipWith_eq_some.mp hm
    obtain ⟨q', p', hq', hp', rfl⟩ := List.getElem?_zipWith_eq_some.mp hm'
    cases hp.symm.trans hp'
    cases hq.symm.trans hq'
    exact (hmet i p q hp hq).comm

theorem met_list (h : Mutual (list s) (list t)) (hmet : Met s t) : Met (list s) (list t) := by
  refine ⟨?_, ?_, ?_, ?_⟩
  · exact list_meet_list h ▸ .list hmet.distinct
  · exact list_meet_list h ▸ .list hmet.left
  · exact list_meet_list h ▸ .list hmet.right
  · rw [list_meet_list h, list_meet_list h.symm]
    exact .list hmet.comm

/-- Ranges that convert to each other have the same flags. -/
theorem met_range {sa ea sb eb : Option Bool} (h : Mutual (range s sa ea) (range t sb eb))
    (hmet : Met s t) : Met (range s sa ea) (range t sb eb) := by
  have hflags : sa = sb ∧ ea = eb := by
    cases h.there with
    | range hs he _ _ =>
      cases h.back with
      | range hs' he' _ _ =>
        exact ⟨hs.elim (fun e => hs'.elim (·.trans e.symm) Eq.symm) id,
          he.elim (fun e => he'.elim (·.trans e.symm) Eq.symm) id⟩
  obtain ⟨rfl, rfl⟩ := hflags
  refine ⟨?_, ?_, ?_, ?_⟩
  · exact range_meet_range h ▸ .range hmet.distinct
  · exact range_meet_range h ▸ .range (.inr rfl) (.inr rfl) (fun _ => ⟨rfl, rfl⟩) hmet.left
  · exact range_meet_range h ▸ .range (.inr rfl) (.inr rfl) (fun _ => ⟨rfl, rfl⟩) hmet.right
  · rw [range_meet_range h, range_meet_range h.symm]
    exact .range (.inr rfl) (.inr rfl) (fun _ => ⟨rfl, rfl⟩) hmet.comm

/-- **Types that convert to each other meet.** -/
theorem Mutual.met (h : Mutual s t) : Met s t := by
  obtain ⟨hs, ht, there, back⟩ := h
  induction hs generalizing t with
  | list ha ih =>
    have h : Mutual (list _) t := ⟨.list ha, ht, there, back⟩
    refine met_of_family h fun hfamily => ?_
    cases ht with
    | list hb =>
      cases there with
      | list there =>
        cases back with
        | list back =>
          exact met_list h (ih hb there back)
    | _ => simp [family] at hfamily
  | @context a hna ha ih =>
    have h : Mutual (context a) t := ⟨.context hna ha, ht, there, back⟩
    refine met_of_family h fun hfamily => ?_
    cases ht with
    | context hnb hb =>
      exact met_fields h fun name x y hx hy => ih (name, x) (mem_of_lookup hx)
        (hb (name, y) (mem_of_lookup hy)) (there.field hx hy) (back.field hy hx)
    | _ => simp [family] at hfamily
  | @range a sa ea ha ih =>
    have h : Mutual (range a sa ea) t := ⟨.range ha, ht, there, back⟩
    refine met_of_family h fun hfamily => ?_
    cases ht with
    | @range b sb eb hb =>
      cases there with
      | range _ _ _ there =>
        cases back with
        | range _ _ _ back =>
          exact met_range h (ih hb there back)
    | _ => simp [family] at hfamily
  | @function ps ns r hps hr ihps ihr =>
    have h : Mutual (function ps ns r) t := ⟨.function hps hr, ht, there, back⟩
    refine met_of_family h fun hfamily => ?_
    cases ht with
    | @function qs ms q hqs hq =>
      cases there with
      | function hlength there hresult =>
        cases back with
        | function _ back hresult' =>
          exact met_function h hlength (fun i p q hp hq => ihps p (List.mem_of_getElem? hp)
            (hqs q (List.mem_of_getElem? hq)) (there i p q hp hq) (back i q p hq hp))
            (ihr hq hresult hresult')
    | _ => simp [family] at hfamily
  | number i =>
    have h : Mutual (number i) t := ⟨.number i, ht, there, back⟩
    refine met_of_family h fun hfamily => ?_
    cases ht with
    | number j =>
      obtain ⟨l, hij, hji⟩ := exists_number_meet i j
      exact .of_eq (.number l) hij hji (.number NumberKind.rank_compat_le_four)
        (.number NumberKind.rank_compat_le_four)
    | _ => simp [family] at hfamily
  | _ =>
    refine met_of_family ⟨by constructor, ht, there, back⟩ fun hfamily => ?_
    cases ht <;> simp only [family, reduceCtorEq] at hfamily <;>
      first
        | exact .of_eq (by constructor) (meet_self _) (meet_self _) there back
        | exact .of_eq .dateTime rfl rfl (by constructor <;> omega) (by constructor <;> omega)
        | cases there <;> cases back

/-! ### The laws -/

/-- **Subtypes are ordered**: among types with distinct field names being a subtype is reflexive
and transitive, and two types that are subtypes of each other are equal in both directions. -/
theorem conformsTo_order (hs : s.Distinct) (ht : t.Distinct) (hu : u.Distinct) :
    s.conformsTo s = true ∧
      (s.conformsTo t = true → t.conformsTo u = true → s.conformsTo u = true) ∧
      (s.conformsTo t = true → t.conformsTo s = true →
        s.compat t = .equal ∧ t.compat s = .equal) := by
  rw [conformsTo_iff hs hs, conformsTo_iff hs ht, conformsTo_iff ht hu, conformsTo_iff hs hu,
    conformsTo_iff ht hs, compat_eq_equal_iff hs ht, compat_eq_equal_iff ht hs]
  exact ⟨.refl hs (by omega), .trans (by omega),
    fun h h' => ⟨h.antisymm hs ht h', h'.antisymm ht hs h⟩⟩

/-- Contexts with their fields in another order are subtypes of each other, and of a context with
fewer and wider fields. -/
theorem conformsTo_order_contexts :
    let s := context [("a", number .integer), ("b", list string)]
    let t := context [("b", list string), ("a", number .integer)]
    let u := context [("a", number .number)]
    (s.Distinct ∧ t.Distinct ∧ u.Distinct) ∧
      (s.conformsTo t = true ∧ t.conformsTo s = true ∧ t.conformsTo u = true) ∧
      s.conformsTo s = true ∧
      (s.conformsTo t = true → t.conformsTo u = true → s.conformsTo u = true) ∧
      (s.conformsTo t = true → t.conformsTo s = true →
        s.compat t = .equal ∧ t.compat s = .equal) := by
  intro s t u
  have hs : s.Distinct := .context (by decide) (by simp [Distinct.list, Distinct.string,
    Distinct.number])
  have ht : t.Distinct := .context (by decide) (by simp [Distinct.list, Distinct.string,
    Distinct.number])
  have hu : u.Distinct := .context (by decide) (by simp [Distinct.number])
  exact ⟨⟨hs, ht, hu⟩, ⟨rfl, rfl, rfl⟩, conformsTo_order hs ht hu⟩

/-- **Joins and meets are reached by conversion**: among types with distinct field names both
sides convert to their join. If they convert to each other then they also convert to their meet,
which is equal from both sides; otherwise the meet is null from both sides. -/
theorem convertsTo_bounds (hs : s.Distinct) (ht : t.Distinct) :
    s.convertsTo (s.join t) = true ∧ t.convertsTo (s.join t) = true ∧
      (s.convertsTo t = true → t.convertsTo s = true →
        s.convertsTo (s.meet t) = true ∧ t.convertsTo (s.meet t) = true ∧
          (s.meet t).compat (t.meet s) = .equal ∧ (t.meet s).compat (s.meet t) = .equal) ∧
      (¬ (s.convertsTo t = true ∧ t.convertsTo s = true) →
        s.meet t = null ∧ t.meet s = null) := by
  refine ⟨?_, ?_, fun hst hts => ?_, fun h => ?_⟩
  · exact (convertsTo_iff hs (hs.join ht)).mpr (reaches_join hs ht)
  · rw [join_comm hs ht]
    exact (convertsTo_iff ht (ht.join hs)).mpr (reaches_join ht hs)
  · have h : Mutual s t :=
      ⟨hs, ht, (convertsTo_iff hs ht).mp hst, (convertsTo_iff ht hs).mp hts⟩
    have hmet := h.met
    have hmet' := h.symm.met
    exact ⟨(convertsTo_iff hs hmet.distinct).mpr hmet.left,
      (convertsTo_iff ht hmet.distinct).mpr hmet.right,
      (compat_eq_equal_iff hmet.distinct hmet'.distinct).mpr hmet.comm,
      (compat_eq_equal_iff hmet'.distinct hmet.distinct).mpr hmet'.comm⟩
  · have hne : s ≠ t := by
      rintro rfl
      have hself := (convertsTo_iff hs hs).mpr (Reaches.refl hs (by omega))
      exact h ⟨hself, hself⟩
    exact ⟨meet_eq_null hne h, meet_eq_null hne.symm fun ⟨hts, hst⟩ => h ⟨hst, hts⟩⟩

/-- Contexts with dates and kinds of numbers meet in the narrower fields, here in either order. -/
theorem convertsTo_bounds_contexts :
    let s := context [("a", list (number .number)), ("b", date)]
    let t := context [("b", dateTime), ("a", list any)]
    (s.Distinct ∧ t.Distinct) ∧ (s.convertsTo t = true ∧ t.convertsTo s = true) ∧
      s.convertsTo (s.join t) = true ∧ t.convertsTo (s.join t) = true ∧
      (s.convertsTo t = true → t.convertsTo s = true →
        s.convertsTo (s.meet t) = true ∧ t.convertsTo (s.meet t) = true ∧
          (s.meet t).compat (t.meet s) = .equal ∧ (t.meet s).compat (s.meet t) = .equal) ∧
      (¬ (s.convertsTo t = true ∧ t.convertsTo s = true) →
        s.meet t = null ∧ t.meet s = null) := by
  intro s t
  have hs : s.Distinct := .context (by decide) (by simp [Distinct.list, Distinct.number,
    Distinct.date])
  have ht : t.Distinct := .context (by decide) (by simp [Distinct.list, Distinct.any,
    Distinct.dateTime])
  exact ⟨⟨hs, ht⟩, ⟨rfl, rfl⟩, convertsTo_bounds hs ht⟩

end Ty

end Feel
