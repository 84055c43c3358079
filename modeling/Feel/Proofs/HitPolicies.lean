import Mathlib.Order.Lattice
import Mathlib.Data.List.Lex
import Feel.Proofs.Refinement

/-!
# Hit policies agree

The hit policies of a decision table share the evaluation of its rules and differ in what they
make of the rows that match. Without an aggregation the results of the policies are tied to each
other: rule order and collecting give one list, of which the first policy takes the head; output
order is the stable sort of that list by priority, of which the priority policy takes the head;
and what is unique is also the first, the agreed and the best.

* `Decision.hits`: the rows of the rules that match.
* `Decision.collected`: what the table gives in rule order, the defaults included.
* `Decision.StableSort`, `Decision.RankOrdered`: rows in the order of their priorities.
* `Decision.policies_agree`: the laws between the policies.
-/

namespace Feel

/-- The same table under another policy. -/
def DecisionMatrix.withPolicy {ε : Type} (t : DecisionMatrix ε) (policy : HitPolicy) :
    DecisionMatrix ε :=
  { t with hitPolicy := policy }

namespace Decision

variable {table : DecisionMatrix Action} {site : Site} {frame : Frame}

/-! ### Rules that match -/

/-- The checked rows of the rules that match; where one is enough, only the first. -/
def hits (table : DecisionMatrix Action) (onlyFirst : Bool) (site : Site) (frame : Frame) :
    Except EvalError (List Hit) := do
  let inputs ← Action.all (0 :: site) frame 0 table.inputs
  let rules ← matching (1 :: site) frame inputs onlyFirst 1 table.rules
  rows (3 :: site) frame table.outputs rules

/-- There is a row for every rule that matches. -/
theorem isEmpty_rows {columns : List (MatrixOutput Action)}
    {rules : List (Nat × MatrixRule Action)} {hs : List Hit}
    (h : rows site frame columns rules = .ok hs) : hs.isEmpty = rules.isEmpty := by
  cases rules with
  | nil =>
    cases h
    rfl
  | cons rule rules =>
    obtain ⟨i, rule⟩ := rule
    obtain ⟨r, -, h⟩ := bind_eq_ok.mp h
    obtain ⟨rest, -, h⟩ := bind_eq_ok.mp h
    rw [← pure_eq_ok.mp h]
    rfl

/-- A table settles the rows of the rules that match, or falls back where none does. -/
theorem run_eq (table : DecisionMatrix Action) (site : Site) (frame : Frame) :
    run table site frame = (do
      let hs ← hits table (table.hitPolicy == .first) site frame
      if hs.isEmpty then unmatched table (2 :: site) frame
      else settle table (4 :: site) frame hs) := by
  unfold run hits
  cases Action.all (0 :: site) frame 0 table.inputs with
  | error e => rfl
  | ok inputs =>
    cases hm : matching (1 :: site) frame inputs (table.hitPolicy == .first) 1 table.rules with
    | error e =>
      simp only [bind, Except.bind, hm]
    | ok rules =>
      cases hr : rows (3 :: site) frame table.outputs rules with
      | error e =>
        cases rules with
        | nil => cases hr
        | cons rule rules => simp [bind, Except.bind, hm, hr]
      | ok hs =>
        have hempty := isEmpty_rows hr
        cases rules with
        | nil =>
          simp only [bind, Except.bind, hm, hr, hempty]
        | cons rule rules =>
          simp only [bind, Except.bind, hm, hr, hempty]

/-- Where one rule is enough, the search ends with the first that matches. -/
theorem matching_first {inputs : List Value} {i : Nat} {rules : List (MatrixRule Action)}
    {matched : List (Nat × MatrixRule Action)}
    (h : matching site frame inputs false i rules = .ok matched) :
    matching site frame inputs true i rules = .ok (matched.take 1) := by
  induction rules generalizing i matched with
  | nil =>
    cases h
    rfl
  | cons rule rules ih =>
    obtain ⟨accepted, haccepted, h⟩ := bind_eq_ok.mp h
    refine bind_eq_ok.mpr ⟨accepted, haccepted, ?_⟩
    cases accepted with
    | false => exact ih h
    | true =>
      obtain ⟨rest, -, h⟩ := bind_eq_ok.mp h
      rw [← pure_eq_ok.mp h]
      rfl

theorem rows_take {columns : List (MatrixOutput Action)}
    {rules : List (Nat × MatrixRule Action)} {hs : List Hit}
    (h : rows site frame columns rules = .ok hs) :
    rows site frame columns (rules.take 1) = .ok (hs.take 1) := by
  cases rules with
  | nil =>
    cases h
    rfl
  | cons rule rules =>
    obtain ⟨i, rule⟩ := rule
    obtain ⟨r, hr, h⟩ := bind_eq_ok.mp h
    obtain ⟨rest, -, h⟩ := bind_eq_ok.mp h
    rw [← pure_eq_ok.mp h]
    exact bind_eq_ok.mpr ⟨r, hr, rfl⟩

/-- The first hit is the first of all hits. -/
theorem hits_first {hs : List Hit} (h : hits table false site frame = .ok hs) :
    hits table true site frame = .ok (hs.take 1) := by
  obtain ⟨inputs, hinputs, h⟩ := bind_eq_ok.mp h
  obtain ⟨rules, hrules, h⟩ := bind_eq_ok.mp h
  exact bind_eq_ok.mpr ⟨inputs, hinputs,
    bind_eq_ok.mpr ⟨rules.take 1, matching_first hrules, rows_take h⟩⟩

/-! ### Results in rule order -/

/-- The row of default outputs, where a column has one. -/
def fallbackRow? (table : DecisionMatrix Action) (site : Site) (frame : Frame) :
    Except EvalError (Option Row) :=
  if table.outputs.any (·.fallback.isSome) then (defaults site frame 0 table.outputs).map some
  else .ok none

/-- What the table gives in rule order: the shaped rows that match, or the defaults. -/
def collected (table : DecisionMatrix Action) (site : Site) (frame : Frame) :
    Except EvalError (List Value) := do
  let hs ← hits table false site frame
  if hs.isEmpty then
    return (← fallbackRow? table (2 :: site) frame).toList.map (shape table)
  return hs.map fun h => shape table h.2

/-- Without a match a table gives its defaults, as a list or alone. -/
theorem unmatched_eq (table : DecisionMatrix Action) (h : table.aggregation = none) (site : Site)
    (frame : Frame) :
    unmatched table site frame = (fallbackRow? table site frame).map fun r =>
      if table.hitPolicy.isMultiHit then .list (r.toList.map (shape table))
      else (r.toList.map (shape table)).headD .null := by
  unfold unmatched fallbackRow?
  split
  · cases defaults site frame 0 table.outputs with
    | error e => rfl
    | ok r =>
      rw [h]
      rfl
  · rw [h]
    rfl

section Policies

variable (hagg : table.aggregation = none)
include hagg

theorem run_ruleOrder :
    run (table.withPolicy .ruleOrder) site frame = (collected table site frame).map .list := by
  rw [run_eq, collected]
  change (hits table false site frame >>= _) = _
  cases hits table false site frame with
  | error e => rfl
  | ok hs =>
    cases hs with
    | nil =>
      have hunmatched := unmatched_eq (table.withPolicy .ruleOrder) hagg (2 :: site) frame
      change unmatched (table.withPolicy .ruleOrder) (2 :: site) frame = _
      rw [hunmatched]
      change Except.map _ (fallbackRow? table (2 :: site) frame) = _
      cases fallbackRow? table (2 :: site) frame <;> rfl
    | cons h hs => rfl

theorem run_collect :
    run (table.withPolicy .collect) site frame = run (table.withPolicy .ruleOrder) site frame := by
  rw [run_eq, run_eq]
  change (hits table false site frame >>= _) = (hits table false site frame >>= _)
  cases hits table false site frame with
  | error e => rfl
  | ok hs =>
    cases hs with
    | nil =>
      have hcollect := unmatched_eq (table.withPolicy .collect) hagg (2 :: site) frame
      have hrule := unmatched_eq (table.withPolicy .ruleOrder) hagg (2 :: site) frame
      exact hcollect.trans hrule.symm
    | cons h hs =>
      change settle (table.withPolicy .collect) (4 :: site) frame (h :: hs) = _
      simp only [settle, DecisionMatrix.withPolicy, hagg]
      rfl

/-- What a single-hit policy gives where no rule matches. -/
theorem unmatched_single {policy : HitPolicy} (hpolicy : policy.isMultiHit = false)
    (hhits : hits table false site frame = .ok []) :
    unmatched (table.withPolicy policy) (2 :: site) frame =
      (collected table site frame).map (·.headD .null) := by
  rw [unmatched_eq (table.withPolicy policy) hagg, collected, hhits]
  change Except.map _ (fallbackRow? table (2 :: site) frame) = _
  cases fallbackRow? table (2 :: site) frame with
  | error e => rfl
  | ok r =>
    simp only [DecisionMatrix.withPolicy, hpolicy]
    rfl

/-- The first policy gives the head of what is collected. -/
theorem run_first {L : List Value} (h : collected table site frame = .ok L) :
    run (table.withPolicy .first) site frame = .ok (L.headD .null) := by
  have hcollected := h
  obtain ⟨hs, hhits, h⟩ := bind_eq_ok.mp h
  rw [run_eq]
  refine bind_eq_ok.mpr ⟨hs.take 1, hits_first hhits, ?_⟩
  cases hs with
  | nil =>
    change unmatched (table.withPolicy .first) (2 :: site) frame = _
    rw [unmatched_single hagg rfl hhits, hcollected]
    rfl
  | cons h₀ hs =>
    rw [← pure_eq_ok.mp h]
    rfl

end Policies

/-! ### Priorities -/

/-- The order of priorities is lexicographic. -/
theorem rankLe_iff {a b : List Nat} : rankLe a b = true ↔ a ≤ b := by
  induction a generalizing b with
  | nil =>
    rw [← not_lt]
    simp [rankLe]
  | cons x a ih =>
    cases b with
    | nil =>
      rw [← not_lt]
      simp [rankLe]
    | cons y b =>
      rw [← not_lt, List.cons_lt_cons_iff, rankLe, Bool.or_eq_true, Bool.and_eq_true,
        decide_eq_true_eq, beq_iff_eq, ih, ← not_lt]
      rcases lt_trichotomy x y with hxy | rfl | hxy
      · simp [hxy, hxy.not_gt, hxy.ne']
      · simp
      · simp [hxy, hxy.not_gt, hxy.ne']

/-- Rows with their priorities, in the order of these; rows of one priority are in the order that
they had. -/
structure StableSort (ranked sorted : List (List Nat × Row)) : Prop where
  ordered : sorted.Pairwise fun a b => a.1 ≤ b.1
  stable : ∀ rank, sorted.filter (·.1 == rank) = ranked.filter (·.1 == rank)

theorem stableSort_mergeSort (ranked : List (List Nat × Row)) :
    StableSort ranked (ranked.mergeSort fun a b => rankLe a.1 b.1) := by
  have htrans : ∀ a b c : List Nat × Row, rankLe a.1 b.1 = true → rankLe b.1 c.1 = true →
      rankLe a.1 c.1 = true := by
    intro a b c hab hbc
    rw [rankLe_iff] at hab hbc ⊢
    exact le_trans hab hbc
  have htotal : ∀ a b : List Nat × Row, (rankLe a.1 b.1 || rankLe b.1 a.1) = true := by
    intro a b
    rw [Bool.or_eq_true, rankLe_iff, rankLe_iff]
    exact le_total a.1 b.1
  refine ⟨(List.pairwise_mergeSort htrans htotal ranked).imp fun h => rankLe_iff.mp h,
    fun rank => ?_⟩
  -- rows of one priority are a sorted part of the list, and the sort keeps such parts
  have hsame : (ranked.filter (·.1 == rank)).Pairwise fun a b => rankLe a.1 b.1 = true := by
    refine List.pairwise_of_forall_mem_list fun a ha b hb => ?_
    rw [List.mem_filter, beq_iff_eq] at ha hb
    rw [rankLe_iff, ha.2, hb.2]
  have hsub := (List.sublist_mergeSort htrans htotal hsame List.filter_sublist).filter (·.1 == rank)
  rw [List.filter_filter] at hsub
  simp only [Bool.and_self] at hsub
  have hperm := (List.mergeSort_perm ranked fun a b => rankLe a.1 b.1).filter (·.1 == rank)
  exact (hsub.eq_of_length hperm.length_eq.symm).symm

/-- The best row is the first of those with the least rank. -/
theorem best_spec (b : List Nat × Row) (rs : List (List Nat × Row)) :
    ∃ x, best b rs = x.2 ∧ (∀ z ∈ b :: rs, x.1 ≤ z.1) ∧
      ((b :: rs).filter (·.1 == x.1)).head? = some x := by
  induction rs generalizing b with
  | nil => exact ⟨b, rfl, by simp, by simp⟩
  | cons r rs ih =>
    by_cases hle : rankLe b.1 r.1 = true
    · obtain ⟨x, hbest, hmin, hfirst⟩ := ih b
      rw [rankLe_iff] at hle
      rw [List.forall_mem_cons] at hmin
      refine ⟨x, ?_, ?_, ?_⟩
      · rw [best, if_pos (rankLe_iff.mpr hle)]
        exact hbest
      · rw [List.forall_mem_cons, List.forall_mem_cons]
        exact ⟨hmin.1, le_trans hmin.1 hle, hmin.2⟩
      · by_cases hb : b.1 = x.1
        · rw [List.filter_cons_of_pos (by simpa using hb)] at hfirst ⊢
          exact hfirst
        · have hr : r.1 ≠ x.1 := fun hr => hb (le_antisymm (hr ▸ hle) hmin.1)
          rw [List.filter_cons_of_neg (by simpa using hb)] at hfirst ⊢
          rw [List.filter_cons_of_neg (by simpa using hr)]
          exact hfirst
    · obtain ⟨x, hbest, hmin, hfirst⟩ := ih r
      rw [rankLe_iff, not_le] at hle
      have hx : x.1 < b.1 := lt_of_le_of_lt (hmin r List.mem_cons_self) hle
      refine ⟨x, ?_, ?_, ?_⟩
      · rw [best, if_neg (by rw [rankLe_iff, not_le]; exact hle)]
        exact hbest
      · rw [List.forall_mem_cons]
        exact ⟨hx.le, hmin⟩
      · rw [List.filter_cons_of_neg (by simpa using hx.ne')]
        exact hfirst

/-- The best row is the head of every stable sort. -/
theorem best_eq_head {b : List Nat × Row} {rs sorted : List (List Nat × Row)}
    (h : StableSort (b :: rs) sorted) : ∃ x rest, sorted = x :: rest ∧ best b rs = x.2 := by
  obtain ⟨x, hbest, hmin, hfirst⟩ := best_spec b rs
  rw [← h.stable] at hfirst
  have hmem : x ∈ sorted := (List.mem_filter.mp (List.mem_of_head? hfirst)).1
  cases sorted with
  | nil => cases hmem
  | cons y rest =>
    -- the head of the sort is no greater than the least rank, so it has that rank
    have hy : y ∈ b :: rs := by
      have hhead : y ∈ (y :: rest).filter (·.1 == y.1) := by simp
      rw [h.stable] at hhead
      exact (List.mem_filter.mp hhead).1
    have hle : y.1 ≤ x.1 := by
      rcases List.mem_cons.mp hmem with hxy | hmem
      · rw [hxy]
      · exact List.rel_of_pairwise_cons h.ordered hmem
    have heq : y.1 = x.1 := le_antisymm hle (hmin y hy)
    rw [List.filter_cons_of_pos (by simpa using heq)] at hfirst
    have hyx : y = x := Option.some.inj hfirst
    exact ⟨y, rest, rfl, hyx ▸ hbest⟩

/-- Priorities are added to the rows, which stay as they are. -/
theorem map_snd_ranks {columns : List (MatrixOutput Action)} {hs : List Hit}
    {ranked : List (List Nat × Row)} (h : ranks site frame columns hs = .ok ranked) :
    ranked.map (·.2) = hs.map (·.2) := by
  induction hs generalizing ranked with
  | nil =>
    cases h
    rfl
  | cons hit hs ih =>
    obtain ⟨i, r⟩ := hit
    obtain ⟨rank, -, h⟩ := bind_eq_ok.mp h
    obtain ⟨rest, hrest, h⟩ := bind_eq_ok.mp h
    rw [← pure_eq_ok.mp h, List.map_cons, List.map_cons, ih hrest]

/-! ### The laws -/

/-- The second list has the results of the first in the order of the priorities of their rows.
Where no rule matches there is at most one result. -/
inductive RankOrdered (table : DecisionMatrix Action) (site : Site) (frame : Frame) :
    List Value → List Value → Prop
  | unmatched {L : List Value} (hhits : hits table false site frame = .ok [])
      (hone : L.length ≤ 1) : RankOrdered table site frame L L
  | matched {hs : List Hit} {ranked sorted : List (List Nat × Row)}
      (hhits : hits table false site frame = .ok hs)
      (hranks : ranks (4 :: site) frame table.outputs hs = .ok ranked)
      (hrows : ranked.map (·.2) = hs.map (·.2)) (hsort : StableSort ranked sorted) :
      RankOrdered table site frame (hs.map fun h => shape table h.2)
        (sorted.map fun r => shape table r.2)

section Laws

variable (hagg : table.aggregation = none)
include hagg

/-- Output order is the stable sort of rule order, and its head has priority. -/
theorem run_outputOrder {v : Value}
    (h : run (table.withPolicy .outputOrder) site frame = .ok v) :
    ∃ L M, v = .list M ∧ collected table site frame = .ok L ∧ M.Perm L ∧
      RankOrdered table site frame L M ∧
      run (table.withPolicy .priority) site frame = .ok (M.headD .null) := by
  rw [run_eq] at h ⊢
  obtain ⟨hs, hhits, h⟩ := bind_eq_ok.mp h
  have hhits : hits table false site frame = .ok hs := hhits
  cases hs with
  | nil =>
    have h : unmatched (table.withPolicy .outputOrder) (2 :: site) frame = .ok v := h
    rw [unmatched_eq (table.withPolicy .outputOrder) hagg] at h
    obtain ⟨r, hr, hv⟩ := map_eq_ok.mp h
    have hcollected : collected table site frame = .ok (r.toList.map (shape table)) := by
      rw [collected]
      exact bind_eq_ok.mpr ⟨[], hhits, bind_eq_ok.mpr ⟨r, hr, rfl⟩⟩
    refine ⟨_, _, hv.symm, hcollected, .refl _, .unmatched hhits ?_, ?_⟩
    · cases r <;> simp
    · refine bind_eq_ok.mpr ⟨[], hhits, ?_⟩
      change unmatched (table.withPolicy .priority) (2 :: site) frame = _
      rw [unmatched_single hagg rfl hhits, hcollected]
      rfl
  | cons h₀ hs =>
    obtain ⟨ranked, hranks, h⟩ := bind_eq_ok.mp h
    have hrows := map_snd_ranks hranks
    have hsort := stableSort_mergeSort ranked
    refine ⟨_, _, (pure_eq_ok.mp h).symm, ?_, ?_, .matched hhits hranks hrows hsort, ?_⟩
    · rw [collected, hhits]
      rfl
    · have hperm := (List.mergeSort_perm ranked fun a b => rankLe a.1 b.1).map
        fun r => shape table r.2
      have heq : ranked.map (fun r => shape table r.2) =
          (h₀ :: hs).map fun h => shape table h.2 := by
        have := congrArg (List.map (shape table)) hrows
        rwa [List.map_map, List.map_map] at this
      rw [← heq]
      exact hperm
    · refine bind_eq_ok.mpr ⟨h₀ :: hs, hhits, bind_eq_ok.mpr ⟨ranked, hranks, ?_⟩⟩
      cases ranked with
      | nil => cases hrows
      | cons b rs =>
        obtain ⟨x, rest, hsorted, hbest⟩ := best_eq_head hsort
        rw [hsorted]
        exact congrArg (fun r => Except.ok (shape table r)) hbest

/-- What is unique is collected alone, and every other single-hit policy gives it too. -/
theorem run_unique {v : Value} (h : run (table.withPolicy .unique) site frame = .ok v) :
    (∃ L, collected table site frame = .ok L ∧ v = L.headD .null) ∧
      run (table.withPolicy .any) site frame = .ok v ∧
      ∀ w, run (table.withPolicy .priority) site frame = .ok w → w = v := by
  rw [run_eq] at h
  obtain ⟨hs, hhits, h⟩ := bind_eq_ok.mp h
  have hhits : hits table false site frame = .ok hs := hhits
  cases hs with
  | nil =>
    have h : unmatched (table.withPolicy .unique) (2 :: site) frame = .ok v := h
    rw [unmatched_single hagg rfl hhits] at h
    obtain ⟨L, hL, hv⟩ := map_eq_ok.mp h
    refine ⟨⟨L, hL, hv.symm⟩, ?_, fun w hw => ?_⟩
    · rw [run_eq]
      refine bind_eq_ok.mpr ⟨[], hhits, ?_⟩
      change unmatched (table.withPolicy .any) (2 :: site) frame = _
      rw [unmatched_single hagg rfl hhits]
      exact h
    · rw [run_eq] at hw
      obtain ⟨hs, hhits', hw⟩ := bind_eq_ok.mp hw
      have hhits' : hits table false site frame = .ok hs := hhits'
      rw [hhits] at hhits'
      cases hhits'
      have hw : unmatched (table.withPolicy .priority) (2 :: site) frame = .ok w := hw
      rw [unmatched_single hagg rfl hhits, h] at hw
      exact (Except.ok.inj hw).symm
  | cons h₀ hs =>
    cases hs with
    | cons h₁ hs => cases h
    | nil =>
      have hv : shape table h₀.2 = v := Except.ok.inj h
      refine ⟨⟨[v], ?_, rfl⟩, ?_, fun w hw => ?_⟩
      · rw [collected, hhits, ← hv]
        rfl
      · rw [run_eq, ← hv]
        exact bind_eq_ok.mpr ⟨[h₀], hhits, rfl⟩
      · rw [run_eq] at hw
        obtain ⟨hs, hhits', hw⟩ := bind_eq_ok.mp hw
        have hhits' : hits table false site frame = .ok hs := hhits'
        rw [hhits] at hhits'
        cases hhits'
        obtain ⟨ranked, hranks, hw⟩ := bind_eq_ok.mp hw
        have hrows := map_snd_ranks hranks
        obtain ⟨r, rfl⟩ : ∃ r, ranked = [r] := by
          rw [← List.length_eq_one_iff, ← List.length_map, hrows]
          rfl
        rw [← pure_eq_ok.mp hw, ← hv]
        exact congrArg (shape table) (List.cons.inj hrows).1

end Laws

/-- **Hit policies agree.** Of one table without an aggregation: collecting gives what rule order
gives, and the first policy its head; output order is the stable sort of rule order by priority,
and the priority policy gives its head; what is unique is also the first and the agreed result,
and has priority where there is one. -/
theorem policies_agree (t : DecisionMatrix Code) (ht : t.aggregation = none) (m : Machine)
    (site : Site) (frame : Frame) :
    let value := fun policy => (Code.decision (t.withPolicy policy)).denote m site frame
    (∀ v, value .ruleOrder = .ok v → ∃ L, v = .list L ∧ value .collect = .ok (.list L) ∧
      value .first = .ok (L.headD .null)) ∧
    (∀ v, value .outputOrder = .ok v → ∃ L M, v = .list M ∧ value .ruleOrder = .ok (.list L) ∧
      value .priority = .ok (M.headD .null) ∧ M.Perm L ∧
      RankOrdered (Code.denoteMatrix m t) site frame L M) ∧
    ∀ v, value .unique = .ok v → value .first = .ok v ∧ value .any = .ok v ∧
      ∀ w, value .priority = .ok w → w = v := by
  intro value
  have hvalue : ∀ policy, value policy =
      run ((Code.denoteMatrix m t).withPolicy policy) site frame := by
    intro policy
    obtain ⟨name, inputs, rules, outputs, _, aggregation, single⟩ := t
    rfl
  have hagg : (Code.denoteMatrix m t).aggregation = none := by
    obtain ⟨name, inputs, rules, outputs, _, aggregation, single⟩ := t
    exact ht
  refine ⟨fun v hv => ?_, fun v hv => ?_, fun v hv => ?_⟩
  · rw [hvalue, run_ruleOrder hagg] at hv
    obtain ⟨L, hL, rfl⟩ := map_eq_ok.mp hv
    refine ⟨L, rfl, ?_, (hvalue .first).trans (run_first hagg hL)⟩
    rw [hvalue, run_collect hagg, run_ruleOrder hagg, hL]
    rfl
  · rw [hvalue] at hv
    obtain ⟨L, M, rfl, hL, hperm, hordered, hpriority⟩ := run_outputOrder hagg hv
    refine ⟨L, M, rfl, ?_, (hvalue .priority).trans hpriority, hperm, hordered⟩
    rw [hvalue, run_ruleOrder hagg, hL]
    rfl
  · rw [hvalue] at hv
    obtain ⟨⟨L, hL, rfl⟩, hany, hpriority⟩ := run_unique hagg hv
    refine ⟨(hvalue .first).trans (run_first hagg hL), (hvalue .any).trans hany, fun w hw => ?_⟩
    exact hpriority w ((hvalue .priority).symm.trans hw)

/-- Two rules that always match; the output of the second has priority. -/
def rankedTable : DecisionMatrix Code where
  name := "ranked"
  inputs := [.input]
  rules := [⟨[.const (.boolean true)], [.const (.boolean false)]⟩,
    ⟨[.const (.boolean true)], [.const (.boolean true)]⟩]
  outputs := [⟨none, none, [.testInput, .not .testInput], none⟩]
  hitPolicy := .unique
  aggregation := none
  singleOutput := true

/-- The table in rule order, in output order and by priority. -/
theorem policies_agree_ranked :
    let value := fun policy =>
      (Code.decision (rankedTable.withPolicy policy)).run (fun _ _ => .null) [] 34 (.ofInput .null)
    rankedTable.aggregation = none ∧
      value .ruleOrder = .ok (.list [.boolean false, .boolean true]) ∧
      value .collect = .ok (.list [.boolean false, .boolean true]) ∧
      value .first = .ok (.boolean false) ∧ value .priority = .ok (.boolean true) ∧
      ∃ M, value .outputOrder = .ok (.list M) ∧ M.headD .null = .boolean true ∧
        M.Perm [.boolean false, .boolean true] := by
  intro value
  obtain ⟨hrule, houtput, -⟩ := policies_agree rankedTable rfl
    (.ofPool (fun _ _ => .null) [] 34) [] (.ofInput .null)
  have horder : value .ruleOrder = .ok (.list [.boolean false, .boolean true]) := rfl
  have hbest : value .priority = .ok (.boolean true) := rfl
  obtain ⟨L, heq, hcollect, hfirst⟩ := hrule _ horder
  cases heq
  have hranked : ∃ v, value .outputOrder = .ok v := ⟨_, rfl⟩
  obtain ⟨v, hv⟩ := hranked
  obtain ⟨L, M, rfl, hL, hpriority, hperm, -⟩ := houtput v hv
  cases horder.symm.trans hL
  refine ⟨rfl, horder, hcollect, hfirst, hbest, M, hv, ?_, hperm⟩
  exact Except.ok.inj (hpriority.symm.trans hbest)

end Decision

end Feel
