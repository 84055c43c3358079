import Mathlib.Data.List.ReduceOption
import Feel.Proofs.Aggregates
import Feel.Proofs.HitPolicies
import Feel.Proofs.RenamedRuns

/-!
# Rule order

Unique hits, hits that agree and aggregated hits do not depend on the order of the rules. A rule
gives the same row wherever it stands in its table, so that tables with the same rules in another
order take the same rows in another order, and neither agreement nor aggregates see the order.

* `Decision.outcome`, `Decision.Yields`: what one rule gives, at its place and at every place.
* `Decision.taken`: the rows from which a result is made.
* `Decision.exists_taken_perm`: rules in another order give the same rows in another order.
* `Decision.conclusion?`: what the policies make of the rows.
* `Decision.run_withRules_perm`: the results are equal output by output.
-/

namespace Feel

/-- The same table with other rules. -/
def DecisionMatrix.withRules {ε : Type} (t : DecisionMatrix ε) (rules : List (MatrixRule ε)) :
    DecisionMatrix ε :=
  { t with rules := rules }

namespace Decision

variable {table : DecisionMatrix Action} {site : Site} {frame : Frame} {inputs : List Value}

/-! ### One rule -/

/-- What a rule gives as number `i`: nothing where it does not match, and else its row. -/
def outcome (columns : List (MatrixOutput Action)) (site : Site) (frame : Frame)
    (inputs : List Value) (i : Nat) (rule : MatrixRule Action) : Except EvalError (Option Row) := do
  if ← accepts (i :: 1 :: site) frame 0 rule.conditions inputs then
    return some (← row (i :: 3 :: site) frame i 0 rule.outputs columns)
  return none

/-- The outcomes of rules that are numbered from `i` on. -/
inductive Outcomes (columns : List (MatrixOutput Action)) (site : Site) (frame : Frame)
    (inputs : List Value) : Nat → List (MatrixRule Action) → List (Option Row) → Prop
  | nil (i : Nat) : Outcomes columns site frame inputs i [] []
  | cons {i : Nat} {rule : MatrixRule Action} {rules : List (MatrixRule Action)} {o : Option Row}
      {os : List (Option Row)} (h : outcome columns site frame inputs i rule = .ok o)
      (hs : Outcomes columns site frame inputs (i + 1) rules os) :
      Outcomes columns site frame inputs i (rule :: rules) (o :: os)

variable {columns : List (MatrixOutput Action)} {rule : MatrixRule Action}
  {rules : List (MatrixRule Action)} {o : Option Row} {os : List (Option Row)} {i : Nat}

theorem outcome_eq_ok : outcome columns site frame inputs i rule = .ok o ↔
    ∃ accepted, accepts (i :: 1 :: site) frame 0 rule.conditions inputs = .ok accepted ∧
      (accepted = false ∧ o = none ∨ accepted = true ∧
        ∃ r, row (i :: 3 :: site) frame i 0 rule.outputs columns = .ok r ∧ o = some r) := by
  rw [outcome, bind_eq_ok]
  refine exists_congr fun accepted => and_congr_right fun _ => ?_
  cases accepted with
  | false =>
    have hnone : ((pure none : Except EvalError (Option Row)) = .ok o) ↔ o = none :=
      pure_eq_ok.trans eq_comm
    simpa using hnone
  | true =>
    have hsome : (row (i :: 3 :: site) frame i 0 rule.outputs columns >>= fun r => pure (some r)) =
        .ok o ↔ ∃ r, row (i :: 3 :: site) frame i 0 rule.outputs columns = .ok r ∧ o = some r := by
      rw [bind_eq_ok]
      exact exists_congr fun r => and_congr_right fun _ => pure_eq_ok.trans eq_comm
    simpa only [Bool.true_eq_false, false_and, true_and, false_or, if_true] using hsome

/-- Rules that all have an outcome are matched, and the rows are those of the ones that match. -/
theorem Outcomes.exists_rows (h : Outcomes columns site frame inputs i rules os) :
    ∃ matched hs, matching (1 :: site) frame inputs false i rules = .ok matched ∧
      rows (3 :: site) frame columns matched = .ok hs ∧ hs.map (·.2) = os.reduceOption := by
  induction h with
  | nil i => exact ⟨[], [], rfl, rfl, rfl⟩
  | @cons i rule rules o os h _ ih =>
    obtain ⟨matched, hs, hmatched, hrows, heq⟩ := ih
    obtain ⟨accepted, haccepts, ⟨rfl, rfl⟩ | ⟨rfl, r, hr, rfl⟩⟩ := outcome_eq_ok.mp h
    · refine ⟨matched, hs, bind_eq_ok.mpr ⟨false, haccepts, hmatched⟩, hrows, ?_⟩
      rw [List.reduceOption_cons_of_none, heq]
    · refine ⟨(i, rule) :: matched, (i, r) :: hs, bind_eq_ok.mpr ⟨true, haccepts, ?_⟩,
        bind_eq_ok.mpr ⟨r, hr, bind_eq_ok.mpr ⟨hs, hrows, rfl⟩⟩, ?_⟩
      · exact bind_eq_ok.mpr ⟨matched, hmatched, rfl⟩
      · rw [List.reduceOption_cons_of_some, List.map_cons, heq]

/-- Where the rules are matched and the rows made, every rule has an outcome. -/
theorem exists_outcomes {matched : List (Nat × MatrixRule Action)} {hs : List Hit}
    (hmatched : matching (1 :: site) frame inputs false i rules = .ok matched)
    (hrows : rows (3 :: site) frame columns matched = .ok hs) :
    ∃ os, Outcomes columns site frame inputs i rules os ∧ hs.map (·.2) = os.reduceOption := by
  induction rules generalizing i matched hs with
  | nil =>
    cases hmatched
    cases hrows
    exact ⟨[], .nil i, rfl⟩
  | cons rule rules ih =>
    obtain ⟨accepted, haccepts, hmatched⟩ := bind_eq_ok.mp hmatched
    cases accepted with
    | false =>
      obtain ⟨os, hos, heq⟩ := ih hmatched hrows
      exact ⟨none :: os, .cons (outcome_eq_ok.mpr ⟨false, haccepts, .inl ⟨rfl, rfl⟩⟩) hos, heq⟩
    | true =>
      obtain ⟨rest, hrest, hmatched⟩ := bind_eq_ok.mp hmatched
      rw [← pure_eq_ok.mp hmatched] at hrows
      obtain ⟨r, hr, hrows⟩ := bind_eq_ok.mp hrows
      obtain ⟨hs', hs', hrows⟩ := bind_eq_ok.mp hrows
      obtain ⟨os, hos, heq⟩ := ih hrest hs'
      rw [← pure_eq_ok.mp hrows]
      refine ⟨some r :: os, .cons (outcome_eq_ok.mpr ⟨true, haccepts, .inr ⟨rfl, r, hr, rfl⟩⟩) hos,
        ?_⟩
      rw [List.reduceOption_cons_of_some, ← heq]
      rfl

/-! ### A rule at another place -/

/-- Tables that commute with renaming the places below given ones. -/
def Equivariant (places : List Site) (table : DecisionMatrix Action) : Prop :=
  ∀ R : Renaming, R.Within places → TableFollows R table table

/-- Rows without functions. -/
def Plain (rows : List Row) : Prop := ∀ r ∈ rows, ∀ v ∈ r, v.Plain

/-- What a rule gives as every number. The closures that it makes are made where it stands. -/
def Yields (columns : List (MatrixOutput Action)) (site : Site) (frame : Frame)
    (inputs : List Value) (rule : MatrixRule Action) (o : Option Row) : Prop :=
  ∀ i, ∃ o', outcome columns site frame inputs i rule = .ok o' ∧ o'.isSome = o.isSome ∧
    (Plain o.toList → o' = o)

/-- The number of a rule is seen in its failures only. -/
theorem row_number {cells : List Action} {n m j : Nat} {r : Row}
    (h : row site frame n j cells columns = .ok r) : row site frame m j cells columns = .ok r := by
  induction cells generalizing j columns r with
  | nil => exact h
  | cons a cells ih =>
    cases columns with
    | nil => exact h
    | cons column columns =>
      obtain ⟨v, hv, h⟩ := bind_eq_ok.mp h
      obtain ⟨accepted, haccepted, h⟩ := bind_eq_ok.mp h
      refine bind_eq_ok.mpr ⟨v, hv, bind_eq_ok.mpr ⟨accepted, haccepted, ?_⟩⟩
      cases accepted with
      | false => cases h
      | true =>
        obtain ⟨rest, hrest, h⟩ := bind_eq_ok.mp h
        exact bind_eq_ok.mpr ⟨rest, ih hrest, h⟩

section Places

variable (h : Equivariant [1 :: site, 3 :: site] table) (hrule : rule ∈ table.rules)
  (hframe : frame.Avoids [1 :: site, 3 :: site])
  (hinputs : ∀ v ∈ inputs, v.Avoids [1 :: site, 3 :: site])

/-- Places below places of rules. -/
theorem within_rules {R : Renaming} {k i j : Nat} (hk : k = 1 ∨ k = 3)
    (hR : R.Within [i :: k :: site, j :: k :: site]) : R.Within [1 :: site, 3 :: site] := by
  refine hR.mono fun a ha => ⟨k :: site, by simpa using hk, ?_⟩
  obtain rfl | rfl : a = i :: k :: site ∨ a = j :: k :: site := by simpa using ha
  · exact List.suffix_cons i _
  · exact List.suffix_cons j _

include h hrule hframe hinputs in
theorem accepts_anywhere (i j : Nat) :
    accepts (j :: 1 :: site) frame 0 rule.conditions inputs =
      accepts (i :: 1 :: site) frame 0 rule.conditions inputs := by
  obtain ⟨R, hR, hcarries⟩ := Renaming.exists_carries (i :: 1 :: site) (j :: 1 :: site)
  have hR := within_rules (.inl rfl) hR
  have hmap : inputs.map (Datum.rename R) = inputs :=
    (List.map_congr_left fun v hv => hinputs v hv R hR).trans (List.map_id inputs)
  have hconditions := (List.forall₂_same.mp (h R hR).rules rule hrule).conditions
  have hmove : ∀ {s t : Site}, R.Carries s t →
      accepts t frame 0 rule.conditions inputs = accepts s frame 0 rule.conditions inputs := by
    intro s t hst
    have haccepts : accepts t (frame.rename R) 0 rule.conditions (inputs.map (Datum.rename R)) =
        accepts s frame 0 rule.conditions inputs := accepts_rename hconditions hst 0 inputs
    rwa [hframe R hR, hmap] at haccepts
  exact hcarries.elim hmove fun h => (hmove h).symm

include h hrule hframe in
/-- A rule has a row wherever it stands; without closures it is the same row. -/
theorem row_anywhere {i : Nat} {r : Row}
    (hr : row (i :: 3 :: site) frame i 0 rule.outputs table.outputs = .ok r) (j : Nat) :
    ∃ r', row (j :: 3 :: site) frame j 0 rule.outputs table.outputs = .ok r' ∧
      ((∀ v ∈ r, v.Plain) → r' = r) := by
  obtain ⟨R, hR, hcarries⟩ := Renaming.exists_carries (i :: 3 :: site) (j :: 3 :: site)
  have hR := within_rules (.inr rfl) hR
  have houtputs := (List.forall₂_same.mp (h R hR).rules rule hrule).outputs
  have hmove : ∀ {s t : Site}, R.Carries s t →
      row t frame i 0 rule.outputs table.outputs =
        (row s frame i 0 rule.outputs table.outputs).map (List.map (Datum.rename R)) := by
    intro s t hst
    have hrow : row t (frame.rename R) i 0 rule.outputs table.outputs = _ :=
      row_rename houtputs (h R hR).outputs hst i 0
    rwa [hframe R hR] at hrow
  obtain hcarries | hcarries := hcarries
  · have hrow := hmove hcarries
    rw [hr] at hrow
    refine ⟨_, row_number hrow, fun hplain => ?_⟩
    exact (List.map_congr_left fun v hv => (hplain v hv).rename R).trans (List.map_id r)
  · -- the row at the new place is the one that is moved
    have hrow := hmove hcarries
    rw [hr] at hrow
    obtain ⟨r', hr', rfl⟩ := map_eq_ok.mp hrow.symm
    refine ⟨r', row_number hr', fun hplain => ?_⟩
    have hsame : ∀ v ∈ r', v = v.rename R := fun v hv =>
      ((Datum.Plain.of_rename R (hplain _ (List.mem_map_of_mem hv))).rename R).symm
    exact (List.map_id r').symm.trans (List.map_congr_left hsame)

include h hrule hframe hinputs in
/-- **A rule gives the same row wherever it stands.** -/
theorem yields_of_outcome (ho : outcome table.outputs site frame inputs i rule = .ok o) :
    Yields table.outputs site frame inputs rule o := by
  intro j
  obtain ⟨accepted, haccepts, hrow⟩ := outcome_eq_ok.mp ho
  have haccepts' := accepts_anywhere h hrule hframe hinputs i j
  rw [haccepts] at haccepts'
  obtain ⟨rfl, rfl⟩ | ⟨rfl, r, hr, rfl⟩ := hrow
  · exact ⟨none, outcome_eq_ok.mpr ⟨false, haccepts', .inl ⟨rfl, rfl⟩⟩, rfl, fun _ => rfl⟩
  · obtain ⟨r', hr', heq⟩ := row_anywhere h hrule hframe hr j
    refine ⟨some r', outcome_eq_ok.mpr ⟨true, haccepts', .inr ⟨rfl, r', hr', rfl⟩⟩, rfl,
      fun hplain => ?_⟩
    rw [heq (hplain r (by simp))]

end Places

/-! ### Rules in another order -/

/-- Rules give as many rows wherever they stand; without closures they give the same rows. -/
theorem exists_outcomes_of_yields (h : List.Forall₂ (Yields columns site frame inputs) rules os)
    (i : Nat) :
    ∃ os', Outcomes columns site frame inputs i rules os' ∧
      os'.reduceOption.length = os.reduceOption.length ∧
      (Plain os.reduceOption → os'.reduceOption = os.reduceOption) := by
  induction h generalizing i with
  | nil => exact ⟨[], .nil i, rfl, fun _ => rfl⟩
  | @cons rule o rules os h _ ih =>
    obtain ⟨o', ho', hsome, heq⟩ := h i
    obtain ⟨os', hos', hlength, heqs⟩ := ih (i + 1)
    refine ⟨o' :: os', .cons ho' hos', ?_⟩
    cases o with
    | none =>
      rw [Option.isSome_none, Option.isSome_eq_false_iff, Option.isNone_iff_eq_none] at hsome
      rw [hsome, List.reduceOption_cons_of_none, List.reduceOption_cons_of_none]
      exact ⟨hlength, heqs⟩
    | some r =>
      obtain ⟨r', rfl⟩ := Option.isSome_iff_exists.mp hsome
      rw [List.reduceOption_cons_of_some, List.reduceOption_cons_of_some, List.length_cons,
        List.length_cons, hlength]
      refine ⟨rfl, fun hplain => ?_⟩
      rw [Plain, List.forall_mem_cons] at hplain
      have hr : r' = r := Option.some.inj (heq (by simpa [Plain] using hplain.1))
      rw [hr, heqs hplain.2]

theorem yields_of_outcomes (h : Equivariant [1 :: site, 3 :: site] table)
    (hframe : frame.Avoids [1 :: site, 3 :: site])
    (hinputs : ∀ v ∈ inputs, v.Avoids [1 :: site, 3 :: site])
    (hrules : ∀ rule ∈ rules, rule ∈ table.rules)
    (hos : Outcomes table.outputs site frame inputs i rules os) :
    List.Forall₂ (Yields table.outputs site frame inputs) rules os := by
  induction hos with
  | nil => exact .nil
  | cons ho _ ih =>
    rw [List.forall_mem_cons] at hrules
    exact .cons (yields_of_outcome h hrules.1 hframe hinputs ho) (ih hrules.2)

/-- The rows from which a result is made: those of the rules that match, or the defaults. -/
def taken (table : DecisionMatrix Action) (site : Site) (frame : Frame) :
    Except EvalError (List Row) := do
  let hs ← hits table false site frame
  if hs.isEmpty then return (← fallbackRow? table (2 :: site) frame).toList
  return hs.map (·.2)

/-- Inputs are evaluated apart from the rules, and avoid their places. -/
theorem inputs_avoid (h : Equivariant [1 :: site, 3 :: site] table)
    (hframe : frame.Avoids [1 :: site, 3 :: site])
    (hinputs : Action.all (0 :: site) frame 0 table.inputs = .ok inputs) :
    ∀ v ∈ inputs, v.Avoids [1 :: site, 3 :: site] := by
  intro v hv R hR
  have hapart : ∀ a ∈ [1 :: site, 3 :: site], Site.Apart a (0 :: site) := by
    rw [List.forall_mem_cons, List.forall_mem_singleton]
    exact ⟨Site.apart_cons (by decide) site, Site.apart_cons (by decide) site⟩
  have hall := Action.Follows.all (h R hR).inputs (hR.carries hapart) frame 0
  rw [hframe R hR, hinputs] at hall
  have hmap : inputs.map (Datum.rename R) = inputs.map id :=
    (Except.ok.inj hall).symm.trans (List.map_id inputs).symm
  exact List.map_inj_left.mp hmap v hv

/-- **Rules in another order give the same rows in another order.** -/
theorem exists_taken_perm (h : Equivariant [1 :: site, 3 :: site] table)
    (hframe : frame.Avoids [1 :: site, 3 :: site]) (hrules : rules.Perm table.rules)
    {rows : List Row} (hrows : taken table site frame = .ok rows) :
    ∃ rows', taken (table.withRules rules) site frame = .ok rows' ∧
      (Plain rows → rows.Perm rows') := by
  obtain ⟨hs, hhits, hrows⟩ := bind_eq_ok.mp hrows
  obtain ⟨inputs, hinputs, hhits⟩ := bind_eq_ok.mp hhits
  obtain ⟨matched, hmatched, hhits⟩ := bind_eq_ok.mp hhits
  obtain ⟨os, hos, heq⟩ := exists_outcomes hmatched hhits
  have hyields := yields_of_outcomes h hframe (inputs_avoid h hframe hinputs) (fun _ hr => hr) hos
  obtain ⟨os₁, hyields₁, hperm⟩ := List.perm_comp_forall₂ hrules hyields
  obtain ⟨os₂, hos₂, hlength, heq₂⟩ := exists_outcomes_of_yields hyields₁ 1
  obtain ⟨matched', hs', hmatched', hhits', heq'⟩ := hos₂.exists_rows
  have hhits' : hits (table.withRules rules) false site frame = .ok hs' :=
    bind_eq_ok.mpr ⟨inputs, hinputs, bind_eq_ok.mpr ⟨matched', hmatched', hhits'⟩⟩
  have hperm : os₁.reduceOption.Perm os.reduceOption := hperm.filterMap id
  have hlength : hs'.length = hs.length := by
    rw [← List.length_map (f := (·.2)), heq', hlength, hperm.length_eq, ← heq, List.length_map]
  cases hs with
  | nil =>
    obtain rfl := List.length_eq_zero_iff.mp hlength
    exact ⟨rows, bind_eq_ok.mpr ⟨[], hhits', hrows⟩, fun _ => .refl rows⟩
  | cons hit hs =>
    obtain ⟨hit', hs', rfl⟩ := List.exists_cons_of_length_eq_add_one hlength
    refine ⟨(hit' :: hs').map (·.2), bind_eq_ok.mpr ⟨_, hhits', rfl⟩, fun hplain => ?_⟩
    rw [← pure_eq_ok.mp hrows, heq] at hplain ⊢
    have hplain₁ : Plain os₁.reduceOption := fun r hr => hplain r (hperm.mem_iff.mp hr)
    rw [heq', heq₂ hplain₁]
    exact hperm.symm

/-! ### What the policies make of the rows -/

/-- The policies that see no order: a unique row, rows that agree, and aggregates. -/
def OrderFree {ε : Type} (t : DecisionMatrix ε) : Prop :=
  t.hitPolicy = .unique ∨ t.hitPolicy = .any ∨ t.hitPolicy = .collect ∧ t.aggregation.isSome

/-- The first row as a result; null where there is none. -/
def firstResult (table : DecisionMatrix Action) (rows : List Row) : Value :=
  (rows.head?.map (shape table)).getD .null

/-- The combined first outputs of the rows. No rows at all are counted in 32 bits. -/
def combined (aggregation : Aggregation) (rows : List Row) : Value :=
  if rows.isEmpty && aggregation == .count then .int 0
  else aggregate aggregation (rows.map (·.headD .null))

/-- What a policy that sees no order makes of the rows, where it allows them. -/
def conclusion? (table : DecisionMatrix Action) (rows : List Row) : Option Value :=
  match table.hitPolicy, table.aggregation with
  | .unique, _ => if rows.length ≤ 1 then some (firstResult table rows) else none
  | .any, _ => if agreeing rows then some (firstResult table rows) else none
  | .collect, some aggregation => some (combined aggregation rows)
  | _, _ => none

variable {v w : Value}

section Policies

variable {rows : List Row}

theorem conclusion?_unique (h : table.hitPolicy = .unique) :
    conclusion? table rows = if rows.length ≤ 1 then some (firstResult table rows) else none := by
  rw [conclusion?, h]

theorem conclusion?_any (h : table.hitPolicy = .any) :
    conclusion? table rows = if agreeing rows then some (firstResult table rows) else none := by
  rw [conclusion?, h]

theorem conclusion?_collect {aggregation : Aggregation} (h : table.hitPolicy = .collect)
    (haggregation : table.aggregation = some aggregation) :
    conclusion? table rows = some (combined aggregation rows) := by
  rw [conclusion?, h, haggregation]

/-- Where no rule matches, the policies make the same of the defaults as of any row. -/
theorem unmatched_eq_ok_iff (h : OrderFree table) : unmatched table site frame = .ok v ↔
    ∃ r, fallbackRow? table site frame = .ok r ∧ conclusion? table r.toList = some v := by
  have hresult : unmatched table site frame =
      (fallbackRow? table site frame).map fun r => (conclusion? table r.toList).getD .null := by
    unfold unmatched fallbackRow?
    obtain hpolicy | hpolicy | ⟨hpolicy, hsome⟩ := h
    · simp only [conclusion?_unique hpolicy, hpolicy]
      split
      · cases defaults site frame 0 table.outputs <;> rfl
      · rfl
    · simp only [conclusion?_any hpolicy, hpolicy]
      split
      · cases defaults site frame 0 table.outputs <;> rfl
      · rfl
    · obtain ⟨aggregation, haggregation⟩ := Option.isSome_iff_exists.mp hsome
      simp only [conclusion?_collect hpolicy haggregation, hpolicy, haggregation]
      split
      · cases defaults site frame 0 table.outputs <;> rfl
      · cases aggregation <;> rfl
  have hone : ∀ r : Option Row, (conclusion? table r.toList).isSome := by
    intro r
    obtain hpolicy | hpolicy | ⟨hpolicy, hsome⟩ := h
    · rw [conclusion?_unique hpolicy]
      cases r <;> rfl
    · rw [conclusion?_any hpolicy]
      cases r <;> rfl
    · obtain ⟨aggregation, haggregation⟩ := Option.isSome_iff_exists.mp hsome
      rw [conclusion?_collect hpolicy haggregation]
      rfl
  rw [hresult, map_eq_ok]
  refine exists_congr fun r => and_congr_right fun _ => ?_
  obtain ⟨u, hu⟩ := Option.isSome_iff_exists.mp (hone r)
  rw [hu, Option.getD_some, Option.some.injEq]

theorem settle_eq_ok_iff (h : OrderFree table) {hs : List Hit} (hne : hs ≠ []) :
    settle table site frame hs = .ok v ↔ conclusion? table (hs.map (·.2)) = some v := by
  obtain ⟨hit, hs, rfl⟩ := List.exists_cons_of_ne_nil hne
  unfold settle
  obtain hpolicy | hpolicy | ⟨hpolicy, hsome⟩ := h
  · rw [conclusion?_unique hpolicy, hpolicy, List.length_map]
    dsimp only
    by_cases hlength : 1 < (hit :: hs).length
    · rw [if_pos hlength, if_neg (by omega)]
      simp
    · rw [if_neg hlength, if_pos (by omega), Except.ok.injEq, Option.some.injEq]
      rfl
  · rw [conclusion?_any hpolicy, hpolicy]
    dsimp only
    split
    · rw [Except.ok.injEq, Option.some.injEq]
      rfl
    · simp
  · obtain ⟨aggregation, haggregation⟩ := Option.isSome_iff_exists.mp hsome
    rw [conclusion?_collect hpolicy haggregation, hpolicy, haggregation, Option.some.injEq]
    dsimp only
    rw [Except.ok.injEq, combined, List.map_map]
    rfl

/-- **A table makes its result of the rows that it takes.** -/
theorem run_eq_ok_iff (h : OrderFree table) : run table site frame = .ok v ↔
    ∃ rows, taken table site frame = .ok rows ∧ conclusion? table rows = some v := by
  have hfirst : (table.hitPolicy == .first) = false := by
    obtain hpolicy | hpolicy | ⟨hpolicy, -⟩ := h <;> rw [hpolicy] <;> rfl
  rw [run_eq, hfirst, bind_eq_ok]
  simp only [taken, bind_eq_ok]
  constructor
  · rintro ⟨hs, hhits, hrun⟩
    cases hs with
    | nil =>
      obtain ⟨r, hr, hv⟩ := (unmatched_eq_ok_iff h).mp hrun
      exact ⟨r.toList, ⟨[], hhits, bind_eq_ok.mpr ⟨r, hr, rfl⟩⟩, hv⟩
    | cons hit hs =>
      exact ⟨_, ⟨hit :: hs, hhits, rfl⟩, (settle_eq_ok_iff h (List.cons_ne_nil hit hs)).mp hrun⟩
  · rintro ⟨rows, ⟨hs, hhits, hrows⟩, hv⟩
    refine ⟨hs, hhits, ?_⟩
    cases hs with
    | nil =>
      obtain ⟨r, hr, hrows⟩ := bind_eq_ok.mp hrows
      rw [← pure_eq_ok.mp hrows] at hv
      exact (unmatched_eq_ok_iff h).mpr ⟨r, hr, hv⟩
    | cons hit hs =>
      rw [← pure_eq_ok.mp hrows] at hv
      exact (settle_eq_ok_iff h (List.cons_ne_nil hit hs)).mpr hv

end Policies

/-! ### Results in any order -/

/-- Rows without functions and numbers of binary64. -/
def Ordinary (rows : List Row) : Prop := ∀ r ∈ rows, ∀ v ∈ r, v.Ordinary

theorem Ordinary.plain {rows : List Row} (h : Ordinary rows) : Plain rows :=
  fun r hr v hv => (h r hr v hv).plain

theorem sameRow_iff {r s : Row} :
    sameRow r s = true ↔ List.Forall₂ (fun v w => v.equal w = true) r s := by
  rw [sameRow, Bool.and_eq_true, beq_iff_eq, List.all_eq_true, List.forall₂_iff_zip]
  exact and_congr_right fun _ => ⟨fun h v w hvw => h (v, w) hvw, fun h p hp => h hp⟩

/-- Rows that both agree with a third one agree with each other. -/
theorem sameRow_of_common {r s t : Row} (hr : ∀ v ∈ r, v.Ordinary) (hs : ∀ v ∈ s, v.Ordinary)
    (ht : ∀ v ∈ t, v.Ordinary) (hrs : sameRow r s = true) (hrt : sameRow r t = true) :
    sameRow s t = true := by
  rw [sameRow_iff] at hrs hrt ⊢
  refine Datum.forall₂_of_common hrs hrt fun u hu v hv w hw huv huw => ?_
  exact Datum.equal_trans (hs v hv) (hr u hu) (ht w hw)
    (Datum.equal_symm (hr u hu) (hs v hv) huv) huw

/-- At most one row has no neighbour to disagree with. -/
theorem agreeing_of_length {rows : List Row} (h : rows.length ≤ 1) : agreeing rows = true := by
  cases rows with
  | nil => rfl
  | cons r rows =>
    cases rows with
    | nil => rfl
    | cons s rows => simp at h

theorem sameRow_refl {r : Row} (hr : ∀ v ∈ r, v.Ordinary) : sameRow r r = true :=
  sameRow_iff.mpr (List.forall₂_same.mpr fun v hv => (hr v hv).equal_refl)

/-- **Rows that agree with their neighbours agree with each other.** -/
theorem agreeing_iff {rows : List Row} (h : Ordinary rows) :
    agreeing rows = true ↔ ∀ r ∈ rows, ∀ s ∈ rows, sameRow r s = true := by
  have hfirst : ∀ (r : Row) (rows : List Row), Ordinary (r :: rows) →
      (agreeing (r :: rows) = true ↔ ∀ s ∈ rows, sameRow r s = true) := by
    intro r rows h
    induction rows generalizing r with
    | nil => simp [agreeing]
    | cons s rows ih =>
      obtain ⟨hr, hs, hrows⟩ : (∀ v ∈ r, v.Ordinary) ∧ (∀ v ∈ s, v.Ordinary) ∧ Ordinary rows := by
        rwa [Ordinary, List.forall_mem_cons, List.forall_mem_cons] at h
      rw [agreeing, Bool.and_eq_true, ih s (List.forall_mem_cons.mpr ⟨hs, hrows⟩),
        List.forall_mem_cons]
      refine and_congr_right fun hrs => forall_congr' fun t => forall_congr' fun ht => ?_
      have hsr := sameRow_of_common hr hs hr hrs (sameRow_refl hr)
      exact ⟨sameRow_of_common hs hr (hrows t ht) hsr, sameRow_of_common hr hs (hrows t ht) hrs⟩
  cases rows with
  | nil => simp [agreeing]
  | cons r rows =>
    have hr := h r List.mem_cons_self
    rw [hfirst r rows h]
    constructor
    · intro hall
      have hall : ∀ s ∈ r :: rows, sameRow r s = true :=
        List.forall_mem_cons.mpr ⟨sameRow_refl hr, hall⟩
      exact fun s hs t ht => sameRow_of_common hr (h s hs) (h t ht) (hall s hs) (hall t ht)
    · exact fun hall s hs => hall r List.mem_cons_self s (List.mem_cons_of_mem r hs)

/-- Entries with the same names, whose values are related one by one. -/
def Related {α : Type} (r : α → α → Prop) (es fs : List (String × α)) : Prop :=
  List.Forall₂ (fun e f => f.1 = e.1 ∧ r e.2 f.2) es fs

section Entries

variable {α : Type} {r : α → α → Prop} {es fs : List (String × α)}

theorem Related.insert (h : Related r es fs) (name : String) {a b : α} (hab : r a b) :
    Related r (Entries.insert es name a) (Entries.insert fs name b) := by
  induction h with
  | nil => exact .cons ⟨rfl, hab⟩ .nil
  | @cons e f es fs hef hrest ih =>
    obtain ⟨n, x⟩ := e
    obtain ⟨n', y⟩ := f
    obtain ⟨rfl, hxy⟩ : n' = n ∧ r x y := hef
    unfold Entries.insert
    split
    · exact .cons ⟨rfl, hab⟩ hrest
    · exact .cons ⟨rfl, hxy⟩ ih

theorem Related.ofList (h : Related r es fs) : Related r (Entries.ofList es) (Entries.ofList fs) := by
  have hfold : ∀ {acc acc' : List (String × α)}, Related r acc acc' →
      Related r (es.foldl (fun acc e => Entries.insert acc e.1 e.2) acc)
        (fs.foldl (fun acc e => Entries.insert acc e.1 e.2) acc') := by
    induction h with
    | nil => exact id
    | @cons e f es fs hef _ ih =>
      intro acc acc' hacc
      obtain ⟨n, x⟩ := e
      obtain ⟨n', y⟩ := f
      obtain ⟨rfl, hxy⟩ : n' = n ∧ r x y := hef
      exact ih (hacc.insert n' hxy)
  exact hfold .nil

theorem related_zip {as bs : List α} (h : List.Forall₂ r as bs) (names : List String) :
    Related r (names.zip as) (names.zip bs) := by
  induction h generalizing names with
  | nil => cases names <;> exact .nil
  | cons hab _ ih =>
    cases names with
    | nil => exact .nil
    | cons name names => exact .cons ⟨rfl, hab⟩ (ih names)

end Entries

/-- Results that are equal output by output: as values, or as the contexts of two rows. -/
inductive SameResult {ε : Type} (t : DecisionMatrix ε) : Value → Value → Prop
  | value {v w : Value} (h : v.equal w = true) : SameResult t v w
  | row {es fs : List (String × Value)} (hsingle : t.singleOutput = false)
      (hpolicy : t.hitPolicy ≠ .collect) (h : Related (fun v w => v.equal w = true) es fs) :
      SameResult t (.context es) (.context fs)

/-- Rows that agree have the same result. -/
theorem sameResult_shape (hpolicy : table.hitPolicy ≠ .collect) {r s : Row}
    (h : sameRow r s = true) : SameResult table (shape table r) (shape table s) := by
  rw [sameRow_iff] at h
  unfold shape
  split
  · refine .value ?_
    cases h with
    | nil => exact Datum.Ordinary.null.equal_refl
    | cons h _ => exact h
  · next hsingle =>
    exact .row (Bool.eq_false_iff.mpr hsingle) hpolicy (related_zip h _).ofList

/-- Outputs that are all of one row are ordinary. -/
theorem Ordinary.firsts {rows : List Row} (h : Ordinary rows) :
    ∀ v ∈ rows.map (·.headD .null), v.Ordinary := by
  refine List.forall_mem_map.mpr fun r hr => ?_
  cases r with
  | nil => exact .null
  | cons v r => exact h _ hr v List.mem_cons_self

theorem combined_perm (aggregation : Aggregation) {rows rows' : List Row} (hrows : Ordinary rows)
    (hperm : rows.Perm rows') :
    (combined aggregation rows).equal (combined aggregation rows') = true := by
  have hempty : rows'.isEmpty = rows.isEmpty := by
    rw [Bool.eq_iff_iff, List.isEmpty_iff_length_eq_zero, List.isEmpty_iff_length_eq_zero,
      hperm.length_eq]
  unfold combined
  rw [hempty]
  split
  · exact Datum.Ordinary.equal_refl ⟨.number _, .number _, .number (by simp [Number.kind])⟩
  · exact aggregate_perm aggregation hrows.firsts (hperm.map _)

/-- **The policies make the same of rows in another order.** -/
theorem exists_conclusion_perm {rows rows' : List Row} (h : OrderFree table)
    (hrows : Ordinary rows) (hperm : rows.Perm rows') (hv : conclusion? table rows = some v) :
    ∃ w, conclusion? table rows' = some w ∧ SameResult table v w := by
  have hrows' : Ordinary rows' := fun r hr => hrows r (hperm.mem_iff.mpr hr)
  -- one of the first rows stands for all of them, if they agree
  have hfirst (hpolicy : table.hitPolicy ≠ .collect)
      (hagree : ∀ r ∈ rows, ∀ s ∈ rows, sameRow r s = true) :
      SameResult table (firstResult table rows) (firstResult table rows') := by
    cases rows with
    | nil =>
      rw [List.nil_perm.mp hperm]
      exact .value Datum.Ordinary.null.equal_refl
    | cons r rows =>
      cases rows' with
      | nil => cases List.perm_nil.mp hperm
      | cons s rows' =>
        exact sameResult_shape hpolicy (hagree r List.mem_cons_self s
          (hperm.mem_iff.mpr List.mem_cons_self))
  obtain hpolicy | hpolicy | ⟨hpolicy, hsome⟩ := h
  · rw [conclusion?_unique hpolicy] at hv ⊢
    split at hv
    · next hlength =>
      rw [if_pos (hperm.length_eq ▸ hlength)]
      refine ⟨_, rfl, Option.some.inj hv ▸ hfirst (by rw [hpolicy]; decide) ?_⟩
      exact (agreeing_iff hrows).mp (agreeing_of_length hlength)
    · cases hv
  · rw [conclusion?_any hpolicy] at hv ⊢
    split at hv
    · next hagree =>
      rw [agreeing_iff hrows] at hagree
      have hagree' : agreeing rows' = true := (agreeing_iff hrows').mpr fun r hr s hs =>
        hagree r (hperm.mem_iff.mpr hr) s (hperm.mem_iff.mpr hs)
      rw [if_pos hagree']
      exact ⟨_, rfl, Option.some.inj hv ▸ hfirst (by rw [hpolicy]; decide) hagree⟩
    · cases hv
  · obtain ⟨aggregation, haggregation⟩ := Option.isSome_iff_exists.mp hsome
    rw [conclusion?_collect hpolicy haggregation, Option.some.injEq] at hv
    rw [conclusion?_collect hpolicy haggregation]
    exact ⟨_, rfl, .value (hv ▸ combined_perm aggregation hrows hperm)⟩

/-! ### The law -/

/-- What an aggregation makes of the values: the exact sum of numbers, an extreme of values that
have an order, or the number of classes of equal values. -/
def Combines (vs : List Value) (v : Value) : Aggregation → Prop
  | .sum => vs ≠ [] → (∀ u ∈ vs, u.rational?.isSome) →
      v.rational? = some (vs.filterMap Datum.rational?).sum
  | .min => vs ≠ [] → vs.Pairwise Datum.Comparable → Builtin.IsExtreme .lt vs v
  | .max => vs ≠ [] → vs.Pairwise Datum.Comparable → Builtin.IsExtreme .gt vs v
  | .count => v.equal (.long (Datum.classes vs).ncard) = true ∧
      ((Datum.classes vs).ncard < 0x8000000000000000 →
        v.rational? = some ((Datum.classes vs).ncard : ℚ))

/-- A number of values in 64 bits. -/
theorem rational?_long {n : Nat} (h : n < 0x8000000000000000) :
    (Datum.long n : Value).rational? = some (n : ℚ) := by
  have htoInt : (Int64.ofInt n).toInt = n := Int64.toInt_ofInt_of_le (by omega) (by omega)
  refine Datum.rational?_eq_some.mpr ⟨_, rfl, ?_⟩
  rw [Number.value?, htoInt, Int.cast_natCast]

theorem classes_nil : Datum.classes [] = ∅ := by simp [Datum.classes]

theorem combines_combined (aggregation : Aggregation) {rows : List Row} (h : Ordinary rows) :
    Combines (rows.map (·.headD .null)) (combined aggregation rows) aggregation := by
  have hexact : ∀ v ∈ rows.map (·.headD .null), v.Exact := fun v hv => (h.firsts v hv).isExact
  cases aggregation with
  | count =>
    cases rows with
    | nil =>
      have hzero : (Datum.int 0 : Value).rational? = some 0 :=
        Datum.rational?_eq_some.mpr ⟨_, rfl, by simp [Number.value?]⟩
      have hlong := rational?_long (n := 0) (by decide)
      rw [Combines, List.map_nil, classes_nil, Set.ncard_empty]
      refine ⟨Datum.equal_of_rational? ?_ ?_, fun _ => ?_⟩
      · exact Option.isSome_of_eq_some hzero
      · exact hzero.trans (hlong.trans (by rw [Nat.cast_zero])).symm
      · exact hzero.trans (by rw [Nat.cast_zero])
    | cons r rows =>
      show (Datum.long (Builtin.distinct _).length).equal _ = true ∧
        (_ → (Datum.long (Builtin.distinct _).length).rational? = _)
      rw [Builtin.length_distinct h.firsts]
      exact ⟨Datum.Ordinary.equal_refl ⟨.number _, .number _, .number (by simp [Number.kind])⟩,
        rational?_long⟩
  | _ =>
    unfold combined
    rw [if_neg (by simp)]
    first
      | exact fun hne hnumbers => Builtin.rational?_reduce_add hne hnumbers
      | exact fun hne hpairs => Builtin.isExtreme_extreme (by decide) hexact hne hpairs

theorem Equivariant.withRules {places : List Site} (h : Equivariant places table)
    (hrules : ∀ rule ∈ rules, rule ∈ table.rules) : Equivariant places (table.withRules rules) := by
  intro R hR
  obtain ⟨hname, hinputs, hall, houtputs, hpolicy, haggregation, hsingle⟩ := h R hR
  refine ⟨hname, hinputs, ?_, houtputs, hpolicy, haggregation, hsingle⟩
  exact List.forall₂_same.mpr fun rule hr => List.forall₂_same.mp hall rule (hrules rule hr)

section Law

variable {natives : Natives} {constants : List Value} {precision : Nat} {t : DecisionMatrix Code}

/-- Rules are evaluated below the place of their table. -/
theorem rules_below (site : Site) : ∀ a ∈ [1 :: site, 3 :: site], ∃ b ∈ [site], b <:+ a := by
  simp [List.suffix_cons]

theorem equivariant_denoteMatrix (hnatives : natives.Uniform)
    (hconstants : ∀ v ∈ constants, v.Avoids [site]) (ht : (Code.decision t).Avoids [site]) :
    Equivariant [1 :: site, 3 :: site]
      (Code.denoteMatrix (.ofPool natives constants precision) t) := by
  intro R hR
  have hR := hR.mono (rules_below site)
  have hm := Machine.follows_self hnatives hconstants precision hR
  have hfollows := Code.denoteMatrix_follows (t := t) fun c _ => c.denote_follows hm
  have hrename : Code.renameMatrix R t = t := Code.decision.inj (ht R hR)
  rwa [hrename] at hfollows

theorem denoteRules_eq_map (m : Machine) (rules : List (MatrixRule Code)) :
    Code.denoteRules m rules = rules.map fun rule =>
      ⟨Code.denoteList m rule.conditions, Code.denoteList m rule.outputs⟩ := by
  induction rules with
  | nil => rfl
  | cons rule rules ih => exact congrArg _ ih

theorem denoteMatrix_withRules (m : Machine) (t : DecisionMatrix Code)
    (rules : List (MatrixRule Code)) :
    Code.denoteMatrix m (t.withRules rules) =
      (Code.denoteMatrix m t).withRules (Code.denoteRules m rules) := by
  cases t
  rfl

theorem SameResult.of_denoteMatrix {m : Machine} (h : SameResult (Code.denoteMatrix m t) v w) :
    SameResult t v w := by
  cases t
  cases h with
  | value h => exact .value h
  | row hsingle hpolicy h => exact .row hsingle hpolicy h

theorem OrderFree.denoteMatrix (h : OrderFree t) (m : Machine) :
    OrderFree (Code.denoteMatrix m t) := by
  cases t
  exact h

/-- Of the same rules in another order a table makes the same of its rows. -/
theorem exists_run_perm (h : Equivariant [1 :: site, 3 :: site] table)
    (hframe : frame.Avoids [1 :: site, 3 :: site]) (hpolicy : OrderFree table)
    (hordinary : ∀ rows, taken table site frame = .ok rows → Ordinary rows)
    (hrules : rules.Perm table.rules) :
    (∀ v, run table site frame = .ok v →
      ∃ w, run (table.withRules rules) site frame = .ok w ∧ SameResult table v w) ∧
    ∀ w, run (table.withRules rules) site frame = .ok w → ∃ v, run table site frame = .ok v := by
  have hpolicy' : OrderFree (table.withRules rules) := hpolicy
  constructor
  · intro v hv
    obtain ⟨rows, hrows, hv⟩ := (run_eq_ok_iff hpolicy).mp hv
    obtain ⟨rows', hrows', hperm⟩ := exists_taken_perm h hframe hrules hrows
    have hrowsOrdinary := hordinary rows hrows
    obtain ⟨w, hw, hsame⟩ :=
      exists_conclusion_perm hpolicy hrowsOrdinary (hperm hrowsOrdinary.plain) hv
    exact ⟨w, (run_eq_ok_iff hpolicy').mpr ⟨rows', hrows', hw⟩, hsame⟩
  · intro w hw
    obtain ⟨rows', hrows', hw⟩ := (run_eq_ok_iff hpolicy').mp hw
    -- the rules can be put back in their order
    obtain ⟨rows, hrows, -⟩ := exists_taken_perm
      (h.withRules fun rule hr => hrules.mem_iff.mp hr) hframe hrules.symm hrows'
    have hrows : taken table site frame = .ok rows := hrows
    obtain ⟨rows'', hrows'', hperm⟩ := exists_taken_perm h hframe hrules hrows
    rw [hrows'] at hrows''
    obtain rfl := Except.ok.inj hrows''
    have hrowsOrdinary := hordinary rows hrows
    have hperm := hperm hrowsOrdinary.plain
    obtain ⟨v, hv, -⟩ := exists_conclusion_perm hpolicy
      (fun r hr => hrowsOrdinary r (hperm.mem_iff.mpr hr)) hperm.symm hw
    exact ⟨v, (run_eq_ok_iff hpolicy).mpr ⟨rows, hrows, hv⟩⟩

/-- **Rule order does not matter** for unique hits, hits that agree and aggregated hits, if the
rows that are taken hold no functions and no numbers of binary64. With the rules in another order
the table succeeds if it did, and its result is equal output by output. Hits agree where any two
rows do, although only neighbours are compared; a sum is exact, an extreme is one of the outputs
and none is better, and a count is the number of classes of equal outputs.

A closure is told from others by the place where it was made, so nothing in sight may have been made
at a place that the table is yet to reach; host functions do not look into closures. -/
theorem run_withRules_perm {rules : List (MatrixRule Code)} (hnatives : natives.Uniform)
    (hconstants : ∀ v ∈ constants, v.Avoids [site]) (ht : (Code.decision t).Avoids [site])
    (hframe : frame.Avoids [site]) (hpolicy : OrderFree t)
    (hordinary : ∀ rows,
      taken (Code.denoteMatrix (.ofPool natives constants precision) t) site frame = .ok rows →
        Ordinary rows)
    (hrules : rules.Perm t.rules) :
    let m := Machine.ofPool natives constants precision
    let result := (Code.decision t).denote m site frame
    let result' := (Code.decision (t.withRules rules)).denote m site frame
    ((∃ v, result = .ok v) ↔ ∃ w, result' = .ok w) ∧
    (∀ v w, result = .ok v → result' = .ok w → SameResult t v w) ∧
    (t.hitPolicy = .any → ((∃ v, result = .ok v) ↔
      ∃ rows, taken (Code.denoteMatrix m t) site frame = .ok rows ∧
        ∀ r ∈ rows, ∀ s ∈ rows, sameRow r s = true)) ∧
    ∀ aggregation, t.hitPolicy = .collect → t.aggregation = some aggregation →
      ∀ v, result = .ok v → ∃ rows, taken (Code.denoteMatrix m t) site frame = .ok rows ∧
        Combines (rows.map (·.headD .null)) v aggregation := by
  intro m result result'
  have hequivariant : Equivariant [1 :: site, 3 :: site] (Code.denoteMatrix m t) :=
    equivariant_denoteMatrix hnatives hconstants ht
  have hpolicy' := hpolicy.denoteMatrix m
  have hfields : (Code.denoteMatrix m t).hitPolicy = t.hitPolicy ∧
      (Code.denoteMatrix m t).aggregation = t.aggregation := by
    cases t
    exact ⟨rfl, rfl⟩
  have hperm : (Code.denoteRules m rules).Perm (Code.denoteMatrix m t).rules := by
    have hmap := hrules.map fun rule : MatrixRule Code =>
      (⟨Code.denoteList m rule.conditions, Code.denoteList m rule.outputs⟩ : MatrixRule Action)
    rw [← denoteRules_eq_map, ← denoteRules_eq_map] at hmap
    cases t
    exact hmap
  have hframe' := hframe.mono (rules_below site)
  have hruns (v : Value) : run (Code.denoteMatrix m t) site frame = .ok v ↔
      ∃ rows, taken (Code.denoteMatrix m t) site frame = .ok rows ∧
        conclusion? (Code.denoteMatrix m t) rows = some v := run_eq_ok_iff hpolicy'
  obtain ⟨hforth, hback⟩ := exists_run_perm hequivariant hframe' hpolicy' hordinary hperm
  rw [← denoteMatrix_withRules] at hforth hback
  refine ⟨⟨fun ⟨v, hv⟩ => (hforth v hv).imp fun _ => And.left, fun ⟨w, hw⟩ => hback w hw⟩, ?_, ?_, ?_⟩
  · intro v w hv hw
    obtain ⟨w', hw', hsame⟩ := hforth v hv
    have : result' = .ok w' := hw'
    rw [hw] at this
    obtain rfl := Except.ok.inj this
    exact hsame.of_denoteMatrix
  · intro hany
    constructor
    · rintro ⟨v, hv⟩
      obtain ⟨rows, hrows, hv⟩ := (hruns v).mp hv
      rw [conclusion?_any (hfields.1.trans hany)] at hv
      split at hv
      · next hagree => exact ⟨rows, hrows, (agreeing_iff (hordinary rows hrows)).mp hagree⟩
      · cases hv
    · rintro ⟨rows, hrows, hagree⟩
      have hv : conclusion? (Code.denoteMatrix m t) rows = _ := conclusion?_any (hfields.1.trans hany)
      rw [if_pos ((agreeing_iff (hordinary rows hrows)).mpr hagree)] at hv
      exact ⟨_, (hruns _).mpr ⟨rows, hrows, hv⟩⟩
  · intro aggregation hcollect haggregation v hv
    obtain ⟨rows, hrows, hv⟩ := (hruns v).mp hv
    rw [conclusion?_collect (hfields.1.trans hcollect) (hfields.2.trans haggregation)] at hv
    exact ⟨rows, hrows, Option.some.inj hv ▸ combines_combined aggregation (hordinary rows hrows)⟩

end Law

/-- Two rules give one in two representations. With the rules turned round the table gives the other
one, which is equal to the first. -/
theorem run_withRules_perm_swapped :
    let t : DecisionMatrix Code := {
      name := "one"
      inputs := [.input]
      rules := [⟨[.const (.boolean true)], [.const (.int 1)]⟩,
        ⟨[.const (.boolean true)], [.const (.long 1)]⟩]
      outputs := [⟨none, none, [], none⟩]
      hitPolicy := .any
      aggregation := none
      singleOutput := true }
    let m := Machine.ofPool (fun _ _ => .null) [] Number.defaultPrecision
    let frame := Frame.ofInput .null
    ∃ v w, (Code.decision t).denote m [] frame = .ok v ∧
      (Code.decision (t.withRules t.rules.reverse)).denote m [] frame = .ok w ∧
      v = .int 1 ∧ w = .long 1 ∧ SameResult t v w := by
  intro t m frame
  have htaken : taken (Code.denoteMatrix m t) [] frame = .ok [[.int 1], [.long 1]] := rfl
  have hnumber (n : Number) (h : n.kind ≠ .double) : (Datum.number n : Value).Ordinary :=
    ⟨.number n, .number n, .number h⟩
  have hordinary : ∀ rows, taken (Code.denoteMatrix m t) [] frame = .ok rows → Ordinary rows := by
    intro rows hrows
    rw [htaken] at hrows
    rw [← Except.ok.inj hrows]
    simp only [Ordinary, List.forall_mem_cons]
    exact ⟨⟨hnumber _ (by decide), by simp⟩, ⟨hnumber _ (by decide), by simp⟩, by simp⟩
  obtain ⟨-, hsame, -⟩ := @run_withRules_perm [] frame (fun _ _ => .null) []
    Number.defaultPrecision t t.rules.reverse (fun _ _ _ => rfl) (List.forall_mem_nil _)
    (fun _ _ => rfl) (fun _ _ => rfl) (.inr (.inl rfl)) hordinary (List.reverse_perm _)
  have hv : (Code.decision t).denote m [] frame = .ok (.int 1) :=
    (run_eq_ok_iff (.inr (.inl rfl))).mpr ⟨_, htaken, rfl⟩
  have hw : (Code.decision (t.withRules t.rules.reverse)).denote m [] frame = .ok (.long 1) :=
    (run_eq_ok_iff (.inr (.inl rfl))).mpr ⟨_, rfl, rfl⟩
  exact ⟨.int 1, .long 1, hv, hw, rfl, rfl, hsame _ _ hv hw⟩

end Decision

end Feel
