import Feel.Proofs.RenamedActions

/-!
# Runs at other places

Renamed code, at another place and on a renamed machine, fails in the same way as the code or
gives the renamed value. Calls keep this at every depth, as long as the host's functions treat
closures as what they are to them: values that can only be handed on.

So code can run at one place or at another. Where nothing that it sees was made at or below either
of them, the two runs differ in nothing but the places of the closures that they make: one succeeds
if and only if the other does, both hold or neither, and values without closures are the same.

* `Decision.run_follows`: tables whose cells follow each other.
* `Code.denote_follows`: renamed code follows code, on a renamed machine.
* `Natives.Uniform`: host functions that do not look into closures.
* `Machine.invoke_follows`: calls follow at every depth.
* `Renaming.Within`: renamings that change nothing but the places below given ones.
* `Datum.Avoids`, `Frame.Avoids`, `Code.Avoids`: nothing in sight was made below given places.
* `Renaming.exists_carries`: of two places one can be moved to the other.
-/

namespace Feel

variable {R : Renaming}

open Action (Follows)

/-! ### Decisions -/

namespace Decision

/-- Rules whose cells follow each other. -/
structure RuleFollows (R : Renaming) (rule rule' : MatrixRule Action) : Prop where
  conditions : List.Forall₂ (Follows R) rule.conditions rule'.conditions
  outputs : List.Forall₂ (Follows R) rule.outputs rule'.outputs

/-- Output columns whose cells follow each other. -/
structure OutputFollows (R : Renaming) (column column' : MatrixOutput Action) : Prop where
  name : column'.name = column.name
  check : Option.Rel (Follows R) column.check column'.check
  priorities : List.Forall₂ (Follows R) column.priorities column'.priorities
  fallback : Option.Rel (Follows R) column.fallback column'.fallback

/-- Tables whose cells follow each other. -/
structure TableFollows (R : Renaming) (table table' : DecisionMatrix Action) : Prop where
  name : table'.name = table.name
  inputs : List.Forall₂ (Follows R) table.inputs table'.inputs
  rules : List.Forall₂ (RuleFollows R) table.rules table'.rules
  outputs : List.Forall₂ (OutputFollows R) table.outputs table'.outputs
  hitPolicy : table'.hitPolicy = table.hitPolicy
  aggregation : table'.aggregation = table.aggregation
  singleOutput : table'.singleOutput = table.singleOutput

variable {site site' : Site} {frame : Frame}

/-! ### Matching -/

theorem accepts_rename {cs cs' : List Action} (h : List.Forall₂ (Follows R) cs cs')
    (hsite : R.Carries site site') (i : Nat) (vs : List Value) :
    accepts site' (frame.rename R) i cs' (vs.map (Datum.rename R)) =
      accepts site frame i cs vs := by
  induction h generalizing i vs with
  | nil => cases vs <;> rfl
  | cons hc _ ih =>
    cases vs with
    | nil => rfl
    | cons v vs =>
      rw [List.map_cons, accepts, accepts, hc.holds (hsite.cons i)]
      refine bind_congr fun held => ?_
      split
      · exact ih (i + 1) vs
      · rfl

/-- A rule that matched, and the one that matched at the new place. -/
def MatchFollows (R : Renaming) (hit hit' : Nat × MatrixRule Action) : Prop :=
  hit'.1 = hit.1 ∧ RuleFollows R hit.2 hit'.2

theorem matching_follows {rules rules' : List (MatrixRule Action)}
    (h : List.Forall₂ (RuleFollows R) rules rules') (hsite : R.Carries site site')
    (inputs : List Value) (onlyFirst : Bool) (i : Nat) :
    (∃ e, matching site frame inputs onlyFirst i rules = .error e ∧
      matching site' (frame.rename R) (inputs.map (Datum.rename R)) onlyFirst i rules' =
        .error e) ∨
    ∃ hits hits', matching site frame inputs onlyFirst i rules = .ok hits ∧
      matching site' (frame.rename R) (inputs.map (Datum.rename R)) onlyFirst i rules' =
        .ok hits' ∧ List.Forall₂ (MatchFollows R) hits hits' := by
  induction h generalizing i with
  | nil => exact .inr ⟨[], [], rfl, rfl, .nil⟩
  | @cons rule rule' rules rules' hrule _ ih =>
    rw [matching, matching, accepts_rename hrule.conditions (hsite.cons i)]
    cases accepts (i :: site) frame 0 rule.conditions inputs with
    | error e => exact .inl ⟨e, rfl, rfl⟩
    | ok accepted =>
      cases accepted with
      | false => exact ih (i + 1)
      | true =>
        cases onlyFirst with
        | true => exact .inr ⟨[(i, rule)], [(i, rule')], rfl, rfl, .cons ⟨rfl, hrule⟩ .nil⟩
        | false =>
          obtain ⟨e, he, he'⟩ | ⟨hits, hits', hhits, hhits', hfollow⟩ := ih (i + 1)
          · refine .inl ⟨e, ?_, ?_⟩
            · simp only [Bool.false_eq_true, if_true, if_false, he, bind, Except.bind]
            · simp only [Bool.false_eq_true, if_true, if_false, he', bind, Except.bind]
          · refine .inr ⟨(i, rule) :: hits, (i, rule') :: hits', ?_, ?_, .cons ⟨rfl, hrule⟩ hfollow⟩
            · simp only [Bool.false_eq_true, if_true, if_false, hhits, bind, Except.bind]
              rfl
            · simp only [Bool.false_eq_true, if_true, if_false, hhits', bind, Except.bind]
              rfl

/-! ### Rows -/

theorem allowed_rename {column column' : MatrixOutput Action} (h : OutputFollows R column column')
    (hsite : R.Carries site site') (v : Value) :
    allowed site' (frame.rename R) column' (v.rename R) = allowed site frame column v := by
  obtain ⟨name, check, priorities, fallback⟩ := column
  obtain ⟨name', check', priorities', fallback'⟩ := column'
  obtain ⟨-, hcheck, -, -⟩ := h
  cases hcheck with
  | none => rfl
  | some hcheck =>
    unfold allowed
    dsimp only
    rw [Datum.isNull_rename, hcheck.holds hsite]

theorem row_rename {outputs outputs' : List Action} (h : List.Forall₂ (Follows R) outputs outputs')
    {columns columns' : List (MatrixOutput Action)}
    (hcolumns : List.Forall₂ (OutputFollows R) columns columns') (hsite : R.Carries site site')
    (rule j : Nat) :
    row site' (frame.rename R) rule j outputs' columns' =
      (row site frame rule j outputs columns).map (List.map (Datum.rename R)) := by
  induction h generalizing j columns columns' with
  | nil => rfl
  | cons ha _ ih =>
    cases hcolumns with
    | nil => rfl
    | cons hcolumn hcolumns =>
      refine bind_changed (ha (hsite.cons (2 * j)) frame) fun v => ?_
      rw [allowed_rename hcolumn (hsite.cons (2 * j + 1))]
      refine bind_unchanged fun accepted => ?_
      split
      · exact bind_changed (ih hcolumns (j + 1)) fun vs => rfl
      · rfl

/-- The rows of hits, renamed. -/
def renameHits (R : Renaming) (hits : List Hit) : List Hit :=
  hits.map fun hit => (hit.1, hit.2.map (Datum.rename R))

theorem rows_rename {columns columns' : List (MatrixOutput Action)}
    (hcolumns : List.Forall₂ (OutputFollows R) columns columns') (hsite : R.Carries site site')
    {hits hits' : List (Nat × MatrixRule Action)} (h : List.Forall₂ (MatchFollows R) hits hits') :
    rows site' (frame.rename R) columns' hits' =
      (rows site frame columns hits).map (renameHits R) := by
  induction h with
  | nil => rfl
  | @cons hit hit' hits hits' hhit _ ih =>
    obtain ⟨i, rule⟩ := hit
    obtain ⟨i', rule'⟩ := hit'
    obtain ⟨rfl, hrule⟩ := hhit
    refine bind_changed (row_rename hrule.outputs hcolumns (hsite.cons _) _ 0) fun r => ?_
    exact bind_changed ih fun rest => rfl

theorem defaults_rename {columns columns' : List (MatrixOutput Action)}
    (hcolumns : List.Forall₂ (OutputFollows R) columns columns') (hsite : R.Carries site site')
    (j : Nat) :
    defaults site' (frame.rename R) j columns' =
      (defaults site frame j columns).map (List.map (Datum.rename R)) := by
  induction hcolumns generalizing j with
  | nil => rfl
  | @cons column column' columns columns' hcolumn _ ih =>
    have hchecked : ∀ v : Value,
        (do
          if ← allowed ((2 * j + 1) :: site') (frame.rename R) column' (v.rename R) then
            return v.rename R :: (← defaults site' (frame.rename R) (j + 1) columns')
          throw (.defaultOutput (j + 1)) : Except EvalError Row) =
        (do
          if ← allowed ((2 * j + 1) :: site) frame column v then
            return v :: (← defaults site frame (j + 1) columns)
          throw (.defaultOutput (j + 1)) : Except EvalError Row).map
            (List.map (Datum.rename R)) := by
      intro v
      rw [allowed_rename hcolumn (hsite.cons (2 * j + 1))]
      refine bind_unchanged fun accepted => ?_
      split
      · exact bind_changed (ih (j + 1)) fun vs => rfl
      · rfl
    obtain ⟨name, check, priorities, fallback⟩ := column
    obtain ⟨name', check', priorities', fallback'⟩ := column'
    have hfallback := hcolumn.fallback
    cases hfallback with
    | none => exact hchecked .null
    | some ha => exact bind_changed (ha (hsite.cons (2 * j)) frame) hchecked

/-! ### Priorities -/

theorem rank_rename {ps ps' : List Action} (h : List.Forall₂ (Follows R) ps ps')
    (hsite : R.Carries site site') (v : Value) (i : Nat) :
    rank site' (frame.rename R) (v.rename R) i ps' = rank site frame v i ps := by
  induction h generalizing i with
  | nil => rfl
  | cons ha _ ih =>
    rw [rank, rank, ha.holds (hsite.cons i), ih]

theorem rowRank_rename {columns columns' : List (MatrixOutput Action)}
    (hcolumns : List.Forall₂ (OutputFollows R) columns columns') (hsite : R.Carries site site')
    (j : Nat) (r : Row) :
    rowRank site' (frame.rename R) j columns' (r.map (Datum.rename R)) =
      rowRank site frame j columns r := by
  induction hcolumns generalizing j r with
  | nil => cases r <;> rfl
  | cons hcolumn _ ih =>
    cases r with
    | nil => rfl
    | cons v vs =>
      rw [List.map_cons, rowRank, rowRank, rank_rename hcolumn.priorities (hsite.cons j), ih]

/-- Rows with their priorities, renamed. -/
def renameRanked (R : Renaming) (ranked : List Nat × Row) : List Nat × Row :=
  (ranked.1, ranked.2.map (Datum.rename R))

theorem ranks_rename {columns columns' : List (MatrixOutput Action)}
    (hcolumns : List.Forall₂ (OutputFollows R) columns columns') (hsite : R.Carries site site')
    (hits : List Hit) :
    ranks site' (frame.rename R) columns' (renameHits R hits) =
      (ranks site frame columns hits).map (List.map (renameRanked R)) := by
  induction hits with
  | nil => rfl
  | cons hit hits ih =>
    rw [renameHits, List.map_cons, ranks, ranks, rowRank_rename hcolumns (hsite.cons hit.1)]
    exact bind_unchanged fun ranked => bind_changed ih fun rest => rfl

theorem best_rename (b : List Nat × Row) (rest : List (List Nat × Row)) :
    best (renameRanked R b) (rest.map (renameRanked R)) =
      (best b rest).map (Datum.rename R) := by
  induction rest generalizing b with
  | nil => rfl
  | cons r rest ih =>
    rw [List.map_cons, best, best, ← ih, apply_ite (renameRanked R)]
    rfl

/-! ### Results -/

theorem aggregate_rename (aggregation : Aggregation) (vs : List Value) :
    aggregate aggregation (vs.map (Datum.rename R)) = (aggregate aggregation vs).rename R := by
  cases aggregation with
  | count =>
    show Datum.long _ = Datum.rename R (Datum.long _)
    rw [Builtin.distinct_rename, List.length_map]
    rfl
  | sum => exact Builtin.reduce_rename R vs .add
  | min => exact Builtin.extreme_rename R vs .lt
  | max => exact Builtin.extreme_rename R vs .gt

theorem sameRow_rename (a b : Row) :
    sameRow (a.map (Datum.rename R)) (b.map (Datum.rename R)) = sameRow a b := by
  have hall : ((a.map (Datum.rename R)).zip (b.map (Datum.rename R))).all
      (fun p => p.1.equal p.2) = (a.zip b).all fun p => p.1.equal p.2 := by
    rw [List.zip_map, List.all_map]
    exact congrArg (a.zip b).all (funext fun p => Datum.equal_rename R p.1 p.2)
  rw [sameRow, sameRow, List.length_map, List.length_map, hall]

theorem agreeing_rename (rs : List Row) :
    agreeing (rs.map (List.map (Datum.rename R))) = agreeing rs := by
  induction rs with
  | nil => rfl
  | cons a rs ih =>
    cases rs with
    | nil => rfl
    | cons b rs =>
      rw [List.map_cons, List.map_cons, agreeing, agreeing, sameRow_rename]
      exact congrArg _ ih

variable {table table' : DecisionMatrix Action}

theorem names_follow {columns columns' : List (MatrixOutput Action)}
    (h : List.Forall₂ (OutputFollows R) columns columns') :
    columns'.map (fun o => o.name.getD "") = columns.map fun o => o.name.getD "" := by
  induction h with
  | nil => rfl
  | cons ho _ ih => rw [List.map_cons, List.map_cons, ho.name, ih]

theorem shape_rename (h : TableFollows R table table') (r : Row) :
    shape table' (r.map (Datum.rename R)) = (shape table r).rename R := by
  rw [shape, shape, h.singleOutput, names_follow h.outputs, Datum.headD_rename, List.zip_map_right,
    apply_ite (Datum.rename R), Datum.rename_context, ← Entries.ofList_rename]
  rfl

theorem any_fallback_follows {columns columns' : List (MatrixOutput Action)}
    (h : List.Forall₂ (OutputFollows R) columns columns') :
    columns'.any (·.fallback.isSome) = columns.any (·.fallback.isSome) := by
  induction h with
  | nil => rfl
  | @cons column column' _ _ hcolumn _ ih =>
    have hsome : column'.fallback.isSome = column.fallback.isSome := by
      obtain ⟨name, check, priorities, fallback⟩ := column
      obtain ⟨name', check', priorities', fallback'⟩ := column'
      have hfallback := hcolumn.fallback
      cases hfallback <;> rfl
    rw [List.any_cons, List.any_cons, hsome, ih]

theorem unmatched_rename (h : TableFollows R table table') (hsite : R.Carries site site') :
    unmatched table' site' (frame.rename R) =
      (unmatched table site frame).map (Datum.rename R) := by
  unfold unmatched
  rw [h.hitPolicy, h.aggregation, any_fallback_follows h.outputs]
  split
  · refine bind_changed (defaults_rename h.outputs hsite 0) fun r => congrArg Except.ok ?_
    rw [shape_rename h]
    split
    · split
      · rw [Datum.headD_rename]
        exact aggregate_rename _ [r.headD .null]
      · exact (Datum.rename_list R [shape table r]).symm
    · rfl
  · refine congrArg Except.ok ?_
    repeat' split
    all_goals rfl

theorem settle_rename (h : TableFollows R table table') (hsite : R.Carries site site')
    (hits : List Hit) :
    settle table' site' (frame.rename R) (renameHits R hits) =
      (settle table site frame hits).map (Datum.rename R) := by
  have hrows : (renameHits R hits).map (·.2) = (hits.map (·.2)).map (List.map (Datum.rename R)) := by
    rw [renameHits, List.map_map, List.map_map]
    rfl
  have hnumbers : (renameHits R hits).map (·.1) = hits.map (·.1) := by
    rw [renameHits, List.map_map]
    rfl
  have hfirst : shape table' (((renameHits R hits).map (·.2)).headD []) =
      (shape table ((hits.map (·.2)).headD [])).rename R := by
    rw [← shape_rename h, hrows]
    cases hits <;> rfl
  have hshapes : Datum.list ((renameHits R hits).map fun hit => shape table' hit.2) =
      (Datum.list (hits.map fun hit => shape table hit.2)).rename R := by
    rw [Datum.rename_list, renameHits, List.map_map, List.map_map]
    exact congrArg Datum.list (List.map_congr_left fun hit _ => shape_rename h hit.2)
  have hranks : ranks site' (frame.rename R) table'.outputs (renameHits R hits) = _ :=
    ranks_rename h.outputs hsite hits
  unfold settle
  rw [h.hitPolicy, h.aggregation, h.name, hfirst, hnumbers, hrows, agreeing_rename]
  cases table.hitPolicy with
  | unique =>
    dsimp only
    rw [renameHits, List.length_map]
    split <;> rfl
  | first => rfl
  | any =>
    dsimp only
    split <;> rfl
  | priority =>
    refine bind_changed hranks fun ranked => ?_
    cases ranked with
    | nil => exact congrArg Except.ok (shape_rename h [])
    | cons r rs =>
      rw [List.map_cons]
      dsimp only
      rw [best_rename, shape_rename h]
      rfl
  | collect =>
    cases table.aggregation with
    | none => exact congrArg Except.ok hshapes
    | some aggregation =>
      have houtputs : (renameHits R hits).map (fun hit => hit.2.headD .null) =
          (hits.map fun hit => hit.2.headD .null).map (Datum.rename R) := by
        rw [renameHits, List.map_map, List.map_map]
        exact List.map_congr_left fun hit _ => Datum.headD_rename R hit.2
      refine congrArg Except.ok ?_
      rw [houtputs, aggregate_rename]
  | ruleOrder => exact congrArg Except.ok hshapes
  | outputOrder =>
    refine bind_changed hranks fun ranked => congrArg Except.ok ?_
    have hsort : (ranked.map (renameRanked R)).mergeSort (fun a b => rankLe a.1 b.1) =
        (ranked.mergeSort fun a b => rankLe a.1 b.1).map (renameRanked R) :=
      (List.map_mergeSort (f := renameRanked R) fun _ _ _ _ => rfl).symm
    rw [hsort, Datum.rename_list, List.map_map, List.map_map]
    exact congrArg Datum.list (List.map_congr_left fun r _ => shape_rename h r.2)

/-- **Tables at other places.** -/
theorem run_follows (h : TableFollows R table table') : (run table).Follows R (run table') := by
  intro site site' hsite frame
  refine bind_changed (Follows.all h.inputs (hsite.cons 0) frame 0) fun inputs => ?_
  rw [h.hitPolicy]
  obtain ⟨e, he, he'⟩ | ⟨hits, hits', hhits, hhits', hfollow⟩ :=
    matching_follows h.rules (hsite.cons 1) inputs (table.hitPolicy == .first) 1
  · rw [he, he']
    rfl
  · rw [hhits, hhits']
    have hempty : hits'.isEmpty = hits.isEmpty := by cases hfollow <;> rfl
    show (if hits'.isEmpty = true then _ else _) = Except.map _ (if hits.isEmpty = true then _ else _)
    rw [hempty]
    split
    · exact unmatched_rename h (hsite.cons 2)
    · refine bind_changed (rows_rename h.outputs (hsite.cons 3) hfollow) fun hits => ?_
      exact settle_rename h (hsite.cons 4) hits

end Decision

/-! ### Meanings of parts -/

/-- A machine over renamed constants whose calls follow. -/
structure Machine.Follows (R : Renaming) (m m' : Machine) : Prop where
  constants : m'.constants = m.constants.map (Datum.rename R)
  precision : m'.precision = m.precision
  calls : Action.CallsFollow R m.call m'.call

namespace Code

section

variable {m m' : Machine}

/-- Code that its renamed form follows. -/
abbrev Leads (R : Renaming) (m m' : Machine) (c : Code) : Prop :=
  (c.denote m).Follows R ((c.rename R).denote m')

theorem denoteList_follows {cs : List Code} (h : ∀ c ∈ cs, c.Leads R m m') :
    List.Forall₂ (Action.Follows R) (denoteList m cs) (denoteList m' (renameList R cs)) := by
  induction cs with
  | nil => exact .nil
  | cons c cs ih =>
    rw [List.forall_mem_cons] at h
    exact .cons h.1 (ih h.2)

theorem denoteEntries_follows {es : List (String × Code)}
    (h : ∀ c ∈ es.map (·.2), c.Leads R m m') :
    List.Forall₂ (fun e f => f.1 = e.1 ∧ Action.Follows R e.2 f.2) (denoteEntries m es)
      (denoteEntries m' (renameEntries R es)) := by
  induction es with
  | nil => exact .nil
  | cons e es ih =>
    rw [List.map_cons, List.forall_mem_cons] at h
    exact .cons ⟨rfl, h.1⟩ (ih h.2)

theorem denoteOption_follows {o : Option Code} (h : ∀ c ∈ o.toList, c.Leads R m m') :
    Option.Rel (Action.Follows R) (denoteOption m o) (denoteOption m' (renameOption R o)) := by
  cases o with
  | none => exact .none
  | some c => exact .some (h c List.mem_cons_self)

/-- A step from a cursor, whatever the cursor is called. -/
theorem step_follows {c : Code} (hc : c.Leads R m m') {cursor cursor' : String}
    (h : c.isStep cursor = true) {site site' : Site} (hsite : R.Carries site site') (frame : Frame)
    (v : Value) :
    ((c.rename R).rebase cursor cursor').denote m' site'
        ((frame.rename R).bind cursor' (v.rename R)) =
      (c.denote m site (frame.bind cursor v)).map (Datum.rename R) := by
  have hrun := hc hsite (frame.bind cursor v)
  rw [← Frame.bind_rename] at hrun
  rw [← hrun]
  obtain ⟨op, mode, w, nullCheck, rfl⟩ | ⟨op, w, rfl⟩ := isStep_iff.mp h
  · rw [rebase_rename_arith]
    show _ = (arith op mode («local» cursor) (const (w.rename R)) nullCheck).denote _ _ _
    rw [denote_arith_local, denote_arith_local, Frame.lookup_bind_self, Frame.lookup_bind_self]
  · rw [rebase_rename_temporal]
    show _ = (temporal op («local» cursor) (const (w.rename R))).denote _ _ _
    rw [denote_temporal_local, denote_temporal_local, Frame.lookup_bind_self,
      Frame.lookup_bind_self]

theorem denoteDomain_follows {d : Domain Code} (h : ∀ c ∈ d.cells, c.Leads R m m') :
    (denoteDomain m d).Follows R (denoteDomain m' (renameDomain R d)) := by
  cases d with
  | values c => exact .values (h c List.mem_cons_self)
  | steps f l cursor s p =>
    have hf := h f (by simp [Domain.cells])
    have hl := h l (by simp [Domain.cells])
    have hs := h s (by simp [Domain.cells])
    have hp := h p (by simp [Domain.cells])
    show Domain.Follows R _ (denoteDomain m' (.steps _ _ (if _ then _ else _) _ _))
    split
    · next hstep =>
      rw [Bool.and_eq_true] at hstep
      exact .steps hf hl (fun _ _ hsite => step_follows hs hstep.1 hsite)
        fun _ _ hsite => step_follows hp hstep.2 hsite
    · rw [rebase_self, rebase_self]
      exact .steps hf hl (fun _ _ hsite frame v => hs hsite (frame.bind cursor v))
        fun _ _ hsite frame v => hp hsite (frame.bind cursor v)

theorem denoteBindings_follows {bs : List (Binding Code)}
    (h : ∀ c ∈ bs.flatMap (·.domain.cells), c.Leads R m m') :
    Iteration.BindingsFollow R (denoteBindings m bs) (denoteBindings m' (renameBindings R bs)) := by
  induction bs with
  | nil => exact .nil
  | cons b bs ih =>
    rw [List.flatMap_cons, List.forall_mem_append] at h
    exact .cons ⟨rfl, denoteDomain_follows h.1⟩ (ih h.2)

theorem denoteRules_follows {rs : List (MatrixRule Code)}
    (h : ∀ c ∈ rs.flatMap (fun r => r.conditions ++ r.outputs), c.Leads R m m') :
    List.Forall₂ (Decision.RuleFollows R) (denoteRules m rs)
      (denoteRules m' (renameRules R rs)) := by
  induction rs with
  | nil => exact .nil
  | cons r rs ih =>
    rw [List.flatMap_cons, List.forall_mem_append, List.forall_mem_append] at h
    exact .cons ⟨denoteList_follows h.1.1, denoteList_follows h.1.2⟩ (ih h.2)

theorem denoteOutputs_follows {os : List (MatrixOutput Code)}
    (h : ∀ c ∈ os.flatMap (fun o => o.check.toList ++ o.priorities ++ o.fallback.toList),
      c.Leads R m m') :
    List.Forall₂ (Decision.OutputFollows R) (denoteOutputs m os)
      (denoteOutputs m' (renameOutputs R os)) := by
  induction os with
  | nil => exact .nil
  | cons o os ih =>
    rw [List.flatMap_cons, List.forall_mem_append, List.forall_mem_append,
      List.forall_mem_append] at h
    exact .cons ⟨rfl, denoteOption_follows h.1.1.1, denoteList_follows h.1.1.2,
      denoteOption_follows h.1.2⟩ (ih h.2)

theorem denoteMatrix_follows {t : DecisionMatrix Code} (h : ∀ c ∈ t.cells, c.Leads R m m') :
    Decision.TableFollows R (denoteMatrix m t) (denoteMatrix m' (renameMatrix R t)) := by
  rw [DecisionMatrix.cells, List.forall_mem_append, List.forall_mem_append] at h
  obtain ⟨name, inputs, rules, outputs, policy, aggregation, single⟩ := t
  exact ⟨rfl, denoteList_follows h.1.1, denoteRules_follows h.1.2, denoteOutputs_follows h.2, rfl,
    rfl, rfl⟩

theorem constant_follows (hm : m.Follows R m') (i : Nat) :
    (Action.constant m i).Follows R (Action.constant m' i) := by
  intro site site' _ frame
  unfold Action.constant
  rw [hm.constants, ← List.map_drop]
  cases m.constants.drop i <;> rfl

/-- **Renamed code follows code**, on a machine over renamed constants whose calls follow. -/
theorem denote_follows (hm : m.Follows R m') (c : Code) :
    (c.denote m).Follows R ((c.rename R).denote m') := by
  refine partsInduction (P := Leads R m m') (fun c h => ?_) c
  have hplain : ∀ {v : Value}, v.Plain → v = v.rename R := fun h => (h.rename R).symm
  cases c with
  | const v => exact fun _ _ _ _ => rfl
  | constRef i => exact constant_follows hm i
  | input => exact fun _ _ _ _ => rfl
  | testInput => exact fun _ _ _ frame => congrArg Except.ok (frame.tested_rename R)
  | «local» name => exact fun _ _ _ frame => congrArg Except.ok (frame.lookup_rename R name)
  | inputField name =>
    exact fun _ _ _ frame => congrArg Except.ok (Datum.getD_get?_rename R frame.input name)
  | member s name => exact .map (h s (.head _)) (Datum.member_rename R name)
  | arith op mode l r nullCheck =>
    exact .arith hm.precision op mode nullCheck (h l (.head _)) (h r (.tail _ (.head _)))
  | concat l r =>
    exact .both (h l (.head _)) (h r (.tail _ (.head _))) (Datum.concat_rename R)
  | temporal op l r =>
    exact .both (h l (.head _)) (h r (.tail _ (.head _))) fun v w =>
      Datum.temporal_rename R v w op
  | compare op mode l r =>
    exact .both (h l (.head _)) (h r (.tail _ (.head _))) fun v w =>
      Datum.compareAs_rename R v w op mode
  | equal mode negated l r =>
    exact .both (h l (.head _)) (h r (.tail _ (.head _))) fun v w =>
      Datum.equality_rename R v w negated
  | logic op shortCircuit l r =>
    exact .logic op shortCircuit (h l (.head _)) (h r (.tail _ (.head _)))
  | not c => exact .map (h c (.head _)) (Datum.not_rename R)
  | negate c => exact .map (h c (.head _)) (Datum.negate_rename R)
  | dynamic op l r =>
    show Action.Follows R (.both (Action.dynamicValue m.precision op) (l.denote m) (r.denote m))
      (.both (Action.dynamicValue m'.precision op) _ _)
    rw [hm.precision]
    exact .both (h l (.head _)) (h r (.tail _ (.head _)))
      (Action.Follows.dynamicValue_rename m.precision op)
  | ite c y n =>
    exact .ite (h c (by simp [children])) (h y (by simp [children])) (h n (by simp [children]))
  | list items => exact .list (denoteList_follows h)
  | context es => exact .context (denoteEntries_follows h)
  | range s e si ei =>
    have hs := denoteOption_follows fun d hd => h d (List.mem_append_left _ hd)
    have he := denoteOption_follows fun d hd => h d (List.mem_append_right _ hd)
    exact .range hs he si ei
  | between v l u =>
    exact .between (h v (by simp [children])) (h l (by simp [children]))
      (h u (by simp [children]))
  | instanceOf v target =>
    exact .map (h v (.head _)) fun v =>
      congrArg Datum.boolean (Ty.isInstance_rename R target v)
  | filter s f kind =>
    exact Filter.run_follows (h s (.head _)) (h f (.tail _ (.head _))) kind
  | forIn bs body =>
    have hbs := denoteBindings_follows fun d hd => h d (List.mem_append_left _ hd)
    exact Iteration.collect_follows hbs (h body (by simp [children]))
  | quantified every bs c =>
    have hbs := denoteBindings_follows fun d hd => h d (List.mem_append_left _ hd)
    exact Iteration.quantify_follows every hbs (h c (by simp [children]))
  | function params body type =>
    intro site site' hsite frame
    refine congrArg Except.ok ?_
    rw [Datum.rename_function, Function.rename_closure, hsite.here, hm.constants]
    rfl
  | call target args names =>
    cases target with
    | builtin name => exact .callBuiltin hm.calls hm.precision name (denoteList_follows h) names
    | value callee =>
      obtain ⟨hcallee, hargs⟩ := List.forall_mem_cons.mp h
      exact .callValue hm.calls hcallee (denoteList_follows hargs) names
  | convert v target => exact .map (h v (.head _)) (Datum.convert_rename R target)
  | unaryMatch t =>
    intro site site' hsite frame
    refine bind_changed (h t (.head _) (hsite.cons 0) frame) fun v =>
      congrArg Except.ok ?_
    rw [Frame.tested_rename]
    exact Action.Follows.matchTest_rename v frame.tested
  | listContains l v =>
    exact .both (h l (.head _)) (h v (.tail _ (.head _)))
      Action.Follows.listContains_rename
  | rangeContains r v =>
    exact .both (h r (.head _)) (h v (.tail _ (.head _)))
      Action.Follows.rangeContains_rename
  | withTestInput s b =>
    exact .withTestInput (h s (.head _)) (h b (.tail _ (.head _)))
  | decision t => exact Decision.run_follows (denoteMatrix_follows h)

end

end Code

/-! ### Calls -/

/-- Host functions that do not look into closures: of renamed arguments they give what they give
of the arguments, renamed. -/
def Natives.Uniform (natives : Natives) : Prop :=
  ∀ (R : Renaming) (id : Nat) (args : List Value),
    natives id (args.map (Datum.rename R)) = (natives id args).rename R

namespace Machine

theorem closureFrame_rename (R : Renaming) (input : Value) (captured : List (String × Value))
    (params : List String) (args : List Value) :
    closureFrame (input.rename R) (Entries.rename R captured) params (args.map (Datum.rename R)) =
      (closureFrame input captured params args).rename R := by
  have hpadded : ∀ n : Nat, args.map (Datum.rename R) ++ List.replicate n Datum.null =
      (args ++ List.replicate n Datum.null).map (Datum.rename R) := fun n => by
    rw [List.map_append, List.map_replicate, Datum.rename_null]
  unfold closureFrame
  dsimp only
  rw [List.length_map, hpadded, List.zip_map_right]
  simp only [Frame.rename, Frame.ofInput, Entries.rename, List.map_append, List.map_reverse]
  rfl

variable {natives : Natives}

/-- **Calls follow at every depth**: the body of a renamed closure is the renamed body, in a frame
of what the closure captured, renamed. -/
theorem invoke_follows (h : natives.Uniform) (R : Renaming) (precision depth : Nat) :
    Action.CallsFollow R (invoke natives precision depth) (invoke natives precision depth) := by
  induction depth with
  | zero => exact fun _ _ _ _ _ _ => rfl
  | succ depth ih =>
    intro site site' hsite f args input
    cases f with
    | closure place params body captured constants type =>
      rw [Function.rename_closure]
      show (body.rename R).denote _ site' (closureFrame _ _ _ _) = _
      rw [closureFrame_rename]
      have hm : Follows R ⟨constants, precision, invoke natives precision depth⟩
          ⟨constants.map (Datum.rename R), precision, invoke natives precision depth⟩ :=
        ⟨rfl, rfl, ih⟩
      exact body.denote_follows hm hsite _
    | native id name type => exact congrArg Except.ok (h R id args)
    | builtin name type =>
      exact Action.callBuiltin_rename name args precision fun g vs => ih (hsite.cons 0) g vs input

theorem ofPool_follows (h : natives.Uniform) (R : Renaming) (constants : List Value)
    (precision : Nat) :
    (ofPool natives constants precision).Follows R
      (ofPool natives (constants.map (Datum.rename R)) precision) :=
  ⟨rfl, rfl, invoke_follows h R precision callLimit⟩

end Machine

/-! ### Moving places -/

namespace Site

/-- Neither place is below the other. -/
def Apart (a b : Site) : Prop := ¬ a <:+ b ∧ ¬ b <:+ a

theorem apart_cons {i j : Nat} (h : i ≠ j) (site : Site) : Apart (i :: site) (j :: site) := by
  have hne : ∀ {i j : Nat}, i ≠ j → ¬ i :: site <:+ j :: site := fun h hsuffix =>
    h (List.head_eq_of_cons_eq (hsuffix.eq_of_length rfl))
  exact ⟨hne h, hne h.symm⟩

theorem Apart.symm {a b : Site} (h : Apart a b) : Apart b a := ⟨h.2, h.1⟩

/-- Nothing is below two places that are apart. -/
theorem Apart.not_suffix {a b p : Site} (h : Apart a b) (hb : b <:+ p) : ¬ a <:+ p := fun ha =>
  (List.suffix_or_suffix_of_suffix ha hb).elim h.1 h.2

theorem Apart.not_suffix_append {a b : Site} (h : Apart a b) (x : Site) : ¬ a <:+ x ++ b :=
  h.not_suffix (List.suffix_append x b)

/-- The places below one moved to those below another. -/
def move (a b p : Site) : Site := p.take (p.length - a.length) ++ b

@[simp] theorem move_append (a b x : Site) : move a b (x ++ a) = x ++ b := by
  rw [move, List.length_append, Nat.add_sub_cancel, List.take_left]

/-- What is below a place moved deeper. -/
def push (a k p : Site) : Site := if a <:+ p then move a (k ++ a) p else p

theorem push_append (a k x : Site) : push a k (x ++ a) = x ++ (k ++ a) := by
  rw [push, if_pos (List.suffix_append x a), move_append]

theorem push_injective (a k : Site) : Function.Injective (push a k) := by
  have hbelow : ∀ {p q : Site}, a <:+ p → ¬ a <:+ q → push a k p ≠ push a k q := by
    rintro _ q ⟨x, rfl⟩ hq heq
    rw [push_append, push, if_neg hq, ← List.append_assoc] at heq
    exact hq (heq ▸ List.suffix_append _ a)
  intro p q heq
  by_cases hp : a <:+ p <;> by_cases hq : a <:+ q
  · obtain ⟨x, rfl⟩ := hp
    obtain ⟨y, rfl⟩ := hq
    rw [push_append, push_append, List.append_left_inj] at heq
    rw [heq]
  · exact absurd heq (hbelow hp hq)
  · exact absurd heq.symm (hbelow hq hp)
  · rwa [push, push, if_neg hp, if_neg hq] at heq

/-- What is below two places exchanged. -/
def swap (a b p : Site) : Site :=
  if a <:+ p then move a b p else if b <:+ p then move b a p else p

theorem swap_append (a b x : Site) : swap a b (x ++ a) = x ++ b := by
  rw [swap, if_pos (List.suffix_append x a), move_append]

theorem Apart.swap_append {a b : Site} (h : Apart a b) (x : Site) :
    swap a b (x ++ b) = x ++ a := by
  rw [swap, if_neg (h.not_suffix_append x), if_pos (List.suffix_append x b), move_append]

theorem Apart.swap_involutive {a b : Site} (h : Apart a b) : Function.Involutive (swap a b) := by
  intro p
  by_cases ha : a <:+ p
  · obtain ⟨x, rfl⟩ := ha
    rw [Site.swap_append, h.swap_append]
  · by_cases hb : b <:+ p
    · obtain ⟨x, rfl⟩ := hb
      rw [h.swap_append, Site.swap_append]
    · have hp : swap a b p = p := by rw [swap, if_neg ha, if_neg hb]
      rw [hp, hp]

end Site

namespace Renaming

/-- A renaming that changes nothing but the places below given ones. -/
structure Within (R : Renaming) (places : List Site) : Prop where
  cursor : ∀ c, R.cursor c = c
  place : ∀ p, (∀ a ∈ places, ¬ a <:+ p) → R.place p = p

theorem Within.mono {R : Renaming} {places places' : List Site} (h : R.Within places)
    (hsub : ∀ a ∈ places, ∃ b ∈ places', b <:+ a) : R.Within places' := by
  refine ⟨h.cursor, fun p hp => h.place p fun a ha hap => ?_⟩
  obtain ⟨b, hb, hba⟩ := hsub a ha
  exact hp b hb (hba.trans hap)

/-- A renaming keeps the places that are apart from those it changes. -/
theorem Within.carries {R : Renaming} {places : List Site} (h : R.Within places) {site : Site}
    (hsite : ∀ a ∈ places, a.Apart site) : R.Carries site site := fun x =>
  h.place _ fun a ha => (hsite a ha).not_suffix_append x

/-- **Of two places one can be moved to the other**, with all that is below, so that nothing else
moves. -/
theorem exists_carries (a b : Site) :
    ∃ R : Renaming, R.Within [a, b] ∧ (R.Carries a b ∨ R.Carries b a) := by
  have hpush : ∀ a k : Site, ∃ R : Renaming, R.Within [a] ∧ R.Carries a (k ++ a) := fun a k =>
    ⟨⟨Site.push a k, id, Site.push_injective a k⟩,
      ⟨fun _ => rfl, fun p hp => if_neg (hp a List.mem_cons_self)⟩, Site.push_append a k⟩
  by_cases hab : a <:+ b
  · obtain ⟨k, rfl⟩ := hab
    obtain ⟨R, hR, hcarries⟩ := hpush a k
    refine ⟨R, hR.mono fun c hc => ?_, .inl hcarries⟩
    exact ⟨a, List.mem_cons_self, List.mem_singleton.mp hc ▸ List.suffix_refl c⟩
  · by_cases hba : b <:+ a
    · obtain ⟨k, rfl⟩ := hba
      obtain ⟨R, hR, hcarries⟩ := hpush b k
      refine ⟨R, hR.mono fun c hc => ?_, .inr hcarries⟩
      exact ⟨b, by simp, List.mem_singleton.mp hc ▸ List.suffix_refl c⟩
    · have hapart : a.Apart b := ⟨hab, hba⟩
      refine ⟨⟨Site.swap a b, id, hapart.swap_involutive.injective⟩,
        ⟨fun _ => rfl, fun p hp => ?_⟩, .inl (Site.swap_append a b)⟩
      show Site.swap a b p = p
      rw [Site.swap, if_neg (hp a (by simp)), if_neg (hp b (by simp))]

end Renaming

/-! ### What was made elsewhere -/

section Avoids

variable {places places' : List Site}

/-- No closure of the value was made below the places. -/
def Datum.Avoids (places : List Site) (v : Value) : Prop :=
  ∀ R : Renaming, R.Within places → v.rename R = v

/-- No closure in sight was made below the places. -/
def Frame.Avoids (places : List Site) (frame : Frame) : Prop :=
  ∀ R : Renaming, R.Within places → frame.rename R = frame

/-- No closure among the constants of the code was made below the places. -/
def Code.Avoids (places : List Site) (c : Code) : Prop :=
  ∀ R : Renaming, R.Within places → c.rename R = c

theorem Frame.Avoids.withTest {frame : Frame} (h : frame.Avoids places) {v : Value}
    (hv : v.Avoids places) : (frame.withTest v).Avoids places := fun R hR => by
  rw [← Frame.withTest_rename, h R hR, hv R hR]

theorem Frame.Avoids.mono {frame : Frame} (h : frame.Avoids places')
    (hsub : ∀ a ∈ places, ∃ b ∈ places', b <:+ a) : frame.Avoids places := fun R hR =>
  h R (hR.mono hsub)

theorem Datum.Avoids.mono {v : Value} (h : v.Avoids places')
    (hsub : ∀ a ∈ places, ∃ b ∈ places', b <:+ a) : v.Avoids places := fun R hR => h R (hR.mono hsub)

end Avoids

/-! ### Code on a machine -/

section Machines

variable {natives : Natives} {places : List Site} {constants : List Value}

/-- A machine over constants that avoid the places follows itself. -/
theorem Machine.follows_self (h : natives.Uniform) (hconstants : ∀ v ∈ constants, v.Avoids places)
    (precision : Nat) {R : Renaming} (hR : R.Within places) :
    (ofPool natives constants precision).Follows R (ofPool natives constants precision) := by
  have hmap : constants.map (Datum.rename R) = constants :=
    (List.map_congr_left fun v hv => hconstants v hv R hR).trans (List.map_id constants)
  have hfollows := ofPool_follows h R constants precision
  rwa [hmap] at hfollows

end Machines

end Feel
