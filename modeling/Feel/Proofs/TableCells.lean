import Feel.Proofs.MovedTerms
import Feel.Proofs.Programs

/-!
# The cells of a decision table

A table is lowered into one program, its cells and input expressions after each other. Each of
them does what its own program does, so that a rule matches where the programs of all its cells
give true of the values of the columns.

* `InputClause.testsOf`: the text of the tests that a cell stands for.
* `Definition.Moves`: tables whose texts can be moved.
* `Fragment.ofTable_stands`: the code of a table stands for the texts of its cells.
* `Decision.matched`, `Program.matched`: the rules that match in a run.
* `Program.matched_ofTable`: they are those whose cells all hold on their own.
-/

namespace Feel

/-- The text of the tests that a cell of a column stands for. A lone dash, with blanks around it
or without, stands for the allowed values. -/
def InputClause.testsOf (clause : InputClause) (entry : String) : String :=
  match Text.trim entry == "-", clause.allowedValues with
  | true, some allowed => allowed
  | _, _ => entry

/-- The texts of a table, other than those of its output columns, can be moved: input expressions
and outputs of rules, and the tests of cells and of allowed values, at the types of the programs
of their columns. -/
structure Definition.Moves (K : Value → Prop) (S : Scope) (d : Definition) : Prop where
  inputs : ∀ clause ∈ d.inputs, S.MovesExpression K clause.expression
  allowed : ∀ clause ∈ d.inputs, ∀ c, Program.ofExpression {} S clause.expression = .ok c →
    ∀ text, clause.allowedValues = some text → S.MovesTests K c.resultType text
  cells : ∀ r ∈ d.rules, ∀ x ∈ d.inputs.zip r.inputEntries, ∀ c,
    Program.ofExpression {} S x.1.expression = .ok c →
      S.MovesTests K c.resultType (x.1.testsOf x.2)
  outputs : ∀ r ∈ d.rules, ∀ text ∈ r.outputEntries, S.MovesExpression K text

/-! ### The code of a table -/

namespace Fragment

open Lowering (Keeps Alone)

/-- Code is that of the tests of a text, moved. -/
def StandsForTests (S : Scope) (subject : Ty) (text : String) (c : Code)
    (pool : List Value) : Prop :=
  ∃ g : Fragment, g.code = c ∧ (ofTestsText text (S.withTest subject)).Alone g pool

theorem StandsForTests.extend {S : Scope} {subject : Ty} {text : String} {c : Code}
    {pool pool' : List Value} (h : StandsForTests S subject text c pool) (hpool : pool <+: pool') :
    StandsForTests S subject text c pool' := by
  obtain ⟨g, hc, hg⟩ := h
  exact ⟨g, hc, hg.extend hpool⟩

/-- A lowered column is that of a clause with a program of its own. -/
structure InputColumn.StandsFor (S : Scope) (clause : InputClause) (c : Program)
    (column : InputColumn) (pool : List Value) : Prop where
  compiles : Program.ofExpression {} S clause.expression = .ok c
  input : ∃ g : Fragment, g.code = column.code ∧ (ofExpression clause.expression S).Alone g pool
  type : column.type = c.resultType
  allowed : Option.Rel (fun text code => StandsForTests S c.resultType text code pool)
    clause.allowedValues column.allowed

theorem InputColumn.StandsFor.extend {S : Scope} {clause : InputClause} {c : Program}
    {column : InputColumn} {pool pool' : List Value} (h : column.StandsFor S clause c pool)
    (hpool : pool <+: pool') : column.StandsFor S clause c pool' := by
  refine ⟨h.compiles, ?_, h.type, ?_⟩
  · obtain ⟨g, hg, halone⟩ := h.input
    exact ⟨g, hg, halone.extend hpool⟩
  · exact Option.Rel.imp (fun _ _ htests => htests.extend hpool) h.allowed

/-- The code of a cell stands for the tests of the cell. -/
abbrev CellStands (S : Scope) (x : InputClause × String) (code : Code)
    (pool : List Value) : Prop :=
  ∃ c, Program.ofExpression {} S x.1.expression = .ok c ∧
    StandsForTests S c.resultType (x.1.testsOf x.2) code pool

section Parts

variable {K : Value → Prop} (hK : ToldApart K) {S : Scope} (hlibraries : S.libraries = [.builtins])
  {pool : List Value}
include hK hlibraries

theorem keeps_testsOn {subject : Ty} {text : String} (h : S.MovesTests K subject text) :
    Keeps K pool (testsOn subject text S) (StandsForTests S subject text) :=
  .bind (.of_pairs fun _ _ _ => pairs_ofTestsText hK hlibraries h) fun g _ _ hg =>
    .pure fun _ hpool => ⟨g, rfl, hg.extend hpool⟩

theorem keeps_inputColumn {clause : InputClause} {c : Program}
    (hc : Program.ofExpression {} S clause.expression = .ok c)
    (hinput : S.MovesExpression K clause.expression)
    (hallowed : ∀ text, clause.allowedValues = some text → S.MovesTests K c.resultType text) :
    Keeps K pool (inputColumn S clause) fun column pool' =>
      column.StandsFor S clause c pool' := by
  refine .bind (.of_pairs fun _ _ _ => pairs_ofExpression hK hlibraries hinput)
    fun g pool₁ _ hg => ?_
  -- the column has the type of the program of its expression
  obtain ⟨f, d, hf, rfl⟩ := Program.of_ofExpression hc
  obtain ⟨shift, hmoved⟩ := hg f d hf
  have htype : g.type = f.type := hmoved.type
  rw [htype]
  refine .bind (.optional fun text htext => keeps_testsOn hK hlibraries (hallowed text htext))
    fun allowed pool₂ h₂ hstands => ?_
  refine .pure fun pool₃ h₃ => ⟨hc, ⟨g, rfl, hg.extend (h₂.trans h₃)⟩, rfl, ?_⟩
  exact Option.Rel.imp (fun _ _ htests => htests.extend h₃) hstands

/-- A lone dash is the code of the allowed values, and any other cell has code of its own. -/
theorem keeps_cell {clause : InputClause} {c : Program} {column : InputColumn} {entry : String}
    (hcolumn : column.StandsFor S clause c pool)
    (h : S.MovesTests K c.resultType (clause.testsOf entry)) :
    Keeps K pool (cell S column entry) (CellStands S (clause, entry)) := by
  have hown : clause.testsOf entry = entry →
      Keeps K pool (testsOn column.type entry S) (CellStands S (clause, entry)) := by
    intro hentry
    rw [hentry, ← hcolumn.type] at h
    refine (keeps_testsOn hK hlibraries h).imp fun code pool' _ hcode => ?_
    refine ⟨c, hcolumn.compiles, ?_⟩
    rw [← hcolumn.type, hentry]
    exact hcode
  have hrel := hcolumn.allowed
  unfold cell
  cases hdash : Text.trim entry == "-" with
  | false => exact hown (by rw [InputClause.testsOf, hdash])
  | true =>
    cases hallowed : column.allowed with
    | none =>
      rw [hallowed] at hrel
      refine hown ?_
      cases hvalues : clause.allowedValues with
      | none => rw [InputClause.testsOf, hdash, hvalues]
      | some text =>
        rw [hvalues] at hrel
        cases hrel
    | some code =>
      rw [hallowed] at hrel
      cases hvalues : clause.allowedValues with
      | none =>
        rw [hvalues] at hrel
        cases hrel
      | some text =>
        rw [hvalues] at hrel
        cases hrel with
        | some htests =>
          refine .pure fun pool' hpool => ⟨c, hcolumn.compiles, ?_⟩
          have htext : clause.testsOf entry = text := by rw [InputClause.testsOf, hdash, hvalues]
          exact htext.symm ▸ htests.extend hpool

theorem keeps_cells {clauses : List InputClause} {columns : List InputColumn}
    (hcolumns : List.Forall₂ (fun clause column => ∃ c, column.StandsFor S clause c pool)
      clauses columns) {entries : List String}
    (h : ∀ x ∈ clauses.zip entries, ∀ c, Program.ofExpression {} S x.1.expression = .ok c →
      S.MovesTests K c.resultType (x.1.testsOf x.2)) :
    Keeps K pool ((columns.zip entries).mapM fun x => cell S x.1 x.2) fun codes pool' =>
      List.Forall₂ (fun x code => CellStands S x code pool') (clauses.zip entries) codes := by
  induction clauses generalizing columns entries pool with
  | nil =>
    cases hcolumns
    rw [List.zip_nil_left, List.zip_nil_left]
    exact .pure fun _ _ => .nil
  | cons clause clauses ih =>
    cases entries with
    | nil =>
      rw [List.zip_nil_right, List.zip_nil_right]
      exact .pure fun _ _ => .nil
    | cons entry entries =>
      rw [List.zip_cons_cons, List.forall_mem_cons] at h
      obtain ⟨column, columns, ⟨c, hcolumn⟩, hrest, rfl⟩ := List.forall₂_cons_left_iff.mp hcolumns
      rw [List.zip_cons_cons, List.zip_cons_cons, List.mapM_cons]
      refine .bind (keeps_cell hK hlibraries hcolumn (h.1 c hcolumn.compiles))
        fun code pool₁ h₁ hcode => ?_
      refine .bind (ih (hrest.imp fun _ _ ⟨c, hc⟩ => ⟨c, hc.extend h₁⟩) h.2)
        fun codes pool₂ h₂ hcodes => ?_
      refine .pure fun pool₃ h₃ => .cons ?_ (hcodes.imp fun _ _ ⟨c, hc, hstands⟩ =>
        ⟨c, hc, hstands.extend h₃⟩)
      obtain ⟨c', hc', hstands⟩ := hcode
      exact ⟨c', hc', hstands.extend (h₂.trans h₃)⟩

/-- The conditions of a rule stand for its cells. -/
theorem keeps_rule {clauses : List InputClause} {columns : List InputColumn}
    (hcolumns : List.Forall₂ (fun clause column => ∃ c, column.StandsFor S clause c pool)
      clauses columns) {r : RuleDefinition}
    (hcells : ∀ x ∈ clauses.zip r.inputEntries, ∀ c,
      Program.ofExpression {} S x.1.expression = .ok c →
        S.MovesTests K c.resultType (x.1.testsOf x.2))
    (houtputs : ∀ text ∈ r.outputEntries, S.MovesExpression K text) :
    Keeps K pool (rule S columns r) fun row pool' =>
      List.Forall₂ (fun x code => CellStands S x code pool') (clauses.zip r.inputEntries)
        row.1.conditions := by
  refine .bind (keeps_cells hK hlibraries hcolumns hcells) fun codes pool₁ _ hcodes => ?_
  have houtput : ∀ text ∈ r.outputEntries, ∀ pool', pool₁ <+: pool' →
      Keeps K pool' (ofExpression text S) fun _ _ => True := fun text htext _ _ =>
    (Keeps.of_pairs fun _ _ _ => pairs_ofExpression hK hlibraries (houtputs text htext)).imp
      fun _ _ _ _ => .intro
  refine .bind (.mapM (R := fun _ _ _ => True) (fun _ _ _ _ _ _ => .intro) houtput)
    fun outputs pool₂ h₂ _ => ?_
  refine .pure fun pool₃ h₃ => hcodes.imp fun _ _ ⟨c, hc, hstands⟩ => ?_
  exact ⟨c, hc, hstands.extend (h₂.trans h₃)⟩

end Parts

theorem grows_outputColumn {pool : List Value} (S : Scope) (clause : OutputClause) :
    (outputColumn S clause).Grows pool := by
  have htests : ∀ text pool, (testsOn .any text S).Grows pool := fun text _ =>
    .bind (grows_ofTestsText text _) fun _ _ => .pure _
  have hpriorities : ∀ text pool, (priorities text S).Grows pool := by
    intro text pool
    refine .bind (.lift _) fun tree pool' => ?_
    split
    · refine .mapM fun test _ pool'' => ?_
      exact .bind (grows_ofTestsTree _ _ _) fun _ _ => .pure _
    · exact .pure _
  refine .bind (.optional fun text pool' => htests text pool') fun check pool₁ => ?_
  have hrest : ∀ (priorities : List Code) (pool : List Value), Lowering.Grows pool (do
      let fallback ← clause.defaultEntry.mapM fun entry => do
        return (← ofExpression entry S).code
      return (⟨clause.name, check, priorities, fallback⟩ : MatrixOutput Code)) := by
    intro priorities pool
    refine .bind (.optional fun text pool' => ?_) fun _ _ => .pure _
    exact .bind (grows_ofExpression text S) fun _ _ => .pure _
  dsimp only
  split
  · exact .bind (hpriorities _ _) hrest
  · exact .bind (.pure _) hrest

/-- The inputs and conditions of a table stand for the texts of its columns and cells. -/
structure TableStands (S : Scope) (d : Definition) (t : DecisionMatrix Code)
    (pool : List Value) : Prop where
  policy : t.hitPolicy = d.hitPolicy
  inputs : List.Forall₂ (fun clause code => ∃ g : Fragment, g.code = code ∧
    (ofExpression clause.expression S).Alone g pool) d.inputs t.inputs
  rules : List.Forall₂ (fun r row => List.Forall₂ (fun x code => CellStands S x code pool)
    (d.inputs.zip r.inputEntries) row.conditions) d.rules t.rules

theorem ofTable_stands {K : Value → Prop} (hK : ToldApart K) {S : Scope}
    (hlibraries : S.libraries = [.builtins]) {d : Definition} (h : d.Moves K S)
    (hcompile : ∀ clause ∈ d.inputs, ∃ c, Program.ofExpression {} S clause.expression = .ok c)
    {g : Fragment} {e : Draft} (hrun : ofTable d S {} = .ok (g, e)) :
    ∃ t, g.code = .decision t ∧ TableStands S d t e.constants := by
  obtain ⟨⟨columns, d₁⟩, hcolumns, hrun⟩ := bind_eq_ok.mp hrun
  obtain ⟨⟨rules, d₂⟩, hrules, hrun⟩ := bind_eq_ok.mp hrun
  obtain ⟨⟨outputs, d₃⟩, houtputs, hrun⟩ := bind_eq_ok.mp hrun
  have hinput : ∀ clause ∈ d.inputs, ∀ pool', Keeps K pool' (inputColumn S clause)
      fun column pool => ∃ c, column.StandsFor S clause c pool := by
    intro clause hclause pool'
    obtain ⟨c, hc⟩ := hcompile clause hclause
    exact (keeps_inputColumn hK hlibraries hc (h.inputs clause hclause)
      (h.allowed clause hclause c hc)).imp fun _ _ _ hstands => ⟨c, hstands⟩
  obtain ⟨-, hfaithful, hcolumns⟩ := Keeps.mapM (fun _ _ _ _ ⟨c, hc⟩ hpool => ⟨c, hc.extend hpool⟩)
    (fun clause hclause pool' _ => hinput clause hclause pool') {} columns d₁
    ⟨nofun, List.nodup_nil⟩ List.nil_prefix hcolumns
  have hrule : ∀ r ∈ d.rules, ∀ pool', d₁.constants <+: pool' → Keeps K pool' (rule S columns r)
      fun row pool => List.Forall₂ (fun x code => CellStands S x code pool)
        (d.inputs.zip r.inputEntries) row.1.conditions := fun r hr pool' hpool =>
    keeps_rule hK hlibraries (hcolumns.imp fun _ _ ⟨c, hc⟩ => ⟨c, hc.extend hpool⟩)
      (h.cells r hr) (h.outputs r hr)
  obtain ⟨hgrow, -, hrules⟩ := Keeps.mapM
    (fun _ _ _ _ hcells hpool => hcells.imp fun _ _ ⟨c, hc, hstands⟩ =>
      ⟨c, hc, hstands.extend hpool⟩) hrule d₁ rules d₂ hfaithful (List.prefix_refl _) hrules
  obtain ⟨hmore, -⟩ := Lowering.Grows.mapM (fun clause _ pool => grows_outputColumn S clause)
    d₂ outputs d₃ (List.prefix_refl _) houtputs
  cases hrun
  refine ⟨_, rfl, rfl, ?_, ?_⟩
  · refine List.forall₂_map_right_iff.mpr (hcolumns.imp fun clause column ⟨c, hc⟩ => ?_)
    obtain ⟨g, hg, halone⟩ := hc.input
    exact ⟨g, hg, halone.extend (hgrow.trans hmore)⟩
  · refine List.forall₂_map_right_iff.mpr (hrules.imp fun r row hcells => ?_)
    exact hcells.imp fun x code ⟨c, hc, hstands⟩ => ⟨c, hc, hstands.extend hmore⟩

end Fragment

/-! ### Rules that match -/

namespace Decision

variable {frame : Frame}

/-- Conditions that give values wherever they run accept the inputs where all of them are true. -/
theorem accepts_eq {conditions : List Action} {inputs ws : List Value}
    (h : List.Forall₂ (fun x w => ∀ site, x.1 site (frame.withTest x.2) = .ok w)
      (conditions.zip inputs) ws) (site : Site) (i : Nat) :
    accepts site frame i conditions inputs = .ok (ws.all (·.isBool true)) := by
  induction conditions generalizing inputs ws i with
  | nil =>
    cases h
    rfl
  | cons c cs ih =>
    cases inputs with
    | nil =>
      cases h
      rfl
    | cons v vs =>
      obtain ⟨w, ws, hw, hrest, rfl⟩ := List.forall₂_cons_left_iff.mp h
      have hholds : c.holds (i :: site) frame v = .ok (w.isBool true) :=
        bind_eq_ok.mpr ⟨w, hw (i :: site), rfl⟩
      refine bind_eq_ok.mpr ⟨_, hholds, ?_⟩
      rw [List.all_cons]
      cases w.isBool true with
      | true => exact ih hrest (i + 1)
      | false => rfl

/-- The search finds the numbers of the rules that accept the inputs; where one is enough, it ends
with the first of them. -/
theorem mem_matching {rules : List (MatrixRule Action)} {inputs : List Value} {bs : List Bool}
    (h : List.Forall₂ (fun r b => ∀ site,
      accepts site frame 0 r.conditions inputs = .ok b) rules bs)
    (site : Site) (onlyFirst : Bool) (i : Nat) :
    ∃ hits, matching site frame inputs onlyFirst i rules = .ok hits ∧
      (∀ k ∈ hits.map (·.1), i ≤ k) ∧
      ∀ n, i + n ∈ hits.map (·.1) ↔
        bs[n]? = some true ∧ (onlyFirst = true → ∀ m < n, bs[m]? ≠ some true) := by
  induction h generalizing i with
  | nil => exact ⟨[], rfl, nofun, fun n => by simp⟩
  | @cons r b rules bs hr _ ih =>
    obtain ⟨rest, hrest, hlater, hmem⟩ := ih (i + 1)
    have hnumber : ∀ n, i + (n + 1) = i + 1 + n := fun n => by omega
    have hnot : i ∉ rest.map (·.1) := fun hi => absurd (hlater i hi) (by omega)
    cases b with
    | false =>
      refine ⟨rest, bind_eq_ok.mpr ⟨false, hr _, hrest⟩, fun k hk => ?_, fun n => ?_⟩
      · exact Nat.le_of_succ_le (hlater k hk)
      · cases n with
        | zero => simpa using hnot
        | succ n =>
          rw [hnumber, hmem n, List.getElem?_cons_succ]
          refine and_congr_right fun _ => imp_congr_right fun _ => ⟨fun hm m hlt => ?_,
            fun hm m hlt => hm (m + 1) (Nat.succ_lt_succ hlt)⟩
          cases m with
          | zero => exact nofun
          | succ m => exact hm m (Nat.lt_of_succ_lt_succ hlt)
    | true =>
      cases onlyFirst with
      | true =>
        refine ⟨[(i, r)], bind_eq_ok.mpr ⟨true, hr _, rfl⟩, fun k hk => ?_, fun n => ?_⟩
        · exact Nat.le_of_eq (List.mem_singleton.mp hk).symm
        · cases n with
          | zero => simp
          | succ n =>
            refine iff_of_false (fun hn => ?_) fun hn => hn.2 rfl 0 (Nat.succ_pos n) rfl
            have heq : i + (n + 1) = i := List.mem_singleton.mp hn
            omega
      | false =>
        refine ⟨(i, r) :: rest, bind_eq_ok.mpr ⟨true, hr _, bind_eq_ok.mpr ⟨rest, hrest, rfl⟩⟩,
          fun k hk => ?_, fun n => ?_⟩
        · rcases List.mem_cons.mp hk with rfl | hk
          · exact Nat.le_refl _
          · exact Nat.le_of_succ_le (hlater k hk)
        · rw [List.map_cons, List.mem_cons]
          cases n with
          | zero => simp
          | succ n =>
            have hne : i + 1 + n ≠ i := by omega
            rw [hnumber, hmem n, List.getElem?_cons_succ]
            simp [hne]

/-- The rules that match in a run of a table, with their numbers. -/
def matched (table : DecisionMatrix Action) (site : Site) (frame : Frame) :
    Except EvalError (List (Nat × MatrixRule Action)) := do
  let inputs ← Action.all (0 :: site) frame 0 table.inputs
  matching (1 :: site) frame inputs (table.hitPolicy == .first) 1 table.rules

end Decision

/-! ### Runs of tables -/

namespace Program

variable {S : Scope} {natives : Natives} {input : Value} {pool : List Value}

/-- What the code of a fragment does in a program with a pool. -/
def action (o : Options) (natives : Natives) (pool : List Value) (c : Code) : Action :=
  (finished o pool c).denote (.ofPool natives pool o.precision)

/-- The cells of a table do in its program what each of them does. -/
theorem finished_decision (o : Options) (pool : List Value) (t : DecisionMatrix Code) :
    ∃ t', finished o pool (.decision t) = .decision t' ∧ ∀ natives,
      Code.denoteMatrix (.ofPool natives pool o.precision) t' = t.map (action o natives pool) := by
  by_cases hfolding : o.folding = true
  · rw [finished, if_pos hfolding]
    refine ⟨Code.simplifyMatrix pool o.precision t, rfl, fun natives => ?_⟩
    rw [Code.denoteMatrix_eq, Code.simplifyMatrix_eq, DecisionMatrix.map_map]
    refine congrArg (t.map ·) (funext fun c => ?_)
    rw [action, finished, if_pos hfolding, Function.comp]
  · rw [finished, if_neg hfolding]
    refine ⟨t, rfl, fun natives => ?_⟩
    rw [Code.denoteMatrix_eq]
    refine congrArg (t.map ·) (funext fun c => ?_)
    rw [action, finished, if_neg hfolding]

/-- The program of a definition has the pool of the lowering, and a table whose cells do what each
of them does over that pool. -/
theorem exists_root_ofTable {entry : EntryPoint} {d : Definition} {p : Program}
    (hp : ofTable entry S d = .ok p) :
    ∃ g e, (Fragment.ofTable d S).run {} = .ok (g, e) ∧ p.constants = e.constants ∧
      p.precision = some S.options.precision ∧ ∀ t, g.code = .decision t →
        ∃ t', p.root = .decision t' ∧ ∀ natives,
          Code.denoteMatrix (.ofPool natives e.constants S.options.precision) t' =
            t.map (action S.options natives e.constants) := by
  obtain ⟨-, -, hp⟩ := bind_eq_ok.mp hp
  obtain ⟨⟨g, e⟩, hg, hp⟩ := bind_eq_ok.mp hp
  have hp : ofFragment entry .decisionTable d.toJson.text (some d.name) S.options g e = p :=
    pure_eq_ok.mp hp
  refine ⟨g, e, hg, congrArg constants hp.symm, congrArg precision hp.symm, fun t ht => ?_⟩
  obtain ⟨t', hroot, htable⟩ := finished_decision S.options e.constants t
  refine ⟨t', ?_, htable⟩
  rw [← hp, ← hroot, ← ht]
  rfl

/-- The numbers of the rules that match in a run of the program of a table. -/
def matched (p : Program) (natives : Natives) (input : Value) : Except EvalError (List Nat) :=
  match p.root with
  | .decision t => do
    let machine := Machine.ofPool natives p.constants (p.precision.getD Number.defaultPrecision)
    let rules ← Decision.matched (Code.denoteMatrix machine t) [] (.ofInput input)
    return rules.map (·.1)
  | _ => return []

/-- An input column on its own: the program of its expression, and its value over an input. -/
structure ColumnRuns (S : Scope) (natives : Natives) (input : Value) (clause : InputClause)
    (c : Program × Value) : Prop where
  compiles : ofExpression {} S clause.expression = .ok c.1
  runs : c.1.run natives input none = .ok c.2

/-- A cell on its own: the program of its tests, with a value under test of the type of the
column's program, gives a value over the value of the column. -/
def CellGives (S : Scope) (natives : Natives) (input : Value)
    (x : (InputClause × Program × Value) × String) (w : Value) : Prop :=
  ∃ q, ofTests {} (S.withTest x.1.2.1.resultType) (x.1.1.testsOf x.2) = .ok q ∧
    q.run natives input (some x.1.2.2) = .ok w

/-- All cells of a rule hold on their own. -/
def RuleHolds (S : Scope) (natives : Natives) (input : Value)
    (columns : List (InputClause × Program × Value)) (r : RuleDefinition) : Prop :=
  ∀ x ∈ columns.zip r.inputEntries, CellGives S natives input x (.boolean true)

theorem CellGives.unique {x : (InputClause × Program × Value) × String} {v w : Value}
    (hv : CellGives S natives input x v) (hw : CellGives S natives input x w) : v = w := by
  obtain ⟨q, hq, hv⟩ := hv
  obtain ⟨q', hq', hw⟩ := hw
  rw [hq] at hq'
  cases hq'
  rw [hv] at hw
  exact Except.ok.inj hw

/-- The code that stands for an input expression gives the value of its program. -/
theorem action_of_alone {clause : InputClause} {c : Program × Value} {g : Fragment}
    (h : (Fragment.ofExpression clause.expression S).Alone g pool)
    (hc : ColumnRuns S natives input clause c) (site : Site) :
    action S.options natives pool g.code site (.ofInput input) = .ok c.2 := by
  obtain ⟨f, d, hf, hp⟩ := of_ofExpression hc.compiles
  obtain ⟨shift, hmoved⟩ := h f d hf
  rw [← hc.runs, hp]
  exact run_of_moved hmoved natives input none site

/-- The code that stands for a cell gives the value of the program of its tests. -/
theorem action_of_cellStands {clause : InputClause} {c : Program × Value} {entry : String}
    {code : Code} (h : Fragment.CellStands S (clause, entry) code pool)
    (hc : ColumnRuns S natives input clause c) {w : Value}
    (hw : CellGives S natives input ((clause, c), entry) w) (site : Site) :
    action S.options natives pool code site ((Frame.ofInput input).withTest c.2) = .ok w := by
  obtain ⟨c', hc', g, rfl, halone⟩ := h
  have heq : c.1 = c' := Except.ok.inj (hc.compiles.symm.trans hc')
  subst heq
  obtain ⟨q, hq, hw⟩ := hw
  obtain ⟨⟨f, d⟩, hf, hp⟩ := bind_eq_ok.mp hq
  obtain ⟨shift, hmoved⟩ := halone f d hf
  rw [← hw, ← pure_eq_ok.mp hp]
  exact run_of_moved hmoved natives input (some c.2) site

/-- The conditions of a rule give the values of the programs of its cells. -/
theorem conditions_run {clauses : List InputClause} {columns : List (Program × Value)}
    (hcolumns : List.Forall₂ (ColumnRuns S natives input) clauses columns)
    {entries : List String} {codes : List Code}
    (hcodes : List.Forall₂ (fun x code => Fragment.CellStands S x code pool)
      (clauses.zip entries) codes)
    (hcells : ∀ x ∈ (clauses.zip columns).zip entries, ∃ w, CellGives S natives input x w) :
    ∃ ws, List.Forall₂ (fun x w => ∀ site,
        x.1 site ((Frame.ofInput input).withTest x.2) = .ok w)
          ((codes.map (action S.options natives pool)).zip (columns.map (·.2))) ws ∧
      (ws.all (·.isBool true) = true ↔
        ∀ x ∈ (clauses.zip columns).zip entries, CellGives S natives input x (.boolean true)) := by
  induction hcolumns generalizing entries codes with
  | nil =>
    refine ⟨[], ?_, by simp⟩
    rw [List.map_nil, List.zip_nil_right]
    exact .nil
  | @cons clause c clauses columns hc _ ih =>
    cases entries with
    | nil =>
      cases hcodes
      exact ⟨[], .nil, by simp⟩
    | cons entry entries =>
      rw [List.zip_cons_cons] at hcodes
      rw [List.zip_cons_cons, List.zip_cons_cons, List.forall_mem_cons] at hcells
      obtain ⟨code, codes, hcode, hrest, rfl⟩ := List.forall₂_cons_left_iff.mp hcodes
      obtain ⟨⟨w, hw⟩, hcells⟩ := hcells
      obtain ⟨ws, hws, hall⟩ := ih hrest hcells
      refine ⟨w :: ws, .cons (action_of_cellStands hcode hc hw) hws, ?_⟩
      rw [List.all_cons, Bool.and_eq_true, hall, List.zip_cons_cons, List.zip_cons_cons,
        List.forall_mem_cons]
      refine and_congr_left fun _ => ⟨fun htrue => ?_, fun htrue => ?_⟩
      · rw [Code.isBool_iff.mp htrue] at hw
        exact hw
      · rw [hw.unique htrue]
        rfl

/-- The input expressions of a table give the values of their programs. -/
theorem inputs_run {clauses : List InputClause} {columns : List (Program × Value)}
    (hcolumns : List.Forall₂ (ColumnRuns S natives input) clauses columns) {codes : List Code}
    (hcodes : List.Forall₂ (fun clause code => ∃ g : Fragment, g.code = code ∧
      (Fragment.ofExpression clause.expression S).Alone g pool) clauses codes) (site : Site)
    (i : Nat) :
    Action.all site (.ofInput input) i (codes.map (action S.options natives pool)) =
      .ok (columns.map (·.2)) := by
  induction hcolumns generalizing codes i with
  | nil =>
    cases hcodes
    rfl
  | cons hc _ ih =>
    obtain ⟨code, codes, ⟨g, rfl, halone⟩, hrest, rfl⟩ := List.forall₂_cons_left_iff.mp hcodes
    exact bind_eq_ok.mpr ⟨_, action_of_alone halone hc (i :: site),
      bind_eq_ok.mpr ⟨_, ih hrest (i + 1), rfl⟩⟩

/-- The rules of a table accept the values of the columns where their cells hold. -/
theorem rules_run {clauses : List InputClause} {columns : List (Program × Value)}
    (hcolumns : List.Forall₂ (ColumnRuns S natives input) clauses columns)
    {rules : List RuleDefinition} {rows : List (MatrixRule Code)}
    (hrows : List.Forall₂ (fun r row => List.Forall₂
      (fun x code => Fragment.CellStands S x code pool) (clauses.zip r.inputEntries)
        row.conditions) rules rows)
    (hcells : ∀ r ∈ rules, ∀ x ∈ (clauses.zip columns).zip r.inputEntries,
      ∃ w, CellGives S natives input x w) {us : List (MatrixRule Action)}
    (hus : us.map (·.conditions) =
      (rows.map (·.conditions)).map fun cs => cs.map (action S.options natives pool)) :
    ∃ bs : List Bool, List.Forall₂ (fun u b => ∀ site,
        Decision.accepts site (.ofInput input) 0 u.conditions (columns.map (·.2)) = .ok b) us bs ∧
      ∀ (i : Nat) (r : RuleDefinition), rules[i]? = some r →
        (bs[i]? = some true ↔ RuleHolds S natives input (clauses.zip columns) r) := by
  induction hrows generalizing us with
  | nil =>
    rw [List.map_eq_nil_iff.mp hus]
    exact ⟨[], .nil, nofun⟩
  | @cons r row rules rows hrow _ ih =>
    rw [List.forall_mem_cons] at hcells
    obtain ⟨u, us, rfl, hu, hus⟩ := List.map_eq_cons_iff.mp hus
    obtain ⟨bs, hbs, hrules⟩ := ih hcells.2 hus
    obtain ⟨ws, hws, hall⟩ := conditions_run hcolumns hrow hcells.1
    refine ⟨ws.all (·.isBool true) :: bs, .cons (fun site => ?_) hbs, fun i r' hr' => ?_⟩
    · rw [hu]
      exact Decision.accepts_eq hws site 0
    · cases i with
      | zero =>
        cases hr'
        rw [List.getElem?_cons_zero, Option.some_inj]
        exact hall
      | succ i => exact hrules i r' hr'

/-- **The rules of a table match by their cells.** Where the input expressions and the cells
compile on their own and do not fail, a rule matches when the tests of all its cells hold, each of
them of the value of its column; where the first rule is enough, no rule before it may match. -/
theorem matched_ofTable {entry : EntryPoint} (hlibraries : S.libraries = [.builtins])
    {d : Definition} {p : Program} (hp : ofTable entry S d = .ok p) {K : Value → Prop}
    (hK : ToldApart K) (hmoves : d.Moves K S) {columns : List (Program × Value)}
    (hcolumns : List.Forall₂ (ColumnRuns S natives input) d.inputs columns)
    (hcells : ∀ r ∈ d.rules, ∀ x ∈ (d.inputs.zip columns).zip r.inputEntries,
      ∃ w, CellGives S natives input x w) :
    ∃ numbers, p.matched natives input = .ok numbers ∧
      ∀ i r, d.rules[i]? = some r →
        (i + 1 ∈ numbers ↔ RuleHolds S natives input (d.inputs.zip columns) r ∧
          (d.hitPolicy = .first → ∀ j < i, ∀ r', d.rules[j]? = some r' →
            ¬ RuleHolds S natives input (d.inputs.zip columns) r')) := by
  obtain ⟨g, e, hg, hconstants, hprecision, hroot⟩ := exists_root_ofTable hp
  have hcompile : ∀ clause ∈ d.inputs, ∃ c, ofExpression {} S clause.expression = .ok c := by
    clear hcells
    generalize d.inputs = clauses at hcolumns
    induction hcolumns with
    | nil => exact nofun
    | cons hc _ ih => exact List.forall_mem_cons.mpr ⟨⟨_, hc.compiles⟩, ih⟩
  obtain ⟨t, ht, hstands⟩ := Fragment.ofTable_stands hK hlibraries hmoves hcompile hg
  obtain ⟨t', hdecision, htable⟩ := hroot t ht
  have hconditions : (t.map (action S.options natives e.constants)).rules.map (·.conditions) =
      (t.rules.map (·.conditions)).map fun cs => cs.map (action S.options natives e.constants) := by
    rw [DecisionMatrix.map, List.map_map, List.map_map]
    rfl
  obtain ⟨bs, hbs, hholds⟩ := rules_run hcolumns hstands.rules hcells hconditions
  obtain ⟨hits, hhits, -, hmem⟩ := Decision.mem_matching hbs [1] (t.hitPolicy == .first) 1
  have hmatched : p.matched natives input = .ok (hits.map (·.1)) := by
    rw [matched, hdecision, hconstants, hprecision]
    refine bind_eq_ok.mpr ⟨hits, bind_eq_ok.mpr ⟨columns.map (·.2), ?_, ?_⟩, rfl⟩
    · rw [Option.getD_some, htable]
      exact inputs_run hcolumns hstands.inputs [0] 0
    · rw [Option.getD_some, htable]
      exact hhits
  refine ⟨_, hmatched, fun i r hr => ?_⟩
  rw [Nat.add_comm i 1, hmem i, hholds i r hr, beq_iff_eq, hstands.policy]
  refine and_congr_right fun _ => imp_congr_right fun _ => forall₂_congr fun j hj => ?_
  -- the rules before the one at `i` are all there
  obtain ⟨hlt, -⟩ := List.getElem?_eq_some_iff.mp hr
  have hr' := List.getElem?_eq_getElem (Nat.lt_trans hj hlt)
  rw [Ne, hholds j _ hr']
  refine ⟨fun hnot r'' hr'' => ?_, fun hall => hall _ hr'⟩
  cases hr'.symm.trans hr''
  exact hnot

/-- A value that is allowed matches a lone dash and the cell that it is written in, and no other. -/
theorem matched_ofTable_dash :
    ∃ p numbers, ofTable {} (inputScope (.context [("open", .boolean)]))
        ⟨"fee", [⟨"open", some "true"⟩], [⟨none, none, none⟩], [],
          [⟨["true"], ["1"], []⟩, ⟨["false"], ["2"], []⟩, ⟨[" - "], ["3"], []⟩],
          .ruleOrder, none⟩ = .ok p ∧
      p.matched (fun _ _ => .null) (.context [("open", .boolean true)]) = .ok numbers ∧
        1 ∈ numbers ∧ 2 ∉ numbers ∧ 3 ∈ numbers := by
  let S : Scope := inputScope (.context [("open", .boolean)])
  let input : Value := .context [("open", .boolean true)]
  let natives : Natives := fun _ _ => .null
  let d : Definition := ⟨"fee", [⟨"open", some "true"⟩], [⟨none, none, none⟩], [],
    [⟨["true"], ["1"], []⟩, ⟨["false"], ["2"], []⟩, ⟨[" - "], ["3"], []⟩], .ruleOrder, none⟩
  have htable : ((ofTable {} S d).toOption.map fun _ => ()) = some () := by decide +kernel
  obtain ⟨p, hp, -⟩ := exists_ok htable
  have hcolumn : ((ofExpression {} S "open").toOption.bind fun c =>
      (c.run natives input none).toOption.map fun v =>
        (c.resultType, v.isBool true)) = some (.boolean, true) := by decide +kernel
  have htrue : ((ofTests {} (S.withTest .boolean) "true").toOption.bind fun q =>
      (q.run natives input (some (.boolean true))).toOption.map fun v => v.isBool true) =
        some true := by decide +kernel
  have hfalse : ((ofTests {} (S.withTest .boolean) "false").toOption.bind fun q =>
      (q.run natives input (some (.boolean true))).toOption.map fun v => v.isBool false) =
        some true := by decide +kernel
  obtain ⟨c, v, hc, hv, hsee⟩ := exists_run hcolumn
  obtain ⟨q, w, hq, hw, hwtrue⟩ := exists_run htrue
  obtain ⟨q', w', hq', hw', hwfalse⟩ := exists_run hfalse
  have htype : c.resultType = .boolean := congrArg (·.1) hsee
  cases Code.isBool_iff.mp (congrArg (·.2) hsee : v.isBool true = true)
  cases Code.isBool_iff.mp hwtrue
  cases Code.isBool_iff.mp hwfalse
  have hunique : ∀ c', ofExpression {} S "open" = .ok c' → c'.resultType = .boolean := by
    intro c' hc'
    cases hc.symm.trans hc'
    exact htype
  have htests : ∀ text ∈ ["true", "false"], S.MovesTests (fun _ => False) .boolean text := by
    intro text htext
    rcases List.mem_pair.mp htext with rfl | rfl
    · exact Scope.movesTests_of_unpooled (by decide +kernel)
    · exact Scope.movesTests_of_unpooled (by decide +kernel)
  have hmoves : d.Moves (fun _ => False) S := by
    refine ⟨?_, ?_, ?_, ?_⟩
    · exact List.forall_mem_singleton.mpr (Scope.movesExpression_of_unpooled (by decide +kernel))
    · refine List.forall_mem_singleton.mpr fun c' hc' text htext => ?_
      cases htext
      rw [hunique c' hc']
      exact htests _ (by decide)
    · have hcell : ∀ r ∈ d.rules, ∀ x ∈ d.inputs.zip r.inputEntries,
          x.1.expression = "open" ∧ x.1.testsOf x.2 ∈ ["true", "false"] := by decide +kernel
      intro r hr x hx c' hc'
      obtain ⟨hexpression, htext⟩ := hcell r hr x hx
      rw [hexpression] at hc'
      rw [hunique c' hc']
      exact htests _ htext
    · have houtput : ∀ r ∈ d.rules, ∀ text ∈ r.outputEntries, text ∈ ["1", "2", "3"] := by
        decide +kernel
      intro r hr text htext
      have hmem := houtput r hr text htext
      simp only [List.mem_cons, List.not_mem_nil, or_false] at hmem
      rcases hmem with rfl | rfl | rfl <;>
        exact Scope.movesExpression_of_unpooled (by decide +kernel)
  have hcell : ∀ (entry : String) {text : String} {u : Value} {r : Program},
      InputClause.testsOf ⟨"open", some "true"⟩ entry = text →
      ofTests {} (S.withTest .boolean) text = .ok r →
      r.run natives input (some (.boolean true)) = .ok u →
        CellGives S natives input ((⟨"open", some "true"⟩, c, .boolean true), entry) u := by
    intro entry text u r htext hr hu
    refine ⟨r, ?_, hu⟩
    dsimp only
    rw [htype, htext]
    exact hr
  have hone := hcell "true" (by decide +kernel) hq hw
  have htwo := hcell "false" (by decide +kernel) hq' hw'
  have hthree := hcell " - " (by decide +kernel) hq hw
  have hcolumns : List.Forall₂ (ColumnRuns S natives input) d.inputs [(c, .boolean true)] :=
    .cons ⟨hc, hv⟩ .nil
  have hcells : ∀ r ∈ d.rules, ∀ x ∈ (d.inputs.zip [(c, .boolean true)]).zip r.inputEntries,
      ∃ u, CellGives S natives input x u :=
    List.forall_mem_cons.mpr ⟨List.forall_mem_singleton.mpr ⟨_, hone⟩,
      List.forall_mem_cons.mpr ⟨List.forall_mem_singleton.mpr ⟨_, htwo⟩,
        List.forall_mem_singleton.mpr (List.forall_mem_singleton.mpr ⟨_, hthree⟩)⟩⟩
  obtain ⟨numbers, hnumbers, hmatch⟩ := matched_ofTable rfl hp
    ⟨fun _ _ h => h.elim, fun _ h => h.elim⟩ hmoves hcolumns hcells
  refine ⟨p, numbers, hp, hnumbers, (hmatch 0 _ rfl).mpr ⟨?_, nofun⟩, fun h => ?_,
    (hmatch 2 _ rfl).mpr ⟨?_, nofun⟩⟩
  · exact List.forall_mem_singleton.mpr hone
  · have hholds := ((hmatch 1 _ rfl).mp h).1
    cases htwo.unique (hholds _ List.mem_cons_self)
  · exact List.forall_mem_singleton.mpr hthree

end Program

end Feel
