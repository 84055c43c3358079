import Mathlib.Data.List.Induction
import Feel.Proofs.ClosedValues
import Feel.Proofs.CodeTypes
import Feel.Proofs.HitPolicies
import Feel.Proofs.RepeatedLowering
import Feel.Proofs.TableCells

/-!
# Named outputs

Where a single hit decides, a table with several outputs gives a context. It is written entry by
entry, for each output clause its name and the value of its entry in the selected rule. Definitions
are checked to have a name for every clause then, but not to have different names: of clauses with
one name only the value of the last is left, in the place of the first.

* `Entries.ofList_eq_self_iff`: entries are all kept if and only if their names are different.
* `Decision.Selected`: the hit that a single-hit policy selects.
* `Decision.settle_single`: what is settled is the shape of the selected row.
* `Fragment.ofTable_outputs`: the names and the output entries of the code of a table.
* `Program.run_single_hit`: the context that a table gives.
-/

namespace Feel

/-! ### Entries -/

namespace Entries

variable {α : Type} {entries : List (String × α)} {name : String}

theorem insert_of_new (h : name ∉ entries.map (·.1)) (a : α) :
    insert entries name a = entries ++ [(name, a)] := by
  induction entries with
  | nil => rfl
  | cons e es ih =>
    obtain ⟨n, b⟩ := e
    rw [List.map_cons, List.mem_cons, not_or] at h
    rw [insert, if_neg (Ne.symm h.1), ih h.2, List.cons_append]

/-- Entries are all kept if and only if their names are different. -/
theorem ofList_eq_self_iff : ofList entries = entries ↔ (entries.map (·.1)).Nodup := by
  refine ⟨fun h => h ▸ nodup_ofList entries, fun h => ?_⟩
  induction entries using List.reverseRecOn with
  | nil => rfl
  | append_singleton es e ih =>
    rw [List.map_append, List.map_singleton, List.nodup_append] at h
    rw [ofList_concat, ih h.1]
    exact insert_of_new (fun hmem => h.2.2 _ hmem _ (List.mem_singleton_self _) rfl) e.2

/-- An entry has the last of the values that were written for its name. -/
theorem lookup_ofList (entries : List (String × α)) (name : String) :
    (ofList entries).lookup name = entries.reverse.lookup name := by
  induction entries using List.reverseRecOn with
  | nil => rfl
  | append_singleton es e ih =>
    obtain ⟨n, a⟩ := e
    rw [ofList_concat, List.reverse_append, List.reverse_singleton, List.singleton_append,
      List.lookup_cons]
    by_cases hn : name = n
    · rw [hn, lookup_insert_self, beq_self_eq_true]
    · rw [lookup_insert_of_ne hn, ih, beq_false_of_ne hn]

end Entries

/-! ### Selected hits -/

/-- What stands at a place of a list is related to what stands there in another. -/
theorem getElem?_of_forall₂ {α β : Type} {r : α → β → Prop} {as : List α} {bs : List β}
    (h : List.Forall₂ r as bs) {i : ℕ} {a : α} (ha : as[i]? = some a) :
    ∃ b, bs[i]? = some b ∧ r a b := by
  induction h generalizing i with
  | nil => cases ha
  | cons hab _ ih =>
    cases i with
    | zero =>
      cases ha
      exact ⟨_, rfl, hab⟩
    | succ i => exact ih ha

namespace Decision

variable {table : DecisionMatrix Action} {site : Site} {frame : Frame}

/-- The outputs of a rule, one by one, are the values of its row. -/
theorem row_outputs {rule j : ℕ} {cells : List Action} {columns : List (MatrixOutput Action)}
    {r : Row} (h : row site frame rule j cells columns = .ok r)
    (hlength : cells.length = columns.length) :
    r.length = cells.length ∧ ∀ (k : ℕ) (a : Action), cells[k]? = some a →
      ∃ w, r[k]? = some w ∧ a ((2 * (j + k)) :: site) frame = .ok w := by
  induction cells generalizing j columns r with
  | nil =>
    cases h
    exact ⟨rfl, nofun⟩
  | cons a cells ih =>
    cases columns with
    | nil => cases hlength
    | cons column columns =>
      obtain ⟨v, hv, h⟩ := bind_eq_ok.mp h
      obtain ⟨accepted, -, h⟩ := bind_eq_ok.mp h
      cases accepted with
      | false => cases h
      | true =>
        obtain ⟨r, hr, h⟩ := bind_eq_ok.mp h
        rw [← pure_eq_ok.mp h]
        obtain ⟨hlen, hcells⟩ := ih hr (Nat.succ.inj hlength)
        refine ⟨congrArg (· + 1) hlen, fun k b hb => ?_⟩
        cases k with
        | zero =>
          cases hb
          exact ⟨v, rfl, hv⟩
        | succ k =>
          rw [show j + (k + 1) = j + 1 + k by omega]
          exact hcells k b hb

/-- A hit is the row of a rule that matches. -/
theorem row_of_mem_rows {columns : List (MatrixOutput Action)}
    {rules : List (ℕ × MatrixRule Action)} {hs : List Hit}
    (h : rows site frame columns rules = .ok hs) : ∀ hit ∈ hs, ∃ rule, (hit.1, rule) ∈ rules ∧
      row (hit.1 :: site) frame hit.1 0 rule.outputs columns = .ok hit.2 := by
  induction rules generalizing hs with
  | nil =>
    cases h
    exact nofun
  | cons x rules ih =>
    obtain ⟨i, rule⟩ := x
    obtain ⟨r, hr, h⟩ := bind_eq_ok.mp h
    obtain ⟨rest, hrest, h⟩ := bind_eq_ok.mp h
    rw [← pure_eq_ok.mp h, List.forall_mem_cons]
    refine ⟨⟨rule, List.mem_cons_self, hr⟩, fun hit hhit => ?_⟩
    obtain ⟨rule', hrule', hrow⟩ := ih hrest hit hhit
    exact ⟨rule', List.mem_cons_of_mem _ hrule', hrow⟩

/-- Rules that match are rules of the table, under their numbers. -/
theorem getElem?_of_matching {inputs : List Value} {onlyFirst : Bool} {i : ℕ}
    {rules : List (MatrixRule Action)} {matched : List (ℕ × MatrixRule Action)}
    (h : matching site frame inputs onlyFirst i rules = .ok matched) :
    ∀ x ∈ matched, ∃ k, x.1 = i + k ∧ rules[k]? = some x.2 := by
  induction rules generalizing i matched with
  | nil =>
    cases h
    exact nofun
  | cons rule rules ih =>
    have hlater {rest : List (ℕ × MatrixRule Action)}
        (hrest : matching site frame inputs onlyFirst (i + 1) rules = .ok rest) :
        ∀ x ∈ rest, ∃ k, x.1 = i + k ∧ (rule :: rules)[k]? = some x.2 := by
      intro x hx
      obtain ⟨k, hk, hrule⟩ := ih hrest x hx
      exact ⟨k + 1, by omega, hrule⟩
    have hown : ∃ k, i = i + k ∧ (rule :: rules)[k]? = some rule := ⟨0, rfl, rfl⟩
    obtain ⟨accepted, -, h⟩ := bind_eq_ok.mp h
    cases accepted with
    | false => exact hlater h
    | true =>
      cases onlyFirst with
      | true =>
        rw [← pure_eq_ok.mp h]
        exact List.forall_mem_singleton.mpr hown
      | false =>
        obtain ⟨rest, hrest, h⟩ := bind_eq_ok.mp h
        rw [← pure_eq_ok.mp h]
        exact List.forall_mem_cons.mpr ⟨hown, hlater hrest⟩

/-- The place of the hit that a single-hit policy selects: the first, or by priority the first of
those with the least rank. -/
def Selected (table : DecisionMatrix Action) (site : Site) (frame : Frame) (hs : List Hit)
    (n : ℕ) : Prop :=
  match table.hitPolicy with
  | .priority => ∃ ranked x, ranks site frame table.outputs hs = .ok ranked ∧
      ranked[n]? = some x ∧ (∀ y ∈ ranked, x.1 ≤ y.1) ∧ ∀ y ∈ ranked.take n, x.1 < y.1
  | _ => n = 0

/-- A single hit that is settled gives the shape of the selected row. -/
theorem settle_single {hs : List Hit} {v : Value} (hpolicy : table.hitPolicy.isMultiHit = false)
    (hne : hs ≠ []) (h : settle table site frame hs = .ok v) :
    ∃ n hit, hs[n]? = some hit ∧ Selected table site frame hs n ∧ v = shape table hit.2 := by
  obtain ⟨hit, rest, rfl⟩ := List.exists_cons_of_ne_nil hne
  unfold settle at h
  unfold Selected
  cases hp : table.hitPolicy with
  | unique =>
    rw [hp] at h
    dsimp only at h
    split at h
    · cases h
    · exact ⟨0, hit, rfl, rfl, (Except.ok.inj h).symm⟩
  | any =>
    rw [hp] at h
    dsimp only at h
    split at h
    · exact ⟨0, hit, rfl, rfl, (Except.ok.inj h).symm⟩
    · cases h
  | first =>
    rw [hp] at h
    exact ⟨0, hit, rfl, rfl, (Except.ok.inj h).symm⟩
  | priority =>
    rw [hp] at h
    obtain ⟨ranked, hranked, h⟩ := bind_eq_ok.mp h
    have hrows := map_snd_ranks hranked
    cases ranked with
    | nil => cases hrows
    | cons b rs =>
      obtain ⟨x, hbest, hmin, hfirst⟩ := best_spec b rs
      rw [List.head?_filter, List.find?_eq_some_iff_getElem] at hfirst
      obtain ⟨-, n, hn, hx, hbefore⟩ := hfirst
      have hrow : ((hit :: rest).map (·.2))[n]? = some x.2 := by
        rw [← hrows, List.getElem?_map, List.getElem?_eq_getElem hn, hx, Option.map_some]
      obtain ⟨selected, hselected, hx2⟩ := Option.map_eq_some_iff.mp (List.getElem?_map ▸ hrow)
      refine ⟨n, selected, hselected, ⟨_, x, hranked, ?_, hmin, fun y hy => ?_⟩, ?_⟩
      · rw [List.getElem?_eq_getElem hn, hx]
      · obtain ⟨k, hk, rfl⟩ := List.mem_take_iff_getElem.mp hy
        have hne := hbefore k (by omega)
        exact lt_of_le_of_ne (hmin _ (List.getElem_mem _)) (Ne.symm (by simpa using hne))
      · rw [hx2, ← hbest]
        exact (pure_eq_ok.mp h).symm
  | collect | ruleOrder | outputOrder =>
    rw [hp] at hpolicy
    cases hpolicy

/-- A run that settles a single hit: the selected rule, its row, and the context of the row. -/
theorem run_single {v : Value} {hs : List Hit} (hpolicy : table.hitPolicy.isMultiHit = false)
    (hsingle : table.singleOutput = false)
    (hwidth : ∀ rule ∈ table.rules, rule.outputs.length = table.outputs.length)
    (hrun : run table site frame = .ok v)
    (hhits : hits table (table.hitPolicy == .first) site frame = .ok hs) (hne : hs ≠ []) :
    ∃ n i row rule, hs[n]? = some (i + 1, row) ∧ Selected table (4 :: site) frame hs n ∧
      table.rules[i]? = some rule ∧ row.length = table.outputs.length ∧
      (∀ (j : ℕ) (a : Action), rule.outputs[j]? = some a →
        ∃ w, row[j]? = some w ∧ a ((2 * j) :: (i + 1) :: 3 :: site) frame = .ok w) ∧
      v = .context (Entries.ofList ((table.outputs.map fun o => o.name.getD "").zip row)) := by
  have hempty : hs.isEmpty = false := by simpa using hne
  have hsettle : settle table (4 :: site) frame hs = .ok v := by
    have hrun' := hrun
    rw [run_eq, hhits] at hrun'
    simpa [bind, Except.bind, hempty] using hrun'
  obtain ⟨n, hit, hn, hselected, hshape⟩ := settle_single hpolicy hne hsettle
  obtain ⟨inputs, -, hhits⟩ := bind_eq_ok.mp hhits
  obtain ⟨matched, hmatched, hrows⟩ := bind_eq_ok.mp hhits
  obtain ⟨rule, hrule, hrow⟩ := row_of_mem_rows hrows hit (List.mem_of_getElem? hn)
  obtain ⟨i, hi, hget⟩ := getElem?_of_matching hmatched _ hrule
  obtain ⟨number, r⟩ := hit
  obtain rfl : number = i + 1 := hi.trans (Nat.add_comm 1 i)
  have hlength := hwidth rule (List.mem_of_getElem? hget)
  obtain ⟨hwide, hvalues⟩ := row_outputs hrow hlength
  refine ⟨n, i, r, rule, hn, hselected, hget, hwide.trans hlength, fun j a ha => ?_, ?_⟩
  · obtain ⟨w, hw, hrun⟩ := hvalues j a ha
    exact ⟨w, hw, by rwa [Nat.zero_add] at hrun⟩
  · rw [hshape, shape, hsingle]
    rfl

end Decision

/-! ### Definitions -/

namespace Definition

variable {d : Definition}

theorem outputArity_of_ruleFault? {inputs outputs i : ℕ} {rules : List RuleDefinition}
    (h : ruleFault? inputs outputs i rules = none) :
    ∀ r ∈ rules, r.outputEntries.length = outputs := by
  induction rules generalizing i with
  | nil => exact nofun
  | cons r rules ih =>
    rw [ruleFault?] at h
    split at h
    · cases h
    · split at h
      · cases h
      · next hlength => exact List.forall_mem_cons.mpr ⟨not_not.mp hlength, ih h⟩

/-- The rules of a valid definition have an entry for each output clause. -/
theorem outputArity_of_validate (h : d.validate = .ok ()) :
    ∀ r ∈ d.rules, r.outputEntries.length = d.outputs.length := by
  have hfault : d.fault? = none := by
    unfold validate at h
    split at h
    · cases h
    · next hnone => exact hnone
  unfold fault? at hfault
  split at hfault
  · cases hfault
  · split at hfault
    · cases hfault
    · split at hfault
      · cases hfault
      · dsimp only at hfault
        split at hfault
        · cases hfault
        · exact outputArity_of_ruleFault? (Option.or_eq_none_iff.mp hfault).1

theorem singleUnnamed_of_several (h : 1 < d.outputs.length) : d.singleUnnamed = false := by
  unfold singleUnnamed
  split
  · next houtputs =>
    rw [houtputs] at h
    exact absurd h (Nat.lt_irrefl 1)
  · rfl

/-- The names of the output clauses; none is empty unless it is written so. -/
def outputNames (d : Definition) : List String := d.outputs.map fun clause => clause.name.getD ""

end Definition

/-! ### The code of outputs -/

namespace Fragment

open Lowering (Extending)

/-- Code that the text of an expression is lowered to over constants with which a pool begins. -/
def Lowers (S : Scope) (pool : List Value) (text : String) (c : Code) : Prop :=
  ∃ g e e', ofExpression text S e = .ok (g, e') ∧ e'.constants <+: pool ∧ g.code = c

theorem name_outputColumn {S : Scope} {clause : OutputClause} {column : MatrixOutput Code}
    {e e' : Draft} (h : outputColumn S clause e = .ok (column, e')) :
    column.name = clause.name := by
  obtain ⟨⟨check, e₁⟩, -, h⟩ := bind_eq_ok.mp h
  dsimp only at h
  generalize clause.allowedValues = allowed at h
  cases allowed with
  | none =>
    obtain ⟨⟨fallback, e₂⟩, -, h⟩ := bind_eq_ok.mp h
    cases h
    rfl
  | some text =>
    obtain ⟨⟨priorities, e₂⟩, -, h⟩ := bind_eq_ok.mp h
    obtain ⟨⟨fallback, e₃⟩, -, h⟩ := bind_eq_ok.mp h
    cases h
    rfl

/-- The outputs of a rule are the code of its output entries. -/
theorem outputs_rule {S : Scope} {columns : List InputColumn} {r : RuleDefinition}
    {row : MatrixRule Code × List Ty} {e e' : Draft} (h : rule S columns r e = .ok (row, e'))
    {pool : List Value} (hpool : e'.constants <+: pool) :
    List.Forall₂ (Lowers S pool) r.outputEntries row.1.outputs := by
  obtain ⟨⟨conditions, e₁⟩, -, h⟩ := bind_eq_ok.mp h
  obtain ⟨⟨outputs, e₂⟩, houtputs, h⟩ := bind_eq_ok.mp h
  cases h
  have hentries := (Extending.forall₂_mapM (fun text => extending_ofExpression text S) houtputs).2
  exact List.forall₂_map_right_iff.mpr (hentries.imp fun _ g ⟨e, e', hg, hlater⟩ =>
    ⟨g, e, e', hg, hlater.constants.trans hpool, rfl⟩)

/-- The code of a table has the policy and the names of the definition, and in each rule the code of
its output entries. -/
structure OutputsStand (S : Scope) (pool : List Value) (d : Definition)
    (t : DecisionMatrix Code) : Prop where
  policy : t.hitPolicy = d.hitPolicy
  single : t.singleOutput = d.singleUnnamed
  names : t.outputs.map (·.name) = d.outputs.map (·.name)
  rules : List.Forall₂ (fun r row => List.Forall₂ (Lowers S pool) r.outputEntries row.outputs)
    d.rules t.rules

theorem ofTable_outputs {S : Scope} {d : Definition} {g : Fragment} {e e' : Draft}
    (h : ofTable d S e = .ok (g, e')) :
    ∃ t, g.code = .decision t ∧ OutputsStand S e'.constants d t := by
  obtain ⟨⟨columns, e₁⟩, -, h⟩ := bind_eq_ok.mp h
  obtain ⟨⟨rules, e₂⟩, hrules, h⟩ := bind_eq_ok.mp h
  obtain ⟨⟨outputs, e₃⟩, houtputs, h⟩ := bind_eq_ok.mp h
  cases h
  obtain ⟨hmore, hcolumns⟩ := Extending.forall₂_mapM (extending_outputColumn S) houtputs
  have hrows := (Extending.forall₂_mapM (extending_rule S columns) hrules).2
  refine ⟨_, rfl, rfl, rfl, ?_, ?_⟩
  · have hnames : List.Forall₂ (fun clause column => clause.name = column.name) d.outputs outputs :=
      hcolumns.imp fun _ _ ⟨_, _, hcolumn, _⟩ => (name_outputColumn hcolumn).symm
    have heq : List.Forall₂ (· = ·) (d.outputs.map (·.name)) (outputs.map (·.name)) :=
      List.forall₂_map_left_iff.mpr (List.forall₂_map_right_iff.mpr hnames)
    rw [List.forall₂_eq_eq_eq] at heq
    exact heq.symm
  · exact List.forall₂_map_right_iff.mpr (hrows.imp fun _ _ ⟨_, _, hrow, hlater⟩ =>
      outputs_rule hrow (hlater.constants.trans hmore.constants))

end Fragment

/-! ### Runs -/

namespace Program

variable {S : Scope} {natives : Natives}

/-- The table that the program of a definition evaluates. -/
def table? (p : Program) (natives : Natives) : Option (DecisionMatrix Action) :=
  match p.root with
  | .decision t =>
    let machine := Machine.ofPool natives p.constants (p.precision.getD Number.defaultPrecision)
    some (Code.denoteMatrix machine t)
  | _ => none

theorem run_of_table? {p : Program} {t : DecisionMatrix Action} (h : p.table? natives = some t)
    (input : Value) (test : Option Value) :
    p.run natives input test = Decision.run t [] ⟨input, test, []⟩ := by
  unfold table? at h
  split at h
  · next hroot =>
    rw [run, hroot, ← Option.some.inj h]
    rfl
  · cases h

/-- The program of a definition evaluates the table of its code, with the actions of the cells. -/
theorem exists_table_ofTable {entry : EntryPoint} {d : Definition} {p : Program}
    (hp : ofTable entry S d = .ok p) (natives : Natives) :
    ∃ g e, (Fragment.ofTable d S).run {} = .ok (g, e) ∧ p.constants = e.constants ∧
      ∀ t, g.code = .decision t →
        p.table? natives = some (t.map (action S.options natives p.constants)) := by
  obtain ⟨g, e, hg, hconstants, hprecision, hroot⟩ := exists_root_ofTable hp
  refine ⟨g, e, hg, hconstants, fun t ht => ?_⟩
  obtain ⟨t', hdecision, htable⟩ := hroot t ht
  rw [hconstants, ← htable natives, table?, hdecision, hconstants, hprecision]
  rfl

/-- The value that the text of an output entry has at a place of a run. -/
def EntryGives (p : Program) (S : Scope) (natives : Natives) (site : Site) (frame : Frame)
    (text : String) (w : Value) : Prop :=
  ∃ c, Fragment.Lowers S p.constants text c ∧
    action S.options natives p.constants c site frame = .ok w

/-- The table of a program has the policy and the names of its definition, and does in each rule
what its output entries do. -/
structure HasOutputs (p : Program) (S : Scope) (d : Definition) (natives : Natives)
    (t : DecisionMatrix Action) : Prop where
  table : p.table? natives = some t
  policy : t.hitPolicy = d.hitPolicy
  single : t.singleOutput = d.singleUnnamed
  names : t.outputs.map (·.name) = d.outputs.map (·.name)
  rules : List.Forall₂ (fun r rule => List.Forall₂ (fun text a =>
    ∃ c, Fragment.Lowers S p.constants text c ∧ a = action S.options natives p.constants c)
      r.outputEntries rule.outputs) d.rules t.rules

theorem hasOutputs_ofTable {entry : EntryPoint} {d : Definition} {p : Program}
    (hp : ofTable entry S d = .ok p) (natives : Natives) : ∃ t, p.HasOutputs S d natives t := by
  obtain ⟨g, e, hg, hconstants, htable⟩ := exists_table_ofTable hp natives
  obtain ⟨t, ht, hstands⟩ := Fragment.ofTable_outputs hg
  refine ⟨_, htable t ht, hstands.policy, hstands.single, ?_, ?_⟩
  · rw [← hstands.names, DecisionMatrix.map, List.map_map]
    rfl
  · rw [DecisionMatrix.map, List.forall₂_map_right_iff]
    refine hstands.rules.imp fun r row hcodes => ?_
    rw [MatrixRule.map, List.forall₂_map_right_iff]
    exact hcodes.imp fun text c hc => ⟨c, hconstants ▸ hc, rfl⟩

/-- **Several outputs.** In a program of a valid definition with several output clauses and a
single-hit policy, every run that succeeds with a rule that matches gives a context. A rule of the
definition is selected, and its row has the values of all its output entries, one for each clause.
The names in the context are different, and each has the value of the last clause of that name. So
the context has exactly one entry for each clause, in the order of the clauses and with their
values, if and only if the names of the clauses are different. -/
theorem run_single_hit {entry : EntryPoint} {d : Definition} {p : Program}
    (hp : ofTable entry S d = .ok p) (hseveral : 1 < d.outputs.length)
    (hpolicy : d.hitPolicy.isMultiHit = false) (natives : Natives) :
    ∃ t, p.table? natives = some t ∧ ∀ (input : Value) (test : Option Value) (v : Value)
        (hs : List Decision.Hit),
      let frame : Frame := ⟨input, test, []⟩
      p.run natives input test = .ok v →
      Decision.hits t (d.hitPolicy == .first) [] frame = .ok hs → hs ≠ [] →
      ∃ n i row r es, hs[n]? = some (i + 1, row) ∧ Decision.Selected t [4] frame hs n ∧
        d.rules[i]? = some r ∧ row.length = d.outputs.length ∧
        (∀ (j : ℕ) (text : String), r.outputEntries[j]? = some text →
          ∃ w, row[j]? = some w ∧ p.EntryGives S natives [2 * j, i + 1, 3] frame text w) ∧
        v = .context es ∧ (es.map (·.1)).Nodup ∧
        (∀ name, es.lookup name = (d.outputNames.zip row).reverse.lookup name) ∧
        (es = d.outputNames.zip row ↔ d.outputNames.Nodup) := by
  obtain ⟨t, ht⟩ := hasOutputs_ofTable hp natives
  have hvalid : d.validate = .ok () := by
    obtain ⟨_, hvalid, -⟩ := bind_eq_ok.mp hp
    cases hd : d.validate with
    | ok => rfl
    | error e =>
      rw [hd] at hvalid
      cases hvalid
  have hwide : t.outputs.length = d.outputs.length := by
    simpa using congrArg List.length ht.names
  have hnames : (t.outputs.map fun o => o.name.getD "") = d.outputNames := by
    have hmap := congrArg (List.map (·.getD "")) ht.names
    rwa [List.map_map, List.map_map] at hmap
  have hentries {i : ℕ} {rule : MatrixRule Action} (hrule : t.rules[i]? = some rule) :
      ∃ r, d.rules[i]? = some r ∧ List.Forall₂ (fun text a =>
        ∃ c, Fragment.Lowers S p.constants text c ∧ a = action S.options natives p.constants c)
          r.outputEntries rule.outputs :=
    getElem?_of_forall₂ (List.Forall₂.flip (R := flip _) ht.rules) hrule
  have hwidth : ∀ rule ∈ t.rules, rule.outputs.length = t.outputs.length := by
    intro rule hrule
    obtain ⟨i, hi⟩ := List.getElem?_of_mem hrule
    obtain ⟨r, hr, houtputs⟩ := hentries hi
    rw [hwide, ← houtputs.length_eq]
    exact Definition.outputArity_of_validate hvalid r (List.mem_of_getElem? hr)
  refine ⟨t, ht.table, fun input test v hs hrun hhits hne => ?_⟩
  rw [run_of_table? ht.table] at hrun
  rw [← ht.policy] at hpolicy hhits
  have hsingle := ht.single.trans (Definition.singleUnnamed_of_several hseveral)
  obtain ⟨n, i, row, rule, hn, hselected, hrule, hlength, hvalues, hv⟩ :=
    Decision.run_single hpolicy hsingle hwidth hrun hhits hne
  rw [hwide] at hlength
  rw [hnames] at hv
  obtain ⟨r, hr, houtputs⟩ := hentries hrule
  refine ⟨n, i, row, r, _, hn, hselected, hr, hlength, fun j text htext => ?_, hv,
    Entries.nodup_ofList _, Entries.lookup_ofList _, ?_⟩
  · obtain ⟨a, ha, c, hc, rfl⟩ := getElem?_of_forall₂ houtputs htext
    obtain ⟨w, hw, hvalue⟩ := hvalues j _ ha
    exact ⟨w, hw, c, hc, hvalue⟩
  · have hfst : (d.outputNames.zip row).map (·.1) = d.outputNames := by
      refine List.map_fst_zip (Nat.le_of_eq ?_)
      rw [hlength, Definition.outputNames, List.length_map]
    rw [Entries.ofList_eq_self_iff, hfst]

/-- A table with two output clauses of one name. -/
def repeatedName : Definition where
  name := "t"
  inputs := [⟨"true", none⟩]
  outputs := [{ name := some "a" }, { name := some "a" }]
  rules := [⟨["-"], ["1", "2"], []⟩]

/-- The first output of the only rule is lost. -/
theorem run_single_hit_repeated : ∃ p v row es, ofTable {} {} repeatedName = .ok p ∧
    p.run (fun _ _ => .null) .null none = .ok v ∧ row.length = 2 ∧ v = .context es ∧
      (es.map (·.1)).Nodup ∧ es ≠ repeatedName.outputNames.zip row := by
  have hcompiled : ((ofTable {} {} repeatedName).toOption.bind fun p =>
      (p.run (fun _ _ => .null) .null none).toOption.map fun _ => ()) = some () := by
    decide +kernel
  have hmatches : ((ofTable {} {} repeatedName).toOption.bind fun p =>
      (p.table? fun _ _ => .null).bind fun t =>
        (Decision.hits t false [] ⟨.null, none, []⟩).toOption.map (·.map (·.1))) = some [1] := by
    decide +kernel
  obtain ⟨p, v, hp, hv, -⟩ := exists_run hcompiled
  obtain ⟨t, ht, hgives⟩ := run_single_hit hp (by decide) rfl fun _ _ => .null
  rw [hp, Except.toOption, Option.bind_some, ht, Option.bind_some] at hmatches
  obtain ⟨hs, hhits, hnumbers⟩ := exists_ok hmatches
  have hne : hs ≠ [] := by
    rintro rfl
    cases hnumbers
  obtain ⟨-, -, row, -, es, -, -, -, hlength, -, hcontext, hnodup, -, hall⟩ :=
    hgives .null none v hs hv hhits hne
  have hnames : ¬ repeatedName.outputNames.Nodup := by decide
  exact ⟨p, v, row, es, hp, hv, hlength, hcontext, hnodup, fun heq => hnames (hall.mp heq)⟩

end Program

end Feel
