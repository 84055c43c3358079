import Feel.Program.Compile
import Feel.Engine.Basic
import Feel.Proofs.ClosedLowering
import Feel.Proofs.ClosedRuns
import Feel.Proofs.Programs
import Feel.Proofs.Simplify

/-!
# Compiled programs are closed

What is compiled where the only functions are the built-in ones is closed over its own pool, with
and without constant folding: it passes the check of programs, and no run of it over an input
without functions fails for want of a constant or of a function.

* `Code.simplifyMatrix_cells`: folding a table folds its cells.
* `Code.Closed.simplify`: folding keeps code closed.
* `Program.Closed`: closed code over closed constants.
* `Program.Compiled`: the programs of texts and tables in a scope.
* `Program.Compiled.closed`: compiled programs are closed.
* `Request.load_eq`: loading rejects nothing that is compiled.
-/

namespace Feel

/-! ### Parts of simplified code -/

namespace Code

section Parts

variable (pool : List Value) (precision : Nat)

theorem simplifyBindings_cells (bs : List (Binding Code)) :
    (simplifyBindings pool precision bs).flatMap (·.domain.cells) =
      (bs.flatMap (·.domain.cells)).map (simplify pool precision) := by
  rw [simplifyBindings_eq, List.flatMap_map, List.map_flatMap]
  refine congrArg (bs.flatMap ·) (funext fun b => ?_)
  cases b.domain with
  | values c => rfl
  | steps f l cursor s p => rfl

/-- The cells of a simplified table are its cells simplified. -/
theorem simplifyMatrix_cells (t : DecisionMatrix Code) :
    (simplifyMatrix pool precision t).cells = t.cells.map (simplify pool precision) := by
  rw [simplifyMatrix_eq, DecisionMatrix.cells_map]

end Parts

/-! ### Folding -/

section Folding

variable {size : Nat} {pool : List Value} {c l r whole : Code}

theorem Closed.constPlain {v : Value} (hv : v.Plain) : (Code.const v).Closed size :=
  .of_parts ⟨hv, False.elim⟩ nofun

theorem Closed.onConstants {f : Value → Value → Value} (hf : ∀ v w, (f v w).Plain)
    (hl : l.Closed size) (hr : r.Closed size) (hchildren : whole.children = [l, r])
    (hown : whole.OwnClosed size) : (onConstants pool f l r whole).Closed size := by
  unfold Code.onConstants
  split
  · exact .constPlain (hf _ _)
  · exact .two hl hr hchildren hown

theorem Closed.onConstant {f : Value → Value} (hf : ∀ v, (f v).Plain) (h : c.Closed size)
    (hchildren : whole.children = [c]) (hown : whole.OwnClosed size) :
    (onConstant pool f c whole).Closed size := by
  unfold Code.onConstant
  split
  · exact .constPlain (hf _)
  · exact .one h hchildren hown

theorem Closed.simplifyLogic (op : Operator) (shortCircuit : Bool) (hl : l.Closed size)
    (hr : r.Closed size) : (simplifyLogic pool op shortCircuit l r).Closed size := by
  unfold Code.simplifyLogic
  split
  · exact .const (.logic ..)
  · dsimp only
    split
    · exact .const (.boolean _)
    · exact .two hl hr rfl trivial

theorem Closed.simplifyBetween (hc : c.Closed size) (hl : l.Closed size) (hr : r.Closed size) :
    (simplifyBetween pool c l r).Closed size := by
  unfold Code.simplifyBetween
  split
  · exact .const (.and ..)
  · exact .three hc hl hr rfl trivial

theorem Closed.branch (hc : c.Closed size) (hl : l.Closed size) (hr : r.Closed size) :
    Closed size (match c.valueIn? pool with
      | some v => if v.isBool true then l else r
      | none => ite c l r) := by
  split
  · split
    · exact hl
    · exact hr
  · exact .three hc hl hr rfl trivial

/-- **Folding keeps code closed**, whatever the pool holds. -/
theorem Closed.simplify (pool : List Value) (precision : Nat) (h : c.Closed size) :
    (c.simplify pool precision).Closed size := by
  revert h
  refine partsInduction (P := fun c => c.Closed size → (c.simplify pool precision).Closed size)
    (fun c ih hc => ?_) c
  have part : ∀ d ∈ c.children, (d.simplify pool precision).Closed size :=
    fun d hd => ih d hd (hc.part hd)
  have parts : ∀ d ∈ c.children.map (Code.simplify pool precision), d.Closed size :=
    List.forall_mem_map.mpr part
  have hown := hc.here
  clear ih
  cases c with
  | const v => exact hc
  | constRef i => exact hc
  | input => exact hc
  | testInput => exact hc
  | «local» name => exact hc
  | inputField name => exact hc
  | arith op mode l r nullCheck =>
    exact .onConstants (fun _ _ => (Datum.Steady.arith ..).plain) (part l (.head _))
      (part r (.tail _ (.head _))) rfl trivial
  | concat l r =>
    exact .onConstants (fun _ _ => (Datum.Steady.concat ..).plain) (part l (.head _))
      (part r (.tail _ (.head _))) rfl trivial
  | temporal op l r =>
    exact .onConstants (fun _ _ => (Datum.Steady.temporal ..).plain) (part l (.head _))
      (part r (.tail _ (.head _))) rfl trivial
  | compare op mode l r =>
    exact .onConstants (fun _ _ => (Datum.Steady.compareAs ..).plain) (part l (.head _))
      (part r (.tail _ (.head _))) rfl trivial
  | equal mode negated l r =>
    exact .onConstants (fun _ _ => (Datum.Steady.equality ..).plain) (part l (.head _))
      (part r (.tail _ (.head _))) rfl trivial
  | dynamic op l r =>
    exact .onConstants (fun _ _ => (Datum.Steady.dynamic ..).plain) (part l (.head _))
      (part r (.tail _ (.head _))) rfl trivial
  | logic op shortCircuit l r =>
    exact .simplifyLogic op shortCircuit (part l (.head _)) (part r (.tail _ (.head _)))
  | not c => exact .onConstant (fun _ => (Datum.Steady.not _).plain) (part c (.head _)) rfl trivial
  | negate c =>
    exact .onConstant (fun _ => .negate _) (part c (.head _)) rfl trivial
  | ite c y n =>
    exact .branch (part c (by simp [children])) (part y (by simp [children]))
      (part n (by simp [children]))
  | between v l h =>
    exact .simplifyBetween (part v (by simp [children])) (part l (by simp [children]))
      (part h (by simp [children]))
  -- in the other forms only the parts change
  | list items =>
    rw [simplify_list]
    exact .of_parts trivial parts
  | context es =>
    rw [simplify_context]
    refine .of_parts trivial ?_
    rw [children, List.map_map] at parts ⊢
    exact parts
  | range s e si ei =>
    refine .of_parts trivial ?_
    show ∀ d ∈ (simplifyOption pool _ s).toList ++ (simplifyOption pool _ e).toList, _
    rw [simplifyOption_eq, simplifyOption_eq, Option.toList_map, Option.toList_map,
      ← List.map_append]
    exact parts
  | forIn bs body =>
    refine .of_parts trivial ?_
    show ∀ d ∈ (simplifyBindings pool _ bs).flatMap (·.domain.cells) ++ [body.simplify pool _], _
    rw [simplifyBindings_cells]
    rw [children, List.map_append] at parts
    exact parts
  | quantified every bs c =>
    refine .of_parts trivial ?_
    show ∀ d ∈ (simplifyBindings pool _ bs).flatMap (·.domain.cells) ++ [c.simplify pool _], _
    rw [simplifyBindings_cells]
    rw [children, List.map_append] at parts
    exact parts
  | call target args names =>
    rw [simplify_call]
    cases target with
    | builtin name => exact .of_parts hown parts
    | value callee => exact .of_parts trivial parts
  | decision t =>
    refine .of_parts trivial ?_
    show ∀ d ∈ (simplifyMatrix pool _ t).cells, _
    rw [simplifyMatrix_cells]
    exact parts
  | function params body type => exact .of_parts hown parts
  | convert value target => exact .of_parts hown parts
  | _ => exact .of_parts trivial parts

end Folding

end Code

/-! ### Programs -/

namespace Program

/-- A program whose code is closed over its constants, which are closed themselves. -/
structure Closed (p : Program) : Prop where
  root : p.root.Closed p.constants.length
  constants : AllClosed p.constants

namespace Closed

variable {p : Program}

/-- Closed programs pass the check. -/
theorem fault? (h : p.Closed) : p.fault? = none := h.root.codeFault?

/-- Runs of closed programs fail for want of nothing. -/
theorem run (h : p.Closed) (natives : Natives) {input : Value} {test : Option Value}
    (hinput : input.Plain) (htest : ∀ v, test = some v → v.Plain) :
    Ends Datum.Closed (p.run natives input test) :=
  h.root.run h.constants natives _ ⟨.plain id hinput, fun v hv => .plain id (htest v hv), nofun⟩

/-- The program of a fragment that is lowered from an empty pool. -/
theorem of_lowering {x : Lowering Fragment} (hx : Lowering.Yields 0 x Fragment.Closed)
    {fragment : Fragment} {draft : Draft} (h : x {} = .ok (fragment, draft)) (entry : EntryPoint)
    (kind : SourceKind) (source : String) (decision : Option String) (options : Options) :
    (ofFragment entry kind source decision options fragment draft).Closed := by
  obtain ⟨_, hconstants, hfragment⟩ := hx {} fragment draft (Nat.zero_le _) nofun h
  refine ⟨?_, hconstants⟩
  unfold ofFragment
  dsimp only
  split
  · exact hfragment.code.simplify _ _
  · exact hfragment.code

end Closed

/-- The programs that are compiled in a scope. -/
inductive Compiled (entry : EntryPoint) (scope : Scope) (p : Program) : Prop
  | expression {source : String} (h : ofExpression entry scope source = .ok p)
  | tests {source : String} (h : ofTests entry scope source = .ok p)
  | table {d : Definition} (h : ofTable entry scope d = .ok p)

/-- **Compiled programs are closed** where the only functions are the built-in ones. -/
theorem Compiled.closed {entry : EntryPoint} {scope : Scope} {p : Program}
    (h : Compiled entry scope p) (hscope : scope.OnlyBuiltins) : p.Closed := by
  cases h with
  | expression h =>
    obtain ⟨⟨fragment, draft⟩, hrun, hp⟩ := bind_eq_ok.mp h
    cases hp
    exact .of_lowering (Fragment.yields_ofExpression hscope 0 _) hrun ..
  | tests h =>
    obtain ⟨⟨fragment, draft⟩, hrun, hp⟩ := bind_eq_ok.mp h
    cases hp
    exact .of_lowering (Fragment.yields_ofTestsText (hscope.withTest _) 0 _) hrun ..
  | table h =>
    obtain ⟨_, _, h⟩ := bind_eq_ok.mp h
    obtain ⟨⟨fragment, draft⟩, hrun, hp⟩ := bind_eq_ok.mp h
    cases hp
    exact .of_lowering (Fragment.yields_ofTable hscope 0 _) hrun ..

/-- **Compiled programs can be loaded, and refer to nothing that is missing.** Whatever is compiled
over the built-in functions, with any options and types, passes the check of programs, and its
runs over inputs without functions never miss a constant or a function. -/
theorem compiled_refers_to_nothing_missing {entry : EntryPoint} {scope : Scope} {p : Program}
    (hscope : scope.libraries = [.builtins]) (h : Compiled entry scope p) :
    p.fault? = none ∧ ∀ (natives : Natives) (input : Value) (test : Option Value), input.Plain →
      (∀ v, test = some v → v.Plain) →
        (∀ i, p.run natives input test ≠ .error (.constantOutOfRange i)) ∧
          ∀ name, p.run natives input test ≠ .error (.unknownFunction name) := by
  have hp : p.Closed := h.closed ⟨hscope⟩
  refine ⟨hp.fault?, fun natives input test hinput htest => ?_⟩
  have hends := hp.run natives hinput htest
  exact ⟨fun i hi => Bool.noConfusion (hends.not_dangling hi),
    fun name hname => Bool.noConfusion (hends.not_dangling hname)⟩

/-- A closure that calls a built-in function through a value, with a list from the pool. -/
theorem compiled_refers_to_nothing_missing_applied :
    ∃ p v, ofExpression {} (inputScope (.context [("n", .number .integer)]))
        "(function(f, xs) f(xs) + n)(sum, [1, 2])" = .ok p ∧ p.constants.length = 2 ∧
      p.fault? = none ∧ p.run (fun _ _ => .null) (.context [("n", .int 4)]) none = .ok v ∧
      v.same (.int 7) = true ∧
      (∀ i, p.run (fun _ _ => .null) (.context [("n", .int 4)]) none ≠
        .error (.constantOutOfRange i)) ∧
      ∀ name, p.run (fun _ _ => .null) (.context [("n", .int 4)]) none ≠
        .error (.unknownFunction name) := by
  have hrun : ((ofExpression {} (inputScope (.context [("n", .number .integer)]))
      "(function(f, xs) f(xs) + n)(sum, [1, 2])").toOption.bind fun p =>
        (p.run (fun _ _ => .null) (.context [("n", .int 4)]) none).toOption.map fun v =>
          (p.constants.length, v.same (.int 7))) = some (2, true) := by decide +kernel
  obtain ⟨p, v, hp, hv, hsee⟩ := exists_run hrun
  obtain ⟨hpool, hsame⟩ := Prod.mk.inj hsee
  have hinput : (Datum.context [("n", .int 4)] : Value).Plain :=
    .context (List.forall_mem_singleton.mpr (.number _))
  obtain ⟨hfault, hresolved⟩ := compiled_refers_to_nothing_missing rfl (.expression hp)
  obtain ⟨hconstant, hfunction⟩ := hresolved (fun _ _ => .null) _ none hinput nofun
  exact ⟨p, v, hp, hpool, hfault, hv, hsame, hconstant, hfunction⟩

end Program

/-! ### Loading -/

/-- The program of a request is compiled in a scope with the same functions. -/
theorem Request.program_closed {r : Request} {entry : EntryPoint} {scope : Scope} {p : Program}
    (hscope : scope.OnlyBuiltins) (h : r.program entry scope = .ok p) : p.Closed := by
  cases r with
  | expression text inputType => exact (Program.Compiled.expression h).closed ⟨hscope.libraries⟩
  | tests text testType inputType => exact (Program.Compiled.tests h).closed ⟨hscope.libraries⟩
  | table definition inputType => exact (Program.Compiled.table h).closed ⟨hscope.libraries⟩

/-- Where the only functions are the built-in ones, what is compiled is loaded: the check of
programs rejects nothing. -/
theorem Request.load_eq (r : Request) (key : String) {scope : Scope}
    (hscope : scope.OnlyBuiltins) : r.load key scope =
      (r.program { unit := Key.unitName key } scope).mapError EngineError.ofCompileError := by
  unfold Request.load
  dsimp only
  cases hcompiled : r.program { unit := Key.unitName key } scope with
  | error e => rfl
  | ok p =>
    have hfault := (program_closed hscope hcompiled).fault?
    refine bind_eq_ok.mpr ⟨p, rfl, ?_⟩
    rw [hfault]
    rfl

end Feel
