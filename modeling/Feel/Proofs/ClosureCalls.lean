import Feel.Code.Fold
import Feel.Proofs.ClosedRuns

/-!
# Calls of closures

A function expression captures the locals of its frame, and a call runs its body over the input of
the caller. So a call does what the body does in the frame of the definition with the parameters
bound, except that no value is under test in a call. Where one is under test in the frame of the
definition, this makes no difference to a body that does not ask for it.

Most code never asks for the value under test of its own frame: it only tests values that it has
brought under test itself. Such code does the same in two frames that differ in the value under test
alone. Each combinator on actions keeps this.

* `Code.asksTest`: whether a tree may ask for the value under test of its own frame.
* `Frame.SameButTest`: frames that differ in the value under test alone.
* `Action.TestBlind`, `Code.testBlind`: actions that do the same in such frames, and code that does
  not ask.
* `Machine.closureFrame_eq`: the frame of a call.
* `Machine.invoke_closure`: what a call does in general.
* `Code.beta`: calls do what bodies do.
-/

namespace Feel

/-! ### Frames -/

namespace Frame

/-- Frames that differ in the value under test alone. -/
structure SameButTest (f g : Frame) : Prop where
  input : f.input = g.input
  locals : f.locals = g.locals

namespace SameButTest

variable {f g : Frame}

theorem lookup (h : f.SameButTest g) (name : String) : f.lookup name = g.lookup name := by
  rw [Frame.lookup, Frame.lookup, h.locals]

theorem bind (h : f.SameButTest g) (name : String) (v : Value) :
    (f.bind name v).SameButTest (g.bind name v) :=
  ⟨h.input, congrArg ((name, v) :: ·) h.locals⟩

theorem bindAll (h : f.SameButTest g) (entries : List (String × Value)) :
    (f.bindAll entries).SameButTest (g.bindAll entries) :=
  ⟨h.input, congrArg (entries.reverse ++ ·) h.locals⟩

theorem itemFrame (h : f.SameButTest g) (item : Value) :
    (Filter.itemFrame f item).SameButTest (Filter.itemFrame g item) := by
  unfold Filter.itemFrame
  split
  · exact (h.bindAll _).bind _ _
  · exact h.bind _ _

/-- Another value under test makes the frames equal. -/
theorem withTest (h : f.SameButTest g) (v : Value) : f.withTest v = g.withTest v := by
  cases f
  cases g
  cases h.input
  cases h.locals
  rfl

end SameButTest

end Frame

/-! ### Actions -/

namespace Action

/-- Actions that do the same in frames that differ in the value under test alone. -/
def TestBlind (a : Action) : Prop := ∀ site (f g : Frame), f.SameButTest g → a site f = a site g

namespace TestBlind

variable {a b c : Action}

theorem map (k : Value → Value) (ha : a.TestBlind) : (map k a).TestBlind := by
  intro site f g hfg
  simp only [Action.map, ha _ f g hfg]

theorem both (k : Value → Value → Value) (ha : a.TestBlind) (hb : b.TestBlind) :
    (both k a b).TestBlind := by
  intro site f g hfg
  simp only [Action.both, ha _ f g hfg, hb _ f g hfg]

theorem arith (m : Machine) (op : Operator) (mode : NumericMode) (nullCheck : Bool)
    (ha : a.TestBlind) (hb : b.TestBlind) : (arith m op mode nullCheck a b).TestBlind := by
  intro site f g hfg
  simp only [Action.arith, ha _ f g hfg, hb _ f g hfg]

theorem logic (op : Operator) (shortCircuit : Bool) (ha : a.TestBlind) (hb : b.TestBlind) :
    (logic op shortCircuit a b).TestBlind := by
  intro site f g hfg
  simp only [Action.logic, ha _ f g hfg, hb _ f g hfg]

theorem ite (ha : a.TestBlind) (hb : b.TestBlind) (hc : c.TestBlind) :
    (ite a b c).TestBlind := by
  intro site f g hfg
  simp only [Action.ite, ha _ f g hfg, hb _ f g hfg, hc _ f g hfg]

theorem between (ha : a.TestBlind) (hb : b.TestBlind) (hc : c.TestBlind) :
    (between a b c).TestBlind := by
  intro site f g hfg
  simp only [Action.between, ha _ f g hfg, hb _ f g hfg, hc _ f g hfg]

theorem all {as : List Action} (h : ∀ a ∈ as, a.TestBlind) (site : Site) {f g : Frame}
    (hfg : f.SameButTest g) (i : Nat) : Action.all site f i as = Action.all site g i as := by
  induction as generalizing i with
  | nil => rfl
  | cons a as ih =>
    rw [List.forall_mem_cons] at h
    simp only [Action.all, h.1 _ f g hfg, ih h.2]

theorem list {as : List Action} (h : ∀ a ∈ as, a.TestBlind) : (list as).TestBlind := by
  intro site f g hfg
  simp only [Action.list, all h site hfg]

theorem entries {es : List (String × Action)} (h : ∀ e ∈ es, e.2.TestBlind) (site : Site)
    (i : Nat) {f g : Frame} (hfg : f.SameButTest g) (done : List (String × Value)) :
    Action.entries site i f es done = Action.entries site i g es done := by
  induction es generalizing i f g done with
  | nil => rfl
  | cons e es ih =>
    rw [List.forall_mem_cons] at h
    simp only [Action.entries, h.1 _ f g hfg]
    exact bind_congr fun v => ih h.2 (i + 1) (hfg.bind e.1 v) _

theorem context {es : List (String × Action)} (h : ∀ e ∈ es, e.2.TestBlind) :
    (context es).TestBlind := by
  intro site f g hfg
  simp only [Action.context, entries h site 0 hfg]

theorem optional {o : Option Action} (h : ∀ a, o = some a → a.TestBlind) (site : Site)
    {f g : Frame} (hfg : f.SameButTest g) :
    Action.optional o site f = Action.optional o site g := by
  cases o with
  | none => rfl
  | some a => simp only [Action.optional, h a rfl _ f g hfg]

theorem range {s e : Option Action} (hs : ∀ a, s = some a → a.TestBlind)
    (he : ∀ a, e = some a → a.TestBlind) (si ei : Bool) : (range s e si ei).TestBlind := by
  intro site f g hfg
  simp only [Action.range, optional hs _ hfg, optional he _ hfg]

theorem callBuiltin (m : Machine) (name : String) {args : List Action}
    (hargs : ∀ a ∈ args, a.TestBlind) (names : Option (List String)) :
    (Action.call m (.builtin name) args names).TestBlind := by
  intro site f g hfg
  simp only [Action.call, all hargs _ hfg, hfg.input]

theorem callValue (m : Machine) {callee : Action} (hcallee : callee.TestBlind)
    {args : List Action} (hargs : ∀ a ∈ args, a.TestBlind) (names : Option (List String)) :
    (Action.call m (.value callee) args names).TestBlind := by
  intro site f g hfg
  simp only [Action.call, all hargs _ hfg, hcallee _ f g hfg, hfg.input]

/-- What runs on a value brought under test sees no other. -/
theorem withTestInput (ha : a.TestBlind) : (withTestInput a b).TestBlind := by
  intro site f g hfg
  simp only [Action.withTestInput, ha _ f g hfg, hfg.withTest]

end TestBlind

end Action

open Action (TestBlind)

/-! ### Iterations and filters -/

namespace Domain

theorem run_testBlind {d : Domain Action} (h : ∀ a ∈ d.cells, a.TestBlind) (site : Site)
    {f g : Frame} (hfg : f.SameButTest g) : d.run site f = d.run site g := by
  cases d with
  | values source =>
    have hsource := h source List.mem_cons_self
    simp only [run, hsource _ f g hfg]
  | steps first last cursor successor predecessor =>
    have hcells : first.TestBlind ∧ last.TestBlind ∧ successor.TestBlind ∧
        predecessor.TestBlind := by
      simpa [cells] using h
    obtain ⟨hfirst, hlast, hsuccessor, hpredecessor⟩ := hcells
    have hnext : ∀ direction : Ordering, (fun (n : Nat) (v : Value) =>
        (if direction = .gt then predecessor else successor) (n :: 2 :: site) (f.bind cursor v)) =
        fun n v => (if direction = .gt then predecessor else successor) (n :: 2 :: site)
          (g.bind cursor v) := by
      intro direction
      funext n v
      split
      · exact hpredecessor _ _ _ (hfg.bind cursor v)
      · exact hsuccessor _ _ _ (hfg.bind cursor v)
    simp only [run, hfirst _ f g hfg, hlast _ f g hfg, hnext]

end Domain

namespace Iteration

variable {σ : Type} {visit : Site → Frame → σ → Except EvalError (ForInStep σ)}

/-- A visit that does the same in frames that differ in the value under test alone. -/
def VisitBlind (visit : Site → Frame → σ → Except EvalError (ForInStep σ)) : Prop :=
  ∀ site (f g : Frame) s, f.SameButTest g → visit site f s = visit site g s

theorem forEach_testBlind (h : VisitBlind visit) (name : String) (site : Site) {f g : Frame}
    (hfg : f.SameButTest g) (i : Nat) (vs : List Value) (s : σ) :
    forEach name visit site f i vs s = forEach name visit site g i vs s := by
  induction vs generalizing i s with
  | nil => rfl
  | cons v vs ih =>
    simp only [forEach, h (i :: site) _ _ s (hfg.bind name v)]
    split
    · exact ih _ _
    · rfl

theorem run_testBlind (h : VisitBlind visit) {bindings : List (Binding Action)}
    (hbindings : ∀ b ∈ bindings, ∀ a ∈ b.domain.cells, a.TestBlind) :
    VisitBlind (run visit bindings) := by
  induction bindings with
  | nil => exact h
  | cons b bs ih =>
    intro site f g s hfg
    rw [List.forall_mem_cons] at hbindings
    simp only [run, Domain.run_testBlind hbindings.1 _ hfg]
    exact bind_congr fun values => forEach_testBlind (ih hbindings.2) _ _ hfg _ _ _

variable {bindings : List (Binding Action)}

theorem collect_testBlind (h : ∀ b ∈ bindings, ∀ a ∈ b.domain.cells, a.TestBlind) {body : Action}
    (hbody : body.TestBlind) : (collect bindings body).TestBlind := by
  intro site f g hfg
  have hvisit : VisitBlind fun site frame (vs : List Value) => do
      let v ← body (0 :: site) frame
      return ForInStep.yield (v :: vs) := by
    intro site f g s hfg
    simp only [hbody _ f g hfg]
  simp only [collect, run_testBlind hvisit h _ f g _ hfg]

theorem quantify_testBlind (every : Bool)
    (h : ∀ b ∈ bindings, ∀ a ∈ b.domain.cells, a.TestBlind) {condition : Action}
    (hcondition : condition.TestBlind) : (quantify every bindings condition).TestBlind := by
  intro site f g hfg
  have hvisit : VisitBlind fun site frame outcome => do
      let v ← condition (0 :: site) frame
      return if v.isBool true = every then ForInStep.yield outcome
        else ForInStep.done (!every) := by
    intro site f g s hfg
    simp only [hcondition _ f g hfg]
  simp only [quantify, run_testBlind hvisit h _ f g _ hfg]

end Iteration

namespace Filter

theorem select_testBlind {test : Action} (h : test.TestBlind) (site : Site) {f g : Frame}
    (hfg : f.SameButTest g) (i : Nat) (vs kept : List Value) :
    select test site f i vs kept = select test site g i vs kept := by
  induction vs generalizing i kept with
  | nil => rfl
  | cons v vs ih =>
    simp only [select, h (i :: site) _ _ (hfg.itemFrame v)]
    exact bind_congr fun answer => ih _ _

theorem run_testBlind {source filter : Action} (hsource : source.TestBlind)
    (hfilter : filter.TestBlind) (kind : FilterKind) : (run source filter kind).TestBlind := by
  intro site f g hfg
  simp only [run, hsource _ f g hfg, hfilter _ f g hfg, select_testBlind hfilter _ hfg,
    hfilter _ _ _ (hfg.itemFrame _)]

end Filter

/-! ### Code -/

namespace Code

/-- Whether a tree may ask for the value under test of its own frame. The bodies of functions and of
tests on another value do not run in this frame, and a decision table, which is no part of an
expression, counts as one that asks. -/
def asksTest (c : Code) : Bool :=
  c.fold fun c parts =>
    match c with
    | testInput | unaryMatch _ | decision _ => true
    | function .. => false
    | withTestInput .. => parts.headD false
    | _ => parts.any id

/-- **Code that does not ask for the value under test** does the same whatever it is. -/
theorem testBlind (m : Machine) {c : Code} (h : c.asksTest = false) : (c.denote m).TestBlind := by
  revert h
  refine partsInduction (P := fun c => c.asksTest = false → (c.denote m).TestBlind)
    (fun c ih hc => ?_) c
  rw [asksTest, fold_eq] at hc
  -- most trees ask if a part does
  have hparts : ((c.children.map asksTest).any id) = false → ∀ d ∈ c.children,
      (d.denote m).TestBlind := by
    intro hany d hd
    refine ih d hd ?_
    rw [List.any_eq_false] at hany
    simpa using hany d.asksTest (List.mem_map_of_mem hd)
  cases c with
  | const v => exact fun _ _ _ _ => rfl
  | constRef i => exact fun _ _ _ _ => rfl
  | input => exact fun _ _ _ hfg => congrArg Except.ok hfg.input
  | testInput => cases hc
  | «local» name => exact fun _ _ _ hfg => congrArg Except.ok (hfg.lookup name)
  | inputField name =>
    exact fun _ _ _ hfg =>
      congrArg (fun v : Value => Except.ok ((v.get? name).getD .null)) hfg.input
  | function params body type =>
    intro site frame frame' hfg
    show Action.closure m params body type site frame = Action.closure m params body type site frame'
    rw [Action.closure, Action.closure, hfg.locals]
  | unaryMatch t => cases hc
  | decision t => cases hc
  | withTestInput s b => exact .withTestInput (ih s List.mem_cons_self hc)
  | member s name =>
    have h := hparts hc
    exact .map _ (h s (by simp [children]))
  | arith op mode l r nullCheck =>
    have h := hparts hc
    exact .arith m op mode nullCheck (h l (by simp [children])) (h r (by simp [children]))
  | concat l r | temporal _ l r | compare _ _ l r | equal _ _ l r | dynamic _ l r
  | listContains l r | rangeContains l r =>
    have h := hparts hc
    exact .both _ (h l (by simp [children])) (h r (by simp [children]))
  | logic op shortCircuit l r =>
    have h := hparts hc
    exact .logic op shortCircuit (h l (by simp [children])) (h r (by simp [children]))
  | not c | negate c | instanceOf c _ | convert c _ =>
    have h := hparts hc
    exact .map _ (h c (by simp [children]))
  | ite c y n =>
    have h := hparts hc
    exact .ite (h c (by simp [children])) (h y (by simp [children])) (h n (by simp [children]))
  | list items => exact .list (forall_denoteList m (hparts hc))
  | context es => exact .context (forall_denoteEntries m (hparts hc))
  | range s e si ei =>
    have h := hparts hc
    have hs := forall_denoteOption m fun d hd => h d (List.mem_append_left _ hd)
    have he := forall_denoteOption m fun d hd => h d (List.mem_append_right _ hd)
    exact .range hs he si ei
  | between v l u =>
    have h := hparts hc
    exact .between (h v (by simp [children])) (h l (by simp [children]))
      (h u (by simp [children]))
  | filter s f kind =>
    have h := hparts hc
    exact Filter.run_testBlind (h s (by simp [children])) (h f (by simp [children])) kind
  | forIn bs body =>
    have h := hparts hc
    have hbs := forall_denoteBindings m fun d hd => h d (List.mem_append_left _ hd)
    exact Iteration.collect_testBlind hbs (h body (by simp [children]))
  | quantified every bs c =>
    have h := hparts hc
    have hbs := forall_denoteBindings m fun d hd => h d (List.mem_append_left _ hd)
    exact Iteration.quantify_testBlind every hbs (h c (by simp [children]))
  | call target args names =>
    have h := hparts hc
    cases target with
    | builtin name => exact .callBuiltin m name (forall_denoteList m h) names
    | value callee =>
      obtain ⟨hcallee, hargs⟩ := List.forall_mem_cons.mp h
      exact .callValue m hcallee (forall_denoteList m hargs) names

end Code

namespace Machine

variable {params : List String} {args : List Value}

/-- The frame of a call with as many arguments as parameters is that of the definition with the
parameters bound, but without a value under test. -/
theorem closureFrame_eq (frame : Frame) (h : args.length = params.length) :
    closureFrame frame.input frame.locals params args =
      { frame with testInput := none }.bindAll (params.zip args) := by
  unfold closureFrame
  rw [h, Nat.sub_self, List.replicate_zero, List.append_nil]
  rfl

/-- A call of a closure runs its body where nothing is under test. -/
theorem invoke_closure (natives : Natives) (precision depth : Nat) (place site : Site)
    (body : Code) (type : Ty) (constants : List Value) (frame : Frame)
    (h : args.length = params.length) :
    invoke natives precision (depth + 1) place
        (.closure site params body frame.locals constants type) args frame.input =
      body.denote ⟨constants, precision, invoke natives precision depth⟩ place
        ({ frame with testInput := none }.bindAll (params.zip args)) := by
  show body.denote _ place (closureFrame frame.input frame.locals params args) = _
  rw [closureFrame_eq frame h]

end Machine

namespace Code

/-- **Calls do what bodies do.** A function expression gives a function, whatever the frame. A call
of it over the same input, with as many arguments as parameters, runs the body in this frame with
the parameters bound, but with nothing under test; calls can nest one level less there. So it does
what the body does in the frame itself if nothing is under test in the frame, or if the body does
not ask for what is. Every call in code over this input is such a call, whatever locals, value under
test and constants there are where the function is called. -/
theorem beta (natives : Natives) (depth : Nat) (m : Machine) (params : List String) (body : Code)
    (type : Ty) (site : Site) (frame : Frame) (args : List Value)
    (hargs : args.length = params.length) :
    ∃ f, (function params body type).denote m site frame = .ok (.function f) ∧
      let run := body.denote ⟨m.constants, m.precision, Machine.invoke natives m.precision depth⟩
      let invoke := fun place =>
        Machine.invoke natives m.precision (depth + 1) place f args frame.input
      (∀ place, invoke place = run place ({ frame with testInput := none }.bindAll
        (params.zip args))) ∧
      (frame.testInput = none ∨ body.asksTest = false →
        ∀ place, invoke place = run place (frame.bindAll (params.zip args))) ∧
      ∀ (pool : List Value) (place : Site) (caller : Frame) (callee : Code) (codes : List Code),
        let n : Machine := ⟨pool, m.precision, Machine.invoke natives m.precision (depth + 1)⟩
        caller.input = frame.input →
        callee.denote n (2 :: place) caller = .ok (.function f) →
        Action.all (0 :: place) caller 0 (denoteList n codes) = .ok args →
        (call (.value callee) codes none).denote n place caller = invoke (3 :: place) := by
  refine ⟨_, rfl, ?_⟩
  intro run invoke
  have hinvoke : ∀ place, invoke place =
      run place ({ frame with testInput := none }.bindAll (params.zip args)) := fun place =>
    Machine.invoke_closure natives m.precision depth place site body type m.constants frame hargs
  refine ⟨hinvoke, fun htest place => ?_, ?_⟩
  · rw [hinvoke]
    rcases htest with hnone | hblind
    · rw [← hnone]
    · exact testBlind _ hblind _ _ _ ⟨rfl, rfl⟩
  · intro pool place caller callee codes n hinput hcallee hcodes
    show Action.call _ (.value (callee.denote _)) (denoteList _ codes) none place caller = _
    simp only [Action.call, hcodes, hcallee, bind, Except.bind]
    rw [hinput]
    rfl

/-- A body that brings a value of its own under test does not ask for the one of the frame. -/
theorem beta_of_own_test :
    let m := Machine.ofPool (fun _ _ => .null) [] Number.defaultPrecision
    let frame := (Frame.ofInput .null).withTest (.int 5)
    let body := withTestInput («local» "x") (compare .gt .natural testInput (.const (.int 1)))
    ∃ f, (function ["x"] body .any).denote m [] frame = .ok (.function f) ∧
      Machine.invoke (fun _ _ => .null) m.precision 1 [] f [.int 3] frame.input =
        .ok (.boolean true) := by
  intro m frame body
  obtain ⟨f, hf, -, hinvoke, -⟩ :=
    beta (fun _ _ => .null) 0 m ["x"] body .any [] frame [.int 3] rfl
  exact ⟨f, hf, (hinvoke (.inr rfl) []).trans rfl⟩

-- the body of a function that asks for the value under test around it does not see it in a call
example :
    let frame := (Frame.ofInput .null).withTest (.int 5)
    let body := compare .gt .natural testInput («local» "x")
    let m : Machine := ⟨[], Number.defaultPrecision, Machine.invoke (fun _ _ => .null) 34 0⟩
    body.denote m [] (frame.bind "x" (.int 3)) = .ok (.boolean true) ∧
      Machine.invoke (fun _ _ => .null) 34 1 [] (.closure [] ["x"] body [] [] .any) [.int 3]
        frame.input = .ok .null := ⟨rfl, rfl⟩

end Code

end Feel
