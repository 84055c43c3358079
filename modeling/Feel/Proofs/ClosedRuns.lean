import Feel.Proofs.ClosedValues
import Feel.Proofs.CodeTypes

/-!
# Runs of closed code

Closed code in a frame of closed values never fails for want of a constant or of a function: it
gives a closed value, or fails for another reason. Each combinator on actions keeps this. The
closures that code makes carry the pool that their bodies are closed over, so that it does not
matter where they are called, and calls nest only up to a limit, on which the induction is.

* `Ends`: an outcome with a property, or a failure that is not for want of anything.
* `Action.Safe`: what closed code does.
* `Decision.run_safe`, `Iteration.collect_safe` and the others: one law for each combinator.
* `Code.Closed.denote`: closed code is safe on a machine whose calls are.
* `Machine.invoke_safe`: calls are safe at every depth.
* `Code.Closed.run`: runs of closed code.
-/

namespace Feel

/-! ### Outcomes -/

/-- A failure for want of something that code refers to. -/
def EvalError.isDangling : EvalError → Bool
  | unknownFunction _ | constantOutOfRange _ => true
  | _ => false

/-- A value with a property, or a failure that is not for want of anything. -/
inductive Ends {α : Type} (P : α → Prop) : Except EvalError α → Prop
  | ok {a : α} (h : P a) : Ends P (.ok a)
  | error {e : EvalError} (h : e.isDangling = false) : Ends P (.error e)

namespace Ends

variable {α β : Type} {P : α → Prop} {Q : β → Prop} {x : Except EvalError α}

theorem bind {f : α → Except EvalError β} (hx : Ends P x) (hf : ∀ a, P a → Ends Q (f a)) :
    Ends Q (x >>= f) := by
  cases hx with
  | ok h => exact hf _ h
  | error h => exact .error h

theorem map {f : α → β} (hx : Ends P x) (hf : ∀ a, P a → Q (f a)) : Ends Q (x.map f) := by
  cases hx with
  | ok h => exact .ok (hf _ h)
  | error h => exact .error h

theorem holds {a : α} (h : Ends P x) (hx : x = .ok a) : P a := by
  subst hx
  cases h with
  | ok h => exact h

theorem not_dangling {e : EvalError} (h : Ends P x) (hx : x = .error e) :
    e.isDangling = false := by
  subst hx
  cases h with
  | error h => exact h

end Ends

variable [Strictness]

/-- Every value of a list is closed. -/
abbrev AllClosed (vs : List Value) : Prop := ∀ v ∈ vs, v.Closed

theorem Datum.Closed.headD {vs : List Value} (h : AllClosed vs) : (vs.headD .null).Closed := by
  cases vs with
  | nil => exact .null
  | cons v vs => exact h v List.mem_cons_self

/-! ### Frames -/

namespace Frame

/-- A frame of closed values. -/
structure Closed (frame : Frame) : Prop where
  input : frame.input.Closed
  testInput : ∀ v, frame.testInput = some v → v.Closed
  locals : ∀ e ∈ frame.locals, e.2.Closed

namespace Closed

variable {frame : Frame} {v : Value}

theorem lookup (h : frame.Closed) (name : String) : (frame.lookup name).Closed :=
  .lookup h.locals name

theorem tested (h : frame.Closed) : frame.tested.Closed := .getD h.testInput

theorem bind (h : frame.Closed) (name : String) (hv : v.Closed) : (frame.bind name v).Closed :=
  ⟨h.input, h.testInput, List.forall_mem_cons.mpr ⟨hv, h.locals⟩⟩

theorem bindAll (h : frame.Closed) {entries : List (String × Value)}
    (hentries : ∀ e ∈ entries, e.2.Closed) : (frame.bindAll entries).Closed := by
  refine ⟨h.input, h.testInput, List.forall_mem_append.mpr ⟨fun e he => ?_, h.locals⟩⟩
  exact hentries e (List.mem_reverse.mp he)

theorem withTest (h : frame.Closed) (hv : v.Closed) : (frame.withTest v).Closed :=
  ⟨h.input, fun _ hw => Option.some.inj hw ▸ hv, h.locals⟩

theorem itemFrame (h : frame.Closed) (hv : v.Closed) : (Filter.itemFrame frame v).Closed := by
  unfold Filter.itemFrame
  split
  · exact (h.bindAll hv.entries).bind _ hv
  · exact h.bind _ hv

end Closed

end Frame

/-! ### Actions -/

namespace Action

/-- In frames of closed values an action gives closed values, and fails for want of nothing. -/
def Safe (a : Action) : Prop := ∀ site frame, frame.Closed → Ends Datum.Closed (a site frame)

namespace Safe

variable {a b c : Action}

theorem map {f : Value → Value} (ha : a.Safe) (hf : ∀ v, v.Closed → (f v).Closed) :
    (map f a).Safe := fun _ _ hframe =>
  (ha _ _ hframe).bind fun v hv => .ok (hf v hv)

theorem both {f : Value → Value → Value} (ha : a.Safe) (hb : b.Safe)
    (hf : ∀ v w, (f v w).Steady) : (both f a b).Safe := fun _ _ hframe =>
  (ha _ _ hframe).bind fun v _ => (hb _ _ hframe).bind fun w _ => .ok (.steady (hf v w))

theorem all {as : List Action} (h : ∀ a ∈ as, a.Safe) (site : Site) {frame : Frame}
    (hframe : frame.Closed) (i : Nat) : Ends AllClosed (Action.all site frame i as) := by
  induction as generalizing i with
  | nil => exact .ok fun _ hv => absurd hv List.not_mem_nil
  | cons a as ih =>
    rw [List.forall_mem_cons] at h
    exact (h.1 _ _ hframe).bind fun v hv => (ih h.2 (i + 1)).bind fun vs hvs =>
      .ok (List.forall_mem_cons.mpr ⟨hv, hvs⟩)

theorem arith {m : Machine} (op : Operator) (mode : NumericMode) (nullCheck : Bool)
    (ha : a.Safe) (hb : b.Safe) : (arith m op mode nullCheck a b).Safe := by
  intro site frame hframe
  refine (ha _ _ hframe).bind fun l _ => ?_
  split
  · exact .ok .null
  · exact (hb _ _ hframe).bind fun r _ => .ok (.steady (.arith ..))

omit [Strictness] in
theorem steady_dynamicValue (precision : Nat) (op : Operator) (l r : Value) :
    (dynamicValue precision op l r).Steady := by
  unfold dynamicValue
  split
  · exact .arith ..
  · exact .dynamic ..

theorem logic (op : Operator) (shortCircuit : Bool) (ha : a.Safe) (hb : b.Safe) :
    (logic op shortCircuit a b).Safe := by
  intro site frame hframe
  refine (ha _ _ hframe).bind fun l hl => ?_
  split
  · exact .ok hl
  · refine (hb _ _ hframe).bind fun r hr => .ok ?_
    split
    · exact hr
    · exact .steady (.logic ..)

theorem ite (ha : a.Safe) (hb : b.Safe) (hc : c.Safe) : (ite a b c).Safe := by
  intro site frame hframe
  refine (ha _ _ hframe).bind fun v _ => ?_
  split
  · exact hb _ _ hframe
  · exact hc _ _ hframe

theorem list {as : List Action} (h : ∀ a ∈ as, a.Safe) : (list as).Safe := fun site _ hframe =>
  (all h site hframe 0).bind fun _ hvs => .ok (.list hvs)

theorem entries {es : List (String × Action)} (h : ∀ e ∈ es, e.2.Safe) (site : Site) (i : Nat)
    {frame : Frame} (hframe : frame.Closed) {done : List (String × Value)}
    (hdone : Datum.Closed (.context done)) :
    Ends (fun out => Datum.Closed (.context out)) (Action.entries site i frame es done) := by
  induction es generalizing i frame done with
  | nil => exact .ok hdone
  | cons e es ih =>
    rw [List.forall_mem_cons] at h
    exact (h.1 _ _ hframe).bind fun v hv =>
      ih h.2 (i + 1) (hframe.bind e.1 hv) (hdone.insert e.1 hv)

theorem context {es : List (String × Action)} (h : ∀ e ∈ es, e.2.Safe) : (context es).Safe :=
  fun site _ hframe =>
    (entries h site 0 hframe .empty).bind fun _ hout => .ok hout

theorem optional {o : Option Action} (h : ∀ a, o = some a → a.Safe) (site : Site) {frame : Frame}
    (hframe : frame.Closed) :
    Ends (fun out => ∀ v, out = some v → v.Closed) (Action.optional o site frame) := by
  cases o with
  | none => exact .ok nofun
  | some a => exact (h a rfl _ _ hframe).map fun v hv _ hw => Option.some.inj hw ▸ hv

theorem range {s e : Option Action} (hs : ∀ a, s = some a → a.Safe)
    (he : ∀ a, e = some a → a.Safe) (si ei : Bool) : (range s e si ei).Safe :=
  fun _ _ hframe => (optional hs _ hframe).bind fun _ hstart =>
    (optional he _ hframe).bind fun _ hfinish => .ok (.range hstart hfinish)

theorem between (ha : a.Safe) (hb : b.Safe) (hc : c.Safe) : (between a b c).Safe :=
  fun _ _ hframe => (ha _ _ hframe).bind fun _ _ => (hb _ _ hframe).bind fun _ _ =>
    (hc _ _ hframe).bind fun _ _ => .ok (.steady (.and ..))

theorem matchTest_closed {v : Value} (hv : v.Closed) (input : Value) :
    (matchTest v input).Closed := by
  unfold matchTest
  split
  · exact .steady (.boolean _)
  · exact .steady (.ofBool? _)
  · exact .steady (.equality ..)
  · exact hv
  · exact .steady (.equality ..)

omit [Strictness] in
theorem steady_listContains (l v : Value) : (Action.listContains l v).Steady := by
  unfold Action.listContains
  split <;> constructor

omit [Strictness] in
theorem steady_rangeContains (r v : Value) : (Action.rangeContains r v).Steady := by
  unfold Action.rangeContains
  split
  · exact .ofBool? _
  · exact .null

theorem withTestInput (ha : a.Safe) (hb : b.Safe) : (withTestInput a b).Safe :=
  fun _ _ hframe => (ha _ _ hframe).bind fun _ hv => hb _ _ (hframe.withTest hv)

theorem holds (ha : a.Safe) (site : Site) {frame : Frame} (hframe : frame.Closed) {v : Value}
    (hv : v.Closed) : Ends (fun _ => True) (Action.holds a site frame v) :=
  (ha _ _ (hframe.withTest hv)).bind fun _ _ => .ok .intro

end Safe

/-! ### Calls -/

/-- Calls of closed functions with closed arguments over a closed input are safe. -/
def CallsSafely (call : Caller) : Prop :=
  ∀ (site : Site) (f : FunctionValue) (args : List Value) (input : Value),
    Datum.Closed (.function f) → AllClosed args → input.Closed →
      Ends Datum.Closed (call site f args input)

theorem insertBy_ends {precedes : Value → Value → Except EvalError Bool} {v : Value}
    {ws : List Value} (h : ∀ w ∈ ws, Ends (fun _ => True) (precedes v w)) (hv : v.Closed)
    (hws : AllClosed ws) : Ends AllClosed (Builtin.insertBy precedes v ws) := by
  induction ws with
  | nil => exact .ok (List.forall_mem_singleton.mpr hv)
  | cons w ws ih =>
    rw [List.forall_mem_cons] at h
    refine h.1.bind fun first _ => ?_
    split
    · exact .ok (List.forall_mem_cons.mpr ⟨hv, hws⟩)
    · obtain ⟨hw, hws⟩ := List.forall_mem_cons.mp hws
      exact (ih h.2 hws).bind fun out hout => .ok (List.forall_mem_cons.mpr ⟨hw, hout⟩)

theorem sortBy_ends {precedes : Value → Value → Except EvalError Bool}
    (h : ∀ v w : Value, v.Closed → w.Closed → Ends (fun _ => True) (precedes v w))
    {vs sorted : List Value} (hvs : AllClosed vs) (hsorted : AllClosed sorted) :
    Ends AllClosed (Builtin.sortBy precedes vs sorted) := by
  induction vs generalizing sorted with
  | nil => exact .ok hsorted
  | cons v vs ih =>
    rw [AllClosed, List.forall_mem_cons] at hvs
    refine (insertBy_ends (fun w hw => h v w hvs.1 (hsorted w hw)) hvs.1 hsorted).bind ?_
    exact fun out hout => ih hvs.2 hout

/-- Built-in functions call only functions that they are given. -/
theorem apply_ends (f : Builtin) {args : List Value} (hargs : AllClosed args) (precision : Nat)
    {invoke : FunctionValue → List Value → Except EvalError Value}
    (hinvoke : ∀ g vs, Datum.Closed (.function g) → AllClosed vs →
      Ends Datum.Closed (invoke g vs)) :
    Ends Datum.Closed (f.apply args precision invoke) := by
  unfold Builtin.apply
  split
  · next items precedes hlist hfunction =>
    have hitems : AllClosed items := (hlist ▸ Builtin.get_closed hargs 0).items
    have hprecedes : Datum.Closed (.function precedes) :=
      hfunction ▸ Builtin.get_closed hargs 1
    refine (sortBy_ends (fun v w hv hw => ?_) hitems (fun _ hv => absurd hv List.not_mem_nil)).map
      fun out hout => .list hout
    have hpair : AllClosed [v, w] :=
      List.forall_mem_cons.mpr ⟨hv, List.forall_mem_singleton.mpr hw⟩
    exact (hinvoke precedes [v, w] hprecedes hpair).map fun _ _ => .intro
  · exact .ok (Builtin.value_closed _ hargs precision)

theorem callBuiltin_ends {name : String} (hname : (Builtin.ofName? name).isSome)
    {args : List Value} (hargs : AllClosed args) (precision : Nat)
    {invoke : FunctionValue → List Value → Except EvalError Value}
    (hinvoke : ∀ g vs, Datum.Closed (.function g) → AllClosed vs →
      Ends Datum.Closed (invoke g vs)) :
    Ends Datum.Closed (callBuiltin name args precision invoke) := by
  obtain ⟨f, hf⟩ := Option.isSome_iff_exists.mp hname
  unfold callBuiltin
  rw [hf]
  dsimp only
  split
  · exact apply_ends f hargs precision hinvoke
  · exact .error rfl

theorem positional_closed (f : FunctionValue) (names : Option (List String)) {args : List Value}
    (h : AllClosed args) : AllClosed (positional f names args) := by
  unfold positional
  split
  · intro v hv
    obtain ⟨p, -, rfl⟩ := List.mem_map.mp hv
    exact .getD fun v hv => h v (List.of_mem_zip (Ty.mem_of_lookup hv)).2
  · exact h

namespace Safe

variable {m : Machine}

theorem callBuiltin (hm : CallsSafely m.call) {name : String}
    (hname : (Builtin.ofName? name).isSome) {args : List Action} (hargs : ∀ a ∈ args, a.Safe)
    (names : Option (List String)) : (Action.call m (.builtin name) args names).Safe :=
  fun _ _ hframe => (all hargs _ hframe 0).bind fun _ hvs =>
    callBuiltin_ends hname hvs _ fun _ _ hg hws => hm _ _ _ _ hg hws hframe.input

theorem callValue (hm : CallsSafely m.call) {callee : Action} (hcallee : callee.Safe)
    {args : List Action} (hargs : ∀ a ∈ args, a.Safe) (names : Option (List String)) :
    (Action.call m (.value callee) args names).Safe := by
  intro site frame hframe
  refine (all hargs _ hframe 0).bind fun vs hvs => (hcallee _ _ hframe).bind fun v hv => ?_
  split
  · exact hm _ _ _ _ hv (positional_closed _ names hvs) hframe.input
  · exact .ok .null

end Safe

end Action

/-! ### Iterations -/

namespace Domain

theorem expand_ends (s e : Option Value) (si ei : Bool) : Ends AllClosed (expand s e si ei) := by
  unfold expand
  split
  · split
    · unfold expandWhole
      extract_lets step first last count
      split
      · exact .ok nofun
      split
      · exact .error rfl
      · refine .ok fun v hv => ?_
        obtain ⟨i, -, rfl⟩ := List.mem_map.mp hv
        exact .steady (.number (Number.equal_self_of_kind (Number.kind_ofInt _)))
    · exact .ok nofun
  · unfold expandDates
    extract_lets days step dates
    split
    · exact .error rfl
    · refine .ok fun v hv => ?_
      obtain ⟨d, -, rfl⟩ := List.mem_map.mp hv
      exact .steady (.date d)
  · exact .ok nofun

theorem elements_ends {v : Value} (hv : v.Closed) : Ends AllClosed (elements v) := by
  unfold elements
  split
  · exact .ok nofun
  · exact .ok hv.items
  · exact expand_ends _ _ _ _
  · exact .ok (List.forall_mem_singleton.mpr hv)

theorem stepsFrom_ends {step : Nat → Value → Except EvalError Value}
    (h : ∀ n v, v.Closed → Ends Datum.Closed (step n v)) (last : Value) (direction : Ordering)
    (n : Nat) {current : Value} (hcurrent : current.Closed) {before : List Value}
    (hbefore : AllClosed before) :
    Ends AllClosed (stepsFrom step last direction n current before) := by
  induction n generalizing current before with
  | zero => exact .error rfl
  | succ n ih =>
    have hall : AllClosed (current :: before) := List.forall_mem_cons.mpr ⟨hcurrent, hbefore⟩
    have hreverse : AllClosed (current :: before).reverse := fun v hv =>
      hall v (List.mem_reverse.mp hv)
    rw [stepsFrom]
    split
    · refine (h n current hcurrent).bind fun next hnext => ?_
      split
      · exact .ok hreverse
      · exact ih hnext hall
    · exact .ok hreverse

theorem run_ends {d : Domain Action} (h : ∀ a ∈ d.cells, a.Safe) (site : Site) {frame : Frame}
    (hframe : frame.Closed) : Ends AllClosed (d.run site frame) := by
  cases d with
  | values source =>
    exact (h source List.mem_cons_self _ _ hframe).bind fun v hv => elements_ends hv
  | steps first last cursor successor predecessor =>
    have hcells : first.Safe ∧ last.Safe ∧ successor.Safe ∧ predecessor.Safe := by
      simpa [cells] using h
    obtain ⟨hfirst, hlast, hsuccessor, hpredecessor⟩ := hcells
    refine (hfirst _ _ hframe).bind fun v hv => (hlast _ _ hframe).bind fun w _ => ?_
    split
    · exact .ok nofun
    · exact .ok (List.forall_mem_singleton.mpr hv)
    · next direction _ _ =>
      have hnext : (if direction = .gt then predecessor else successor).Safe := by
        split
        · exact hpredecessor
        · exact hsuccessor
      exact stepsFrom_ends (fun n u hu => hnext _ _ (hframe.bind cursor hu)) _ _ _ hv nofun

end Domain

namespace Iteration

variable {σ : Type} {S : σ → Prop}
  {visit : Site → Frame → σ → Except EvalError (ForInStep σ)}

/-- A visit keeps what holds of the state. -/
def Keeps (S : σ → Prop) (visit : Site → Frame → σ → Except EvalError (ForInStep σ)) : Prop :=
  ∀ site frame s, frame.Closed → S s → Ends (fun out => S (final out)) (visit site frame s)

theorem forEach_ends (h : Keeps S visit) (name : String) (site : Site) {frame : Frame}
    (hframe : frame.Closed) (i : Nat) {vs : List Value} (hvs : AllClosed vs) {s : σ} (hs : S s) :
    Ends (fun out => S (final out)) (forEach name visit site frame i vs s) := by
  induction vs generalizing i s with
  | nil => exact .ok hs
  | cons v vs ih =>
    rw [AllClosed, List.forall_mem_cons] at hvs
    have hvisit := h (i :: site) (frame.bind name v) s (hframe.bind name hvs.1) hs
    rw [forEach]
    generalize visit (i :: site) (frame.bind name v) s = outcome at hvisit
    cases hvisit with
    | @ok out hout =>
      cases out with
      | done s' => exact .ok hout
      | yield s' => exact ih (i + 1) hvs.2 hout
    | error he => exact .error he

theorem run_keeps (h : Keeps S visit) {bs : List (Binding Action)}
    (hbs : ∀ b ∈ bs, ∀ a ∈ b.domain.cells, a.Safe) : Keeps S (run visit bs) := by
  induction bs with
  | nil => exact h
  | cons b bs ih =>
    rw [List.forall_mem_cons] at hbs
    intro site frame s hframe hs
    exact (Domain.run_ends hbs.1 _ hframe).bind fun vs hvs =>
      forEach_ends (ih hbs.2) b.name site hframe 1 hvs hs

theorem collect_safe {bs : List (Binding Action)}
    (hbs : ∀ b ∈ bs, ∀ a ∈ b.domain.cells, a.Safe) {body : Action} (hbody : body.Safe) :
    (collect bs body).Safe := by
  intro site frame hframe
  refine Ends.bind (P := fun out => AllClosed (final out)) ?_ fun out hout => ?_
  · refine run_keeps (fun site frame vs hframe hvs => ?_) hbs _ _ _ hframe nofun
    exact (hbody _ _ hframe).bind fun v hv => .ok (List.forall_mem_cons.mpr ⟨hv, hvs⟩)
  · exact .ok (.list fun v hv => hout v (List.mem_reverse.mp hv))

theorem quantify_safe (every : Bool) {bs : List (Binding Action)}
    (hbs : ∀ b ∈ bs, ∀ a ∈ b.domain.cells, a.Safe) {condition : Action}
    (hcondition : condition.Safe) : (quantify every bs condition).Safe := by
  intro site frame hframe
  refine Ends.bind (P := fun _ => True) ?_ fun out _ => .ok (.steady (.boolean _))
  refine run_keeps (S := fun _ => True) (fun site frame s hframe _ => ?_) hbs _ _ _ hframe .intro
  exact (hcondition _ _ hframe).bind fun _ _ => .ok .intro

end Iteration

/-! ### Filters -/

namespace Filter

theorem items_closed {v : Value} (h : v.Closed) : AllClosed (items v) := by
  unfold items
  split
  · exact h.items
  · exact List.forall_mem_singleton.mpr h

theorem element_closed {items : List Value} (h : AllClosed items) (position : Value) :
    (element items position).Closed := by
  rcases element_mem items position with hnull | hmem
  · rw [hnull]
    exact .null
  · exact h _ hmem

theorem select_ends {test : Action} (h : test.Safe) (site : Site) {frame : Frame}
    (hframe : frame.Closed) (i : Nat) {vs kept : List Value} (hvs : AllClosed vs)
    (hkept : AllClosed kept) : Ends Datum.Closed (select test site frame i vs kept) := by
  induction vs generalizing i kept with
  | nil => exact .ok (.list fun v hv => hkept v (List.mem_reverse.mp hv))
  | cons v vs ih =>
    rw [AllClosed, List.forall_mem_cons] at hvs
    refine (h _ _ (hframe.itemFrame hvs.1)).bind fun answer _ => ih (i + 1) hvs.2 ?_
    split
    · exact List.forall_mem_cons.mpr ⟨hvs.1, hkept⟩
    · exact hkept

theorem run_safe {source filter : Action} (hs : source.Safe) (hf : filter.Safe)
    (kind : FilterKind) : (run source filter kind).Safe := by
  intro site frame hframe
  refine (hs _ _ hframe).bind fun v hv => ?_
  extract_lets items
  have hclosed : AllClosed items := items_closed hv
  split
  · exact .ok .null
  · cases kind with
    | index =>
      exact (hf _ _ hframe).bind fun position _ => .ok (element_closed hclosed position)
    | predicate => exact select_ends hf _ hframe 0 hclosed nofun
    | dynamic =>
      refine (hf _ _ (hframe.itemFrame (.headD hclosed))).bind fun position _ => ?_
      split
      · exact .ok (element_closed hclosed _)
      · exact select_ends hf _ hframe 0 hclosed nofun

end Filter

/-! ### Decisions -/

namespace Decision

/-- The parts of a row of a table are safe. -/
structure RuleSafe (rule : MatrixRule Action) : Prop where
  conditions : ∀ a ∈ rule.conditions, a.Safe
  outputs : ∀ a ∈ rule.outputs, a.Safe

/-- The parts of an output column are safe. -/
structure OutputSafe (column : MatrixOutput Action) : Prop where
  check : ∀ a, column.check = some a → a.Safe
  priorities : ∀ a ∈ column.priorities, a.Safe
  fallback : ∀ a, column.fallback = some a → a.Safe

/-- The parts of a table are safe. -/
structure TableSafe (table : DecisionMatrix Action) : Prop where
  inputs : ∀ a ∈ table.inputs, a.Safe
  rules : ∀ rule ∈ table.rules, RuleSafe rule
  outputs : ∀ column ∈ table.outputs, OutputSafe column

theorem TableSafe.of_cells {table : DecisionMatrix Action} (h : ∀ a ∈ table.cells, a.Safe) :
    TableSafe table := by
  rw [DecisionMatrix.cells, List.forall_mem_append, List.forall_mem_append] at h
  obtain ⟨⟨hinputs, hrules⟩, houtputs⟩ := h
  refine ⟨hinputs, fun rule hrule => ⟨fun a ha => ?_, fun a ha => ?_⟩, fun column hcolumn =>
    ⟨fun a ha => ?_, fun a ha => ?_, fun a ha => ?_⟩⟩
  · exact hrules a (List.mem_flatMap.mpr ⟨rule, hrule, List.mem_append_left _ ha⟩)
  · exact hrules a (List.mem_flatMap.mpr ⟨rule, hrule, List.mem_append_right _ ha⟩)
  · exact houtputs a (List.mem_flatMap.mpr ⟨column, hcolumn, by simp [ha]⟩)
  · exact houtputs a (List.mem_flatMap.mpr ⟨column, hcolumn, by simp [ha]⟩)
  · exact houtputs a (List.mem_flatMap.mpr ⟨column, hcolumn, by simp [ha]⟩)

variable {frame : Frame}

/-! ### Matching -/

theorem accepts_ends {conditions : List Action} (h : ∀ a ∈ conditions, a.Safe) (site : Site)
    (hframe : frame.Closed) (i : Nat) {inputs : List Value} (hinputs : AllClosed inputs) :
    Ends (fun _ => True) (accepts site frame i conditions inputs) := by
  induction conditions generalizing i inputs with
  | nil => exact .ok .intro
  | cons c cs ih =>
    cases inputs with
    | nil => exact .ok .intro
    | cons v vs =>
      rw [List.forall_mem_cons] at h
      rw [AllClosed, List.forall_mem_cons] at hinputs
      refine (h.1.holds _ hframe hinputs.1).bind fun held _ => ?_
      split
      · exact ih h.2 (i + 1) hinputs.2
      · exact .ok .intro

theorem matching_ends {rules : List (MatrixRule Action)} (h : ∀ rule ∈ rules, RuleSafe rule)
    (site : Site) (hframe : frame.Closed) (onlyFirst : Bool) (i : Nat) {inputs : List Value}
    (hinputs : AllClosed inputs) :
    Ends (fun hits => ∀ hit ∈ hits, RuleSafe hit.2)
      (matching site frame inputs onlyFirst i rules) := by
  induction rules generalizing i with
  | nil => exact .ok fun _ hhit => absurd hhit List.not_mem_nil
  | cons rule rules ih =>
    rw [List.forall_mem_cons] at h
    refine (accepts_ends h.1.conditions _ hframe 0 hinputs).bind fun accepted _ => ?_
    split
    · split
      · exact .ok (List.forall_mem_singleton.mpr h.1)
      · exact (ih h.2 (i + 1)).bind fun hits hhits =>
          .ok (List.forall_mem_cons.mpr ⟨h.1, hhits⟩)
    · exact ih h.2 (i + 1)

/-! ### Rows -/

theorem allowed_ends {column : MatrixOutput Action} (h : OutputSafe column) (site : Site)
    (hframe : frame.Closed) {v : Value} (hv : v.Closed) :
    Ends (fun _ => True) (allowed site frame column v) := by
  unfold allowed
  split
  · next check hcheck =>
    split
    · exact .ok .intro
    · exact (h.check check hcheck).holds _ hframe hv
  · exact .ok .intro

theorem row_ends {outputs : List Action} (h : ∀ a ∈ outputs, a.Safe)
    {columns : List (MatrixOutput Action)} (hcolumns : ∀ column ∈ columns, OutputSafe column)
    (site : Site) (hframe : frame.Closed) (rule j : Nat) :
    Ends AllClosed (row site frame rule j outputs columns) := by
  induction outputs generalizing j columns with
  | nil => exact .ok nofun
  | cons a as ih =>
    cases columns with
    | nil => exact .ok nofun
    | cons column columns =>
      rw [List.forall_mem_cons] at h hcolumns
      refine (h.1 _ _ hframe).bind fun v hv => ?_
      refine (allowed_ends hcolumns.1 _ hframe hv).bind fun isAllowed _ => ?_
      split
      · exact (ih h.2 hcolumns.2 (j + 1)).bind fun vs hvs =>
          .ok (List.forall_mem_cons.mpr ⟨hv, hvs⟩)
      · exact .error rfl

/-- Hits whose rows are closed. -/
abbrev HitsClosed (hits : List Hit) : Prop := ∀ hit ∈ hits, AllClosed hit.2

theorem rows_ends {columns : List (MatrixOutput Action)}
    (hcolumns : ∀ column ∈ columns, OutputSafe column) (site : Site) (hframe : frame.Closed)
    {matched : List (Nat × MatrixRule Action)} (h : ∀ hit ∈ matched, RuleSafe hit.2) :
    Ends HitsClosed (rows site frame columns matched) := by
  induction matched with
  | nil => exact .ok nofun
  | cons hit rest ih =>
    rw [List.forall_mem_cons] at h
    exact (row_ends h.1.outputs hcolumns _ hframe _ 0).bind fun r hr => (ih h.2).bind
      fun hits hhits => .ok (List.forall_mem_cons.mpr ⟨hr, hhits⟩)

theorem defaults_ends {columns : List (MatrixOutput Action)}
    (h : ∀ column ∈ columns, OutputSafe column) (site : Site) (hframe : frame.Closed) (j : Nat) :
    Ends AllClosed (defaults site frame j columns) := by
  induction columns generalizing j with
  | nil => exact .ok nofun
  | cons column columns ih =>
    rw [List.forall_mem_cons] at h
    have hchecked : ∀ v : Value, v.Closed → Ends AllClosed (do
        if ← allowed ((2 * j + 1) :: site) frame column v then
          return v :: (← defaults site frame (j + 1) columns)
        throw (.defaultOutput (j + 1))) := by
      intro v hv
      refine (allowed_ends h.1 _ hframe hv).bind fun isAllowed _ => ?_
      split
      · exact (ih h.2 (j + 1)).bind fun vs hvs => .ok (List.forall_mem_cons.mpr ⟨hv, hvs⟩)
      · exact .error rfl
    rw [defaults]
    split
    · next a ha => exact (h.1.fallback a ha _ _ hframe).bind hchecked
    · exact hchecked .null .null

/-! ### Priorities -/

theorem rank_ends {priorities : List Action} (h : ∀ a ∈ priorities, a.Safe) (site : Site)
    (hframe : frame.Closed) {v : Value} (hv : v.Closed) (i : Nat) :
    Ends (fun _ => True) (rank site frame v i priorities) := by
  induction priorities generalizing i with
  | nil => exact .ok .intro
  | cons a as ih =>
    rw [List.forall_mem_cons] at h
    refine (h.1.holds _ hframe hv).bind fun held _ => ?_
    split
    · exact .ok .intro
    · exact ih h.2 (i + 1)

theorem rowRank_ends {columns : List (MatrixOutput Action)}
    (h : ∀ column ∈ columns, OutputSafe column) (site : Site) (hframe : frame.Closed) (j : Nat)
    {r : Row} (hr : AllClosed r) : Ends (fun _ => True) (rowRank site frame j columns r) := by
  induction columns generalizing j r with
  | nil => exact .ok .intro
  | cons column columns ih =>
    cases r with
    | nil => exact .ok .intro
    | cons v vs =>
      rw [List.forall_mem_cons] at h
      rw [AllClosed, List.forall_mem_cons] at hr
      exact (rank_ends h.1.priorities _ hframe hr.1 0).bind fun _ _ =>
        (ih h.2 (j + 1) hr.2).bind fun _ _ => .ok .intro

theorem ranks_ends {columns : List (MatrixOutput Action)}
    (h : ∀ column ∈ columns, OutputSafe column) (site : Site) (hframe : frame.Closed)
    {hits : List Hit} (hhits : HitsClosed hits) :
    Ends (fun ranked => ∀ r ∈ ranked, AllClosed r.2) (ranks site frame columns hits) := by
  induction hits with
  | nil => exact .ok fun _ hr => absurd hr List.not_mem_nil
  | cons hit rest ih =>
    rw [HitsClosed, List.forall_mem_cons] at hhits
    exact (rowRank_ends h _ hframe 0 hhits.1).bind fun _ _ => (ih hhits.2).bind fun _ hranked =>
      .ok (List.forall_mem_cons.mpr ⟨hhits.1, hranked⟩)

theorem best_closed {r : List Nat × Row} (hr : AllClosed r.2) {rest : List (List Nat × Row)}
    (h : ∀ r ∈ rest, AllClosed r.2) : AllClosed (best r rest) := by
  induction rest generalizing r with
  | nil => exact hr
  | cons next rest ih =>
    rw [List.forall_mem_cons] at h
    rw [best]
    split
    · exact ih hr h.2
    · exact ih h.1 h.2

/-! ### Results -/

theorem aggregate_closed (aggregation : Aggregation) {vs : List Value} (h : AllClosed vs) :
    (aggregate aggregation vs).Closed := by
  cases aggregation with
  | count => exact .steady (.long _)
  | sum => exact Builtin.reduce_closed .add h
  | min => exact Builtin.extreme_closed _ h
  | max => exact Builtin.extreme_closed _ h

theorem shape_closed (table : DecisionMatrix Action) {r : Row} (h : AllClosed r) :
    (shape table r).Closed := by
  unfold shape
  split
  · exact .headD h
  · refine .context (fun _ => Entries.nodup_ofList _) ?_
    exact Entries.forall_ofList fun e he => h e.2 (List.of_mem_zip he).2

theorem unmatched_ends {table : DecisionMatrix Action} (h : TableSafe table) (site : Site)
    (hframe : frame.Closed) : Ends Datum.Closed (unmatched table site frame) := by
  unfold unmatched
  extract_lets multi
  split
  · refine (defaults_ends h.outputs _ hframe 0).bind fun r hr => .ok ?_
    split
    · split
      · exact aggregate_closed _ (List.forall_mem_singleton.mpr (.headD hr))
      · exact .list (List.forall_mem_singleton.mpr (shape_closed table hr))
    · exact shape_closed table hr
  · refine .ok ?_
    repeat' split
    all_goals first | exact .null | exact .steady (.int _) | exact .list nofun

theorem settle_ends {table : DecisionMatrix Action} (h : TableSafe table) (site : Site)
    (hframe : frame.Closed) {hits : List Hit} (hhits : HitsClosed hits) :
    Ends Datum.Closed (settle table site frame hits) := by
  have hfirst : (shape table ((hits.map (·.2)).headD [])).Closed := by
    refine shape_closed table ?_
    cases hits with
    | nil => exact nofun
    | cons hit rest => exact hhits hit List.mem_cons_self
  have hshapes : AllClosed (hits.map fun hit => shape table hit.2) := by
    intro v hv
    obtain ⟨hit, hhit, rfl⟩ := List.mem_map.mp hv
    exact shape_closed table (hhits hit hhit)
  unfold settle
  extract_lets first
  split
  · split
    · exact .error rfl
    · exact .ok hfirst
  · exact .ok hfirst
  · split
    · exact .ok hfirst
    · exact .error rfl
  · refine (ranks_ends h.outputs _ hframe hhits).bind fun ranked hranked => ?_
    split
    · exact .ok (shape_closed table nofun)
    · rw [List.forall_mem_cons] at hranked
      exact .ok (shape_closed table (best_closed hranked.1 hranked.2))
  · split
    · refine .ok (aggregate_closed _ fun v hv => ?_)
      obtain ⟨hit, hhit, rfl⟩ := List.mem_map.mp hv
      exact .headD (hhits hit hhit)
    · exact .ok (.list hshapes)
  · exact .ok (.list hshapes)
  · refine (ranks_ends h.outputs _ hframe hhits).bind fun ranked hranked => .ok (.list ?_)
    intro v hv
    obtain ⟨r, hr, rfl⟩ := List.mem_map.mp hv
    exact shape_closed table (hranked r (List.mem_mergeSort.mp hr))

theorem run_safe {table : DecisionMatrix Action} (h : TableSafe table) : (run table).Safe := by
  intro site frame hframe
  refine (Action.Safe.all h.inputs _ hframe 0).bind fun inputs hinputs => ?_
  refine (matching_ends h.rules _ hframe _ 1 hinputs).bind fun rules hrules => ?_
  split
  · exact unmatched_ends h _ hframe
  · exact (rows_ends h.outputs _ hframe hrules).bind fun hits hhits =>
      settle_ends h _ hframe hhits

end Decision

/-! ### Meanings of parts -/

namespace Code

section

omit [Strictness]

variable {P : Action → Prop} (m : Machine)

theorem forall_denoteList {cs : List Code} (h : ∀ c ∈ cs, P (c.denote m)) :
    ∀ a ∈ denoteList m cs, P a := by
  induction cs with
  | nil => exact nofun
  | cons c cs ih =>
    rw [List.forall_mem_cons] at h
    exact List.forall_mem_cons.mpr ⟨h.1, ih h.2⟩

theorem forall_denoteEntries {es : List (String × Code)}
    (h : ∀ c ∈ es.map (·.2), P (c.denote m)) : ∀ e ∈ denoteEntries m es, P e.2 := by
  induction es with
  | nil => exact fun _ he => absurd he List.not_mem_nil
  | cons e es ih =>
    rw [List.map_cons, List.forall_mem_cons] at h
    exact List.forall_mem_cons.mpr ⟨h.1, ih h.2⟩

theorem forall_denoteOption {o : Option Code} (h : ∀ c ∈ o.toList, P (c.denote m)) :
    ∀ a, denoteOption m o = some a → P a := by
  cases o with
  | none => exact nofun
  | some c =>
    intro a ha
    cases ha
    exact h c List.mem_cons_self

theorem forall_denoteDomain {d : Domain Code} (h : ∀ c ∈ d.cells, P (c.denote m)) :
    ∀ a ∈ (denoteDomain m d).cells, P a := by
  cases d with
  | values c => exact List.forall_mem_singleton.mpr (h c List.mem_cons_self)
  | steps f l cursor s p => exact List.forall_mem_map.mpr h

theorem forall_denoteBindings {bs : List (Binding Code)}
    (h : ∀ c ∈ bs.flatMap (·.domain.cells), P (c.denote m)) :
    ∀ b ∈ denoteBindings m bs, ∀ a ∈ b.domain.cells, P a := by
  induction bs with
  | nil => exact fun _ hb => absurd hb List.not_mem_nil
  | cons b bs ih =>
    rw [List.flatMap_cons, List.forall_mem_append] at h
    exact List.forall_mem_cons.mpr ⟨forall_denoteDomain m h.1, ih h.2⟩

theorem forall_denoteRules {rs : List (MatrixRule Code)}
    (h : ∀ c ∈ rs.flatMap (fun r => r.conditions ++ r.outputs), P (c.denote m)) :
    ∀ a ∈ (denoteRules m rs).flatMap (fun r => r.conditions ++ r.outputs), P a := by
  induction rs with
  | nil => exact nofun
  | cons r rs ih =>
    rw [List.flatMap_cons, List.forall_mem_append, List.forall_mem_append] at h
    show ∀ a ∈ (denoteList m r.conditions ++ denoteList m r.outputs) ++ _, P a
    rw [List.forall_mem_append, List.forall_mem_append]
    exact ⟨⟨forall_denoteList m h.1.1, forall_denoteList m h.1.2⟩, ih h.2⟩

theorem forall_denoteOutputs {os : List (MatrixOutput Code)}
    (h : ∀ c ∈ os.flatMap (fun o => o.check.toList ++ o.priorities ++ o.fallback.toList),
      P (c.denote m)) :
    ∀ a ∈ (denoteOutputs m os).flatMap
      (fun o => o.check.toList ++ o.priorities ++ o.fallback.toList), P a := by
  have hoption : ∀ {o : Option Code}, (∀ c ∈ o.toList, P (c.denote m)) →
      ∀ a ∈ (denoteOption m o).toList, P a := fun h a ha =>
    forall_denoteOption m h a (Option.mem_toList.mp ha)
  induction os with
  | nil => exact nofun
  | cons o os ih =>
    rw [List.flatMap_cons, List.forall_mem_append, List.forall_mem_append,
      List.forall_mem_append] at h
    show ∀ a ∈ ((denoteOption m o.check).toList ++ denoteList m o.priorities ++
      (denoteOption m o.fallback).toList) ++ _, P a
    rw [List.forall_mem_append, List.forall_mem_append, List.forall_mem_append]
    exact ⟨⟨⟨hoption h.1.1.1, forall_denoteList m h.1.1.2⟩, hoption h.1.2⟩, ih h.2⟩

theorem forall_denoteMatrix {t : DecisionMatrix Code} (h : ∀ c ∈ t.cells, P (c.denote m)) :
    ∀ a ∈ (denoteMatrix m t).cells, P a := by
  rw [DecisionMatrix.cells, List.forall_mem_append, List.forall_mem_append] at h
  obtain ⟨name, inputs, rules, outputs, policy, aggregation, single⟩ := t
  show ∀ a ∈ denoteList m inputs ++ (denoteRules m rules).flatMap _ ++
    (denoteOutputs m outputs).flatMap _, P a
  rw [List.forall_mem_append, List.forall_mem_append]
  exact ⟨⟨forall_denoteList m h.1.1, forall_denoteRules m h.1.2⟩, forall_denoteOutputs m h.2⟩

end

end Code

/-! ### Runs -/

/-- A machine whose constants are closed and whose calls are safe. -/
structure Machine.Closed (m : Machine) : Prop where
  constants : AllClosed m.constants
  calls : Action.CallsSafely m.call

namespace Code

open Feel.Action (Safe)

theorem constant_safe {m : Machine} (hm : m.Closed) {i : Nat} (hi : i < m.constants.length) :
    (Action.constant m i).Safe := by
  intro site frame _
  unfold Action.constant
  rw [List.drop_eq_getElem_cons hi]
  exact .ok (hm.constants _ (List.getElem_mem hi))

/-- **Closed code is safe** on a machine whose constants are closed and whose calls are safe. -/
theorem Closed.denote {m : Machine} (hm : m.Closed) {c : Code}
    (h : c.Closed m.constants.length) : (c.denote m).Safe := by
  revert h
  refine partsInduction (P := fun c => c.Closed m.constants.length → (c.denote m).Safe)
    (fun c ih hc => ?_) c
  have h : ∀ d ∈ c.children, (d.denote m).Safe := fun d hd => ih d hd (hc.part hd)
  have hown := hc.here
  clear ih
  cases c with
  | const v => exact fun _ _ _ => .ok (.of_plain hown.1 hown.2)
  | constRef i => exact constant_safe hm hown
  | input => exact fun _ _ hframe => .ok hframe.input
  | testInput => exact fun _ _ hframe => .ok hframe.tested
  | «local» name => exact fun _ _ hframe => .ok (hframe.lookup name)
  | inputField name => exact fun _ _ hframe => .ok (hframe.input.get? name)
  | member s name => exact .map (h s (.head _)) fun _ hv => hv.member name
  | arith op mode l r nullCheck =>
    exact .arith op mode nullCheck (h l (.head _)) (h r (.tail _ (.head _)))
  | concat l r =>
    exact .both (h l (.head _)) (h r (.tail _ (.head _))) fun _ _ => .concat _ _
  | temporal op l r =>
    exact .both (h l (.head _)) (h r (.tail _ (.head _))) fun _ _ => .temporal ..
  | compare op mode l r =>
    exact .both (h l (.head _)) (h r (.tail _ (.head _))) fun _ _ => .compareAs ..
  | equal mode negated l r =>
    exact .both (h l (.head _)) (h r (.tail _ (.head _))) fun _ _ => .equality ..
  | logic op shortCircuit l r =>
    exact .logic op shortCircuit (h l (.head _)) (h r (.tail _ (.head _)))
  | not c => exact .map (h c (.head _)) fun _ _ => .steady (.not _)
  | negate c => exact .map (h c (.head _)) fun _ hv => hv.negate
  | dynamic op l r =>
    exact .both (h l (.head _)) (h r (.tail _ (.head _)))
      (Safe.steady_dynamicValue _ op)
  | ite c y n =>
    exact .ite (h c (by simp [children])) (h y (by simp [children])) (h n (by simp [children]))
  | list items => exact .list (forall_denoteList m h)
  | context es => exact .context (forall_denoteEntries m h)
  | range s e si ei =>
    have hs := forall_denoteOption m fun d hd => h d (List.mem_append_left _ hd)
    have he := forall_denoteOption m fun d hd => h d (List.mem_append_right _ hd)
    exact .range hs he si ei
  | between v l u =>
    exact .between (h v (by simp [children])) (h l (by simp [children]))
      (h u (by simp [children]))
  | instanceOf v target => exact .map (h v (.head _)) fun _ _ => .steady (.boolean _)
  | filter s f kind =>
    exact Filter.run_safe (h s (.head _)) (h f (.tail _ (.head _))) kind
  | forIn bs body =>
    have hbs := forall_denoteBindings m fun d hd => h d (List.mem_append_left _ hd)
    exact Iteration.collect_safe hbs (h body (by simp [children]))
  | quantified every bs c =>
    have hbs := forall_denoteBindings m fun d hd => h d (List.mem_append_left _ hd)
    exact Iteration.quantify_safe every hbs (h c (by simp [children]))
  | function params body type =>
    have hbody := hc.part (d := body) List.mem_cons_self
    exact fun _ _ hframe => .ok (.closure hown hbody hframe.locals hm.constants)
  | call target args names =>
    cases target with
    | builtin name => exact .callBuiltin hm.calls hown (forall_denoteList m h) names
    | value callee =>
      obtain ⟨hcallee, hargs⟩ := List.forall_mem_cons.mp h
      exact .callValue hm.calls hcallee (forall_denoteList m hargs) names
  | convert v target => exact .map (h v (.head _)) fun _ hv => hv.convert hown
  | unaryMatch t =>
    exact fun _ _ hframe => (h t (.head _) _ _ hframe).bind fun _ hv =>
      .ok (Safe.matchTest_closed hv _)
  | listContains l v =>
    exact .both (h l (.head _)) (h v (.tail _ (.head _))) Safe.steady_listContains
  | rangeContains r v =>
    exact .both (h r (.head _)) (h v (.tail _ (.head _))) Safe.steady_rangeContains
  | withTestInput s b =>
    exact .withTestInput (h s (.head _)) (h b (.tail _ (.head _)))
  | decision t => exact Decision.run_safe (.of_cells (forall_denoteMatrix m h))

end Code

namespace Machine

theorem closureFrame_closed {input : Value} (hinput : input.Closed)
    {captured : List (String × Value)} (hcaptured : ∀ e ∈ captured, e.2.Closed)
    (params : List String) {args : List Value} (hargs : AllClosed args) :
    (closureFrame input captured params args).Closed := by
  refine ⟨hinput, nofun, List.forall_mem_append.mpr ⟨fun e he => ?_, hcaptured⟩⟩
  have hvalue := (List.of_mem_zip (List.mem_reverse.mp he)).2
  rcases List.mem_append.mp hvalue with h | h
  · exact hargs _ h
  · rw [List.eq_of_mem_replicate h]
    exact .null

/-- **Calls are safe at every depth**: a closure runs code that is closed over the constants that
it carries, and the calls in its body are less deep. -/
theorem invoke_safe (natives : Natives) (precision depth : Nat) :
    Action.CallsSafely (invoke natives precision depth) := by
  induction depth with
  | zero => exact fun _ _ _ _ _ _ _ => .error rfl
  | succ depth ih =>
    intro site f args input hf hargs hinput
    cases hf with
    | steady h => cases h
    | plain _ h => cases h
    | builtin hname =>
      exact Action.callBuiltin_ends hname hargs precision fun g vs hg hvs =>
        ih _ g vs input hg hvs hinput
    | closure _ hbody hcaptured hconstants =>
      exact hbody.denote (m := ⟨_, precision, invoke natives precision depth⟩) ⟨hconstants, ih⟩
        _ _ (closureFrame_closed hinput hcaptured _ hargs)

theorem ofPool_closed (natives : Natives) {constants : List Value} (h : AllClosed constants)
    (precision : Nat) : (ofPool natives constants precision).Closed :=
  ⟨h, invoke_safe natives precision callLimit⟩

end Machine

/-- **Runs of closed code** over closed constants, in a frame of closed values. -/
theorem Code.Closed.run {c : Code} {constants : List Value} (h : c.Closed constants.length)
    (hconstants : AllClosed constants) (natives : Natives) (precision : Nat) {frame : Frame}
    (hframe : frame.Closed) : Ends Datum.Closed (c.run natives constants precision frame) :=
  h.denote (Machine.ofPool_closed natives hconstants precision) [] frame hframe

end Feel
