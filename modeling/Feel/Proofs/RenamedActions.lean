import Feel.Eval.Denote
import Feel.Proofs.CodeTypes
import Feel.Proofs.RenamedBuiltins

/-!
# Actions at other places

An action that runs at another place, with everything it sees renamed to fit, does the same: it
fails in the same way or gives the renamed value. Each combinator on actions keeps this.

* `Renaming.Carries`: a renaming that moves one place, and everything below it, to another.
* `Frame.rename`: a frame of renamed values.
* `Action.Follows`: an action that does at the new place what another does at the old one.
* `Action.Follows.both`, `Iteration.collect_follows`, `Filter.run_follows` and the others: one law
  for each combinator.
-/

namespace Feel

variable {R : Renaming}

/-- The places below one are moved to those below another. -/
def Renaming.Carries (R : Renaming) (site site' : Site) : Prop :=
  ∀ x, R.place (x ++ site) = x ++ site'

namespace Renaming.Carries

variable {site site' : Site}

theorem cons (h : R.Carries site site') (i : Nat) : R.Carries (i :: site) (i :: site') := fun x => by
  have hx := h (x ++ [i])
  rw [List.append_assoc, List.append_assoc] at hx
  exact hx

theorem here (h : R.Carries site site') : R.place site = site' := h []

end Renaming.Carries

/-! ### Outcomes -/

/-- Two steps, the second of which goes on from a changed outcome of the first. -/
theorem bind_changed {ε α α' β β' : Type} {f : α → α'} {k : β → β'} {x : Except ε α}
    {x' : Except ε α'} {g : α → Except ε β} {g' : α' → Except ε β'} (hx : x' = x.map f)
    (hg : ∀ a, g' (f a) = (g a).map k) : x' >>= g' = (x >>= g).map k := by
  subst hx
  cases x with
  | error e => rfl
  | ok a => exact hg a

/-- Two steps, the second of which goes on from the same outcome of the first. -/
theorem bind_unchanged {ε α β β' : Type} {k : β → β'} {x : Except ε α} {g : α → Except ε β}
    {g' : α → Except ε β'} (hg : ∀ a, g' a = (g a).map k) : x >>= g' = (x >>= g).map k := by
  cases x with
  | error e => rfl
  | ok a => exact hg a

/-! ### Frames -/

namespace Frame

/-- A frame of renamed values. -/
def rename (R : Renaming) (frame : Frame) : Frame :=
  ⟨frame.input.rename R, frame.testInput.map (Datum.rename R), Entries.rename R frame.locals⟩

variable (R) (frame : Frame)

theorem lookup_rename (name : String) :
    (frame.rename R).lookup name = (frame.lookup name).rename R := by
  rw [lookup, rename, Entries.lookup_rename, Datum.getD_rename, lookup]

theorem tested_rename : (frame.rename R).tested = frame.tested.rename R :=
  Datum.getD_rename R frame.testInput

theorem bind_rename (name : String) (v : Value) :
    (frame.rename R).bind name (v.rename R) = (frame.bind name v).rename R := rfl

theorem bindAll_rename (entries : List (String × Value)) :
    (frame.rename R).bindAll (Entries.rename R entries) = (frame.bindAll entries).rename R := by
  simp only [bindAll, rename, Entries.rename, List.map_append, List.map_reverse]

theorem withTest_rename (v : Value) :
    (frame.rename R).withTest (v.rename R) = (frame.withTest v).rename R := rfl

theorem itemFrame_rename (item : Value) :
    Filter.itemFrame (frame.rename R) (item.rename R) =
      (Filter.itemFrame frame item).rename R := by
  cases item with
  | context fields =>
    rw [Datum.rename_context]
    show ((frame.rename R).bindAll _).bind "item" _ = _
    rw [bindAll_rename, ← Datum.rename_context, bind_rename]
    rfl
  | _ => rfl

end Frame

/-! ### Actions -/

namespace Action

/-- An action that does at a new place, in a renamed frame, what another does at the old one. -/
def Follows (R : Renaming) (a b : Action) : Prop :=
  ∀ ⦃site site' : Site⦄, R.Carries site site' → ∀ frame : Frame,
    b site' (frame.rename R) = (a site frame).map (Datum.rename R)

namespace Follows

variable {a b c a' b' c' : Action}

theorem all {as bs : List Action} (h : List.Forall₂ (Follows R) as bs) {site site' : Site}
    (hsite : R.Carries site site') (frame : Frame) (i : Nat) :
    Action.all site' (frame.rename R) i bs =
      (Action.all site frame i as).map (List.map (Datum.rename R)) := by
  induction h generalizing i with
  | nil => rfl
  | cons hab _ ih =>
    exact bind_changed (hab (hsite.cons i) frame) fun v => bind_changed (ih (i + 1)) fun vs => rfl

theorem both {f : Value → Value → Value} (ha : Follows R a a') (hb : Follows R b b')
    (hf : ∀ v w, f (v.rename R) (w.rename R) = (f v w).rename R) :
    Follows R (both f a b) (both f a' b') := fun _ _ hsite frame =>
  bind_changed (ha (hsite.cons 0) frame) fun v => bind_changed (hb (hsite.cons 1) frame) fun w =>
    congrArg Except.ok (hf v w)

theorem map {f : Value → Value} (ha : Follows R a a')
    (hf : ∀ v, f (v.rename R) = (f v).rename R) : Follows R (map f a) (map f a') :=
  fun _ _ hsite frame => bind_changed (ha (hsite.cons 0) frame) fun v => congrArg Except.ok (hf v)

theorem holds (ha : Follows R a a') {site site' : Site} (hsite : R.Carries site site')
    (frame : Frame) (v : Value) :
    a'.holds site' (frame.rename R) (v.rename R) = a.holds site frame v := by
  unfold Action.holds
  rw [Frame.withTest_rename, ha hsite]
  cases a site (frame.withTest v) with
  | error e => rfl
  | ok w => exact congrArg Except.ok (Datum.isBool_rename R w true)

theorem arith {m m' : Machine} (hm : m'.precision = m.precision) (op : Operator)
    (mode : NumericMode) (nullCheck : Bool) (ha : Follows R a a') (hb : Follows R b b') :
    Follows R (arith m op mode nullCheck a b) (arith m' op mode nullCheck a' b') := by
  intro site site' hsite frame
  refine bind_changed (ha (hsite.cons 0) frame) fun l => ?_
  rw [Datum.isNull_rename]
  split
  · rfl
  · refine bind_changed (hb (hsite.cons 1) frame) fun r => congrArg Except.ok ?_
    rw [hm]
    exact Datum.arith_rename R l r op mode m.precision

theorem dynamicValue_rename (precision : Nat) (op : Operator) (l r : Value) :
    dynamicValue precision op (l.rename R) (r.rename R) =
      (dynamicValue precision op l r).rename R := by
  have hdynamic := Datum.dynamic_rename R l r op
  cases op with
  | div =>
    cases l with
    | number x =>
      cases r with
      | number y => exact Datum.arith_rename R (.number x) (.number y) .div .decimal precision
      | _ => exact hdynamic
    | _ => exact hdynamic
  | _ => exact hdynamic

theorem logic (op : Operator) (shortCircuit : Bool) (ha : Follows R a a') (hb : Follows R b b') :
    Follows R (logic op shortCircuit a b) (logic op shortCircuit a' b') := by
  intro site site' hsite frame
  refine bind_changed (ha (hsite.cons 0) frame) fun l => ?_
  rw [Datum.isBool_rename]
  split
  · rfl
  · refine bind_changed (hb (hsite.cons 1) frame) fun r => congrArg Except.ok ?_
    rw [Datum.logic_rename, apply_ite (Datum.rename R)]

theorem ite (ha : Follows R a a') (hb : Follows R b b') (hc : Follows R c c') :
    Follows R (ite a b c) (ite a' b' c') := by
  intro site site' hsite frame
  refine bind_changed (ha (hsite.cons 0) frame) fun v => ?_
  rw [Datum.isBool_rename]
  split
  · exact hb hsite frame
  · exact hc hsite frame

theorem list {as bs : List Action} (h : List.Forall₂ (Follows R) as bs) :
    Follows R (list as) (list bs) := fun _ _ hsite frame =>
  bind_changed (all h hsite frame 0) fun vs => congrArg Except.ok (Datum.rename_list R vs).symm

theorem entries {es fs : List (String × Action)}
    (h : List.Forall₂ (fun e f => f.1 = e.1 ∧ Follows R e.2 f.2) es fs) {site site' : Site}
    (hsite : R.Carries site site') (frame : Frame) (i : Nat) (done : List (String × Value)) :
    Action.entries site' i (frame.rename R) fs (Entries.rename R done) =
      (Action.entries site i frame es done).map (Entries.rename R) := by
  induction h generalizing i frame done with
  | nil => rfl
  | @cons e f es fs hef _ ih =>
    obtain ⟨name, a⟩ := e
    obtain ⟨name', b⟩ := f
    obtain ⟨rfl, hab⟩ := hef
    refine bind_changed (hab (hsite.cons i) frame) fun v => ?_
    rw [Frame.bind_rename, Entries.insert_rename]
    exact ih _ (i + 1) _

theorem context {es fs : List (String × Action)}
    (h : List.Forall₂ (fun e f => f.1 = e.1 ∧ Follows R e.2 f.2) es fs) :
    Follows R (context es) (context fs) := fun _ _ hsite frame =>
  bind_changed (entries h hsite frame 0 []) fun out =>
    congrArg Except.ok (Datum.rename_context R out).symm

theorem optional {o o' : Option Action} (h : Option.Rel (Follows R) o o') {site site' : Site}
    (hsite : R.Carries site site') (frame : Frame) :
    Action.optional o' site' (frame.rename R) =
      (Action.optional o site frame).map (Option.map (Datum.rename R)) := by
  cases h with
  | none => rfl
  | @some a b hab =>
    unfold Action.optional
    dsimp only
    rw [hab hsite]
    cases a site frame <;> rfl

theorem range {s e s' e' : Option Action} (hs : Option.Rel (Follows R) s s')
    (he : Option.Rel (Follows R) e e') (si ei : Bool) :
    Follows R (range s e si ei) (range s' e' si ei) := fun _ _ hsite frame =>
  bind_changed (optional hs (hsite.cons 0) frame) fun v =>
    bind_changed (optional he (hsite.cons 1) frame) fun w =>
      congrArg Except.ok (Datum.rename_range R v w si ei).symm

theorem between (ha : Follows R a a') (hb : Follows R b b') (hc : Follows R c c') :
    Follows R (between a b c) (between a' b' c') := fun _ _ hsite frame =>
  bind_changed (ha (hsite.cons 0) frame) fun v => bind_changed (hb (hsite.cons 1) frame) fun l =>
    bind_changed (hc (hsite.cons 2) frame) fun h => congrArg Except.ok <| by
      rw [Datum.compare_rename, Datum.compare_rename, Datum.and_rename]

theorem matchTest_rename (v w : Value) :
    matchTest (v.rename R) (w.rename R) = (matchTest v w).rename R := by
  have hequality := Datum.equality_rename R w v false
  cases v with
  | list items =>
    rw [Datum.rename_list]
    exact congrArg Datum.boolean (Datum.any_equal_rename R w items)
  | range s e si ei =>
    rw [Datum.rename_range]
    show Datum.ofBool? _ = (Datum.ofBool? _).rename R
    rw [Datum.rangeContains?_rename, (Datum.Plain.ofBool? _).rename]
  | boolean b =>
    cases w with
    | boolean => exact hequality
    | _ => rfl
  | _ => exact hequality

theorem listContains_rename (l v : Value) :
    listContains (l.rename R) (v.rename R) = (listContains l v).rename R := by
  cases l with
  | list items =>
    rw [Datum.rename_list]
    exact congrArg Datum.boolean (Datum.any_equal_rename R v items)
  | _ => rfl

theorem rangeContains_rename (r v : Value) :
    rangeContains (r.rename R) (v.rename R) = (rangeContains r v).rename R := by
  cases r with
  | range s e si ei =>
    rw [Datum.rename_range]
    show Datum.ofBool? _ = (Datum.ofBool? _).rename R
    rw [Datum.rangeContains?_rename, (Datum.Plain.ofBool? _).rename]
  | _ => rfl

theorem withTestInput (ha : Follows R a a') (hb : Follows R b b') :
    Follows R (withTestInput a b) (withTestInput a' b') := fun _ _ hsite frame =>
  bind_changed (ha (hsite.cons 0) frame) fun v => hb (hsite.cons 1) (frame.withTest v)

end Follows

/-! ### Calls -/

/-- Calls of renamed functions at new places do what calls do at the old ones. -/
def CallsFollow (R : Renaming) (call call' : Caller) : Prop :=
  ∀ ⦃site site' : Site⦄, R.Carries site site' →
    ∀ (f : FunctionValue) (args : List Value) (input : Value),
      call' site' (f.rename R) (args.map (Datum.rename R)) (input.rename R) =
        (call site f args input).map (Datum.rename R)

theorem callBuiltin_rename (name : String) (args : List Value) (precision : Nat)
    {invoke invoke' : FunctionValue → List Value → Except EvalError Value}
    (h : ∀ g vs, invoke' (g.rename R) (vs.map (Datum.rename R)) =
      (invoke g vs).map (Datum.rename R)) :
    callBuiltin name (args.map (Datum.rename R)) precision invoke' =
      (callBuiltin name args precision invoke).map (Datum.rename R) := by
  unfold callBuiltin
  cases Builtin.ofName? name with
  | none => rfl
  | some f =>
    dsimp only
    rw [Builtin.inBounds_rename]
    split
    · exact Builtin.apply_rename R args f precision h
    · rfl

theorem positional_rename (f : FunctionValue) (names : Option (List String)) (args : List Value) :
    positional (f.rename R) names (args.map (Datum.rename R)) =
      (positional f names args).map (Datum.rename R) := by
  have hzip : ∀ names : List String, names.zip (args.map (Datum.rename R)) =
      Entries.rename R (names.zip args) := fun names => List.zip_map_right
  cases names with
  | none => rfl
  | some names =>
    show arrange _ _ _ = (arrange _ _ _).map _
    rw [Function.paramNames_rename, arrange, arrange, hzip, List.map_map]
    refine List.map_congr_left fun p _ => ?_
    rw [Entries.lookup_rename, Datum.getD_rename]
    rfl

namespace Follows

variable {m m' : Machine}

theorem callBuiltin (hm : CallsFollow R m.call m'.call) (hprecision : m'.precision = m.precision)
    (name : String) {args args' : List Action} (hargs : List.Forall₂ (Follows R) args args')
    (names : Option (List String)) :
    Follows R (Action.call m (.builtin name) args names)
      (Action.call m' (.builtin name) args' names) := by
  intro site site' hsite frame
  refine bind_changed (all hargs (hsite.cons 0) frame 0) fun vs => ?_
  rw [hprecision]
  exact callBuiltin_rename name vs m.precision fun g ws => hm (hsite.cons 1) g ws frame.input

theorem callValue (hm : CallsFollow R m.call m'.call) {callee callee' : Action}
    (hcallee : Follows R callee callee') {args args' : List Action}
    (hargs : List.Forall₂ (Follows R) args args') (names : Option (List String)) :
    Follows R (Action.call m (.value callee) args names)
      (Action.call m' (.value callee') args' names) := by
  intro site site' hsite frame
  refine bind_changed (all hargs (hsite.cons 0) frame 0) fun vs =>
    bind_changed (hcallee (hsite.cons 2) frame) fun v => ?_
  cases v with
  | function f =>
    rw [Datum.rename_function]
    dsimp only
    rw [positional_rename]
    exact hm (hsite.cons 3) f _ frame.input
  | _ => rfl

end Follows

end Action

/-! ### Iterations -/

namespace Domain

theorem expandWhole_rename (start finish : Int) (si ei : Bool) :
    (expandWhole start finish si ei).map (List.map (Datum.rename R)) =
      expandWhole start finish si ei := by
  have hwholes : ∀ (first step : Int) (count : Nat),
      (wholes first step count).map (Datum.rename R) = wholes first step count := fun _ _ _ =>
    List.map_map
  unfold expandWhole
  extract_lets step first last count
  split
  · rfl
  split
  · rfl
  · exact congrArg Except.ok (hwholes _ _ _)

theorem expandDates_rename (start finish : Date) (si ei : Bool) :
    (expandDates start finish si ei).map (List.map (Datum.rename R)) =
      expandDates start finish si ei := by
  unfold expandDates
  extract_lets days step dates
  split
  · rfl
  · exact congrArg Except.ok List.map_map

theorem expand_rename (s e : Option Value) (si ei : Bool) :
    expand (s.map (Datum.rename R)) (e.map (Datum.rename R)) si ei =
      (expand s e si ei).map (List.map (Datum.rename R)) := by
  have hnone : ∀ o : Option Value, expand none o si ei = .ok [] := fun o => by cases o <;> rfl
  cases s with
  | none => rw [Option.map_none, hnone, hnone]; rfl
  | some v =>
    cases e with
    | none => cases v <;> rfl
    | some w =>
      cases v with
      | number m =>
        cases w with
        | number n =>
          simp only [Option.map_some, Datum.rename_number, expand]
          cases m.toInt64? with
          | none => rfl
          | some s =>
            cases n.toInt64? with
            | none => rfl
            | some e => exact (expandWhole_rename _ _ si ei).symm
        | _ => rfl
      | date d =>
        cases w with
        | date d' => exact (expandDates_rename d d' si ei).symm
        | _ => rfl
      | _ => cases w <;> rfl

theorem elements_rename (v : Value) :
    elements (v.rename R) = (elements v).map (List.map (Datum.rename R)) := by
  cases v with
  | list items =>
    rw [Datum.rename_list]
    rfl
  | range s e si ei =>
    rw [Datum.rename_range]
    exact expand_rename s e si ei
  | _ => rfl

theorem stepsFrom_rename {step step' : Nat → Value → Except EvalError Value}
    (h : ∀ n v, step' n (v.rename R) = (step n v).map (Datum.rename R)) (last : Value)
    (direction : Ordering) (n : Nat) (current : Value) (before : List Value) :
    stepsFrom step' (last.rename R) direction n (current.rename R)
        (before.map (Datum.rename R)) =
      (stepsFrom step last direction n current before).map (List.map (Datum.rename R)) := by
  induction n generalizing current before with
  | zero => rfl
  | succ n ih =>
    have hreverse : (current.rename R :: before.map (Datum.rename R)).reverse =
        (current :: before).reverse.map (Datum.rename R) := by
      rw [List.map_reverse, List.map_cons]
    rw [stepsFrom, stepsFrom, Datum.order?_rename]
    split
    · refine bind_changed (h n current) fun next => ?_
      rw [Datum.order?_rename, Datum.isNull_rename]
      split
      · exact congrArg Except.ok hreverse
      · exact ih next (current :: before)
    · exact congrArg Except.ok hreverse

/-- Domains of one form whose parts follow each other. The steps of the second may go by another
cursor. -/
inductive Follows (R : Renaming) : Domain Action → Domain Action → Prop
  | values {a b : Action} : a.Follows R b → Follows R (.values a) (.values b)
  | steps {f l s p f' l' s' p' : Action} {cursor cursor' : String} : f.Follows R f' →
      l.Follows R l' →
      (∀ ⦃site site' : Site⦄, R.Carries site site' → ∀ (frame : Frame) (v : Value),
        s' site' ((frame.rename R).bind cursor' (v.rename R)) =
          (s site (frame.bind cursor v)).map (Datum.rename R)) →
      (∀ ⦃site site' : Site⦄, R.Carries site site' → ∀ (frame : Frame) (v : Value),
        p' site' ((frame.rename R).bind cursor' (v.rename R)) =
          (p site (frame.bind cursor v)).map (Datum.rename R)) →
      Follows R (.steps f l cursor s p) (.steps f' l' cursor' s' p')

theorem run_rename {d d' : Domain Action} (h : d.Follows R d') {site site' : Site}
    (hsite : R.Carries site site') (frame : Frame) :
    d'.run site' (frame.rename R) = (d.run site frame).map (List.map (Datum.rename R)) := by
  cases h with
  | values hab => exact bind_changed (hab (hsite.cons 0) frame) elements_rename
  | steps hf hl hs hp =>
    refine bind_changed (hf (hsite.cons 0) frame) fun first =>
      bind_changed (hl (hsite.cons 1) frame) fun last => ?_
    rw [Datum.order?_rename]
    split
    · rfl
    · rfl
    · refine stepsFrom_rename (fun n v => ?_) last _ limit first []
      split
      · exact hp ((hsite.cons 2).cons n) frame v
      · exact hs ((hsite.cons 2).cons n) frame v

end Domain

namespace Iteration

variable {σ τ : Type} {k : σ → τ}
  {visit : Site → Frame → σ → Except EvalError (ForInStep σ)}
  {visit' : Site → Frame → τ → Except EvalError (ForInStep τ)}

/-- What an iteration goes on or ends with, in changed form. -/
def mapStep (k : σ → τ) : ForInStep σ → ForInStep τ
  | .yield s => .yield (k s)
  | .done s => .done (k s)

theorem final_mapStep (s : ForInStep σ) : final (mapStep k s) = k (final s) := by
  cases s <;> rfl

/-- A visit at a new place, from the changed state, that does what another does at the old one. -/
def Follows (R : Renaming) (k : σ → τ)
    (visit : Site → Frame → σ → Except EvalError (ForInStep σ))
    (visit' : Site → Frame → τ → Except EvalError (ForInStep τ)) : Prop :=
  ∀ ⦃site site' : Site⦄, R.Carries site site' → ∀ (frame : Frame) (s : σ),
    visit' site' (frame.rename R) (k s) = (visit site frame s).map (mapStep k)

theorem forEach_follows (h : Follows R k visit visit') (name : String) {site site' : Site}
    (hsite : R.Carries site site') (frame : Frame) (i : Nat) (vs : List Value) (s : σ) :
    forEach name visit' site' (frame.rename R) i (vs.map (Datum.rename R)) (k s) =
      (forEach name visit site frame i vs s).map (mapStep k) := by
  induction vs generalizing i s with
  | nil => rfl
  | cons v vs ih =>
    rw [List.map_cons, forEach, forEach, Frame.bind_rename, h (hsite.cons i)]
    cases visit (i :: site) (frame.bind name v) s with
    | error e => rfl
    | ok out =>
      cases out with
      | done s' => rfl
      | yield s' => exact ih (i + 1) s'

/-- Bindings of the same names whose domains follow each other. -/
def BindingsFollow (R : Renaming) : List (Binding Action) → List (Binding Action) → Prop :=
  List.Forall₂ fun b b' => b'.name = b.name ∧ b.domain.Follows R b'.domain

theorem run_follows (h : Follows R k visit visit') {bs bs' : List (Binding Action)}
    (hbs : BindingsFollow R bs bs') : Follows R k (run visit bs) (run visit' bs') := by
  induction hbs with
  | nil => exact h
  | @cons b b' bs bs' hb _ ih =>
    intro site site' hsite frame s
    refine bind_changed (Domain.run_rename hb.2 (hsite.cons 0) frame) fun vs => ?_
    rw [hb.1]
    exact forEach_follows ih b.name hsite frame 1 vs s

theorem collect_follows {bs bs' : List (Binding Action)}
    (hbs : BindingsFollow R bs bs')
    {body body' : Action} (hbody : body.Follows R body') :
    (collect bs body).Follows R (collect bs' body') := by
  intro site site' hsite frame
  have hvisit : Follows R (List.map (Datum.rename R))
      (fun site frame vs => do
        let v ← body (0 :: site) frame
        return ForInStep.yield (v :: vs))
      (fun site frame vs => do
        let v ← body' (0 :: site) frame
        return ForInStep.yield (v :: vs)) :=
    fun _ _ hsite frame vs => bind_changed (hbody (hsite.cons 0) frame) fun v => rfl
  have hrun := run_follows hvisit hbs
  refine bind_changed (hrun (hsite.cons 0) frame []) fun out => congrArg Except.ok ?_
  rw [final_mapStep, Datum.rename_list, List.map_reverse]

theorem quantify_follows (every : Bool) {bs bs' : List (Binding Action)}
    (hbs : BindingsFollow R bs bs')
    {condition condition' : Action} (hcondition : condition.Follows R condition') :
    (quantify every bs condition).Follows R (quantify every bs' condition') := by
  intro site site' hsite frame
  have hvisit : Follows R id
      (fun site frame outcome => do
        let v ← condition (0 :: site) frame
        return if v.isBool true = every then ForInStep.yield outcome else ForInStep.done (!every))
      (fun site frame outcome => do
        let v ← condition' (0 :: site) frame
        return if v.isBool true = every then ForInStep.yield outcome else ForInStep.done (!every)) := by
    intro _ _ hsite frame outcome
    refine bind_changed (hcondition (hsite.cons 0) frame) fun v => ?_
    rw [Datum.isBool_rename]
    split <;> rfl
  have hrun := run_follows hvisit hbs
  refine bind_changed (hrun (hsite.cons 0) frame every) fun out => congrArg Except.ok ?_
  rw [final_mapStep]
  rfl

end Iteration

/-! ### Filters -/

namespace Filter

theorem element_rename (items : List Value) (position : Value) :
    element (items.map (Datum.rename R)) (position.rename R) =
      (element items position).rename R := by
  unfold element
  rw [Datum.asNumber?_rename]
  split
  · rfl
  · simp only [List.length_map, Datum.getD_map_rename, apply_ite (Datum.rename R),
      Datum.rename_null]

theorem select_rename {test test' : Action} (h : test.Follows R test') {site site' : Site}
    (hsite : R.Carries site site') (frame : Frame) (i : Nat) (vs kept : List Value) :
    select test' site' (frame.rename R) i (vs.map (Datum.rename R))
        (kept.map (Datum.rename R)) =
      (select test site frame i vs kept).map (Datum.rename R) := by
  induction vs generalizing i kept with
  | nil =>
    refine congrArg Except.ok ?_
    rw [Datum.rename_list, List.map_reverse]
  | cons v vs ih =>
    refine bind_changed ((congrArg _ (Frame.itemFrame_rename R frame v)).trans
      (h (hsite.cons i) (itemFrame frame v))) fun answer => ?_
    rw [Datum.isBool_rename]
    split
    · exact ih (i + 1) (v :: kept)
    · exact ih (i + 1) kept

theorem run_follows {source source' test test' : Action} (hs : source.Follows R source')
    (ht : test.Follows R test') (kind : FilterKind) :
    (run source test kind).Follows R (run source' test' kind) := by
  intro site site' hsite frame
  refine bind_changed (hs (hsite.cons 0) frame) fun v => ?_
  extract_lets items' items
  have hitems : items' = items.map (Datum.rename R) := by
    cases v with
    | list vs => exact congrArg Filter.items (Datum.rename_list R vs)
    | _ => rfl
  rw [Datum.isNull_rename, hitems]
  split
  · rfl
  · have hselect := select_rename ht (hsite.cons 2) frame 0 items []
    cases kind with
    | index =>
      refine bind_changed (ht (hsite.cons 1) frame) fun position => congrArg Except.ok ?_
      exact element_rename items position
    | predicate => exact hselect
    | dynamic =>
      dsimp only
      rw [Datum.headD_rename, Frame.itemFrame_rename]
      refine bind_changed (ht (hsite.cons 1) _) fun position => ?_
      cases position with
      | number n => exact congrArg Except.ok (element_rename items (.number n))
      | _ => exact hselect

end Filter

end Feel
