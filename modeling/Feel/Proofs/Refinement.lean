import Mathlib.Data.List.Forall2
import Feel.Eval.Denote

/-!
# Actions ordered by success

One action refines another when it succeeds wherever the other does, with the same value. A
failure may become a success, never the other way round, and never another value. Every
combinator of actions is monotone in this order, so that a change of code that refines each
part refines the whole. The frames in which actions are compared can be all frames, or those of
some kind of values: what binds a value asks then that the value is of that kind.

* `Domain.Rel`, `Binding.Rel`, `Target.Rel`, `DecisionMatrix.Rel`: a relation lifted to the
  structures whose cells are actions or code.
* `Frames`: the frames in which actions are compared.
* `Action.Refines`: the order.
* `Action.Refines.ite`, `Filter.run_refines`, `Decision.run_refines` and the others: one law
  for each combinator.
-/

namespace Feel

/-! ### Relations between structures -/

/-- Domains of one form whose cells are related. -/
inductive Domain.Rel {α β : Type} (R : α → β → Prop) : Domain α → Domain β → Prop
  | values {a : α} {b : β} : R a b → Domain.Rel R (.values a) (.values b)
  | steps {f l s p : α} {f' l' s' p' : β} (cursor : String) :
      R f f' → R l l' → R s s' → R p p' →
      Domain.Rel R (.steps f l cursor s p) (.steps f' l' cursor s' p')

theorem Domain.Rel.imp {α β : Type} {R R' : α → β → Prop} {a : Domain α} {b : Domain β}
    (h : a.Rel R b) (hR : ∀ x y, R x y → R' x y) : a.Rel R' b := by
  cases h with
  | values h => exact .values (hR _ _ h)
  | steps cursor hf hl hs hp =>
    exact .steps cursor (hR _ _ hf) (hR _ _ hl) (hR _ _ hs) (hR _ _ hp)

/-- Bindings of one name whose domains are related. -/
structure Binding.Rel {α β : Type} (R : α → β → Prop) (a : Binding α) (b : Binding β) :
    Prop where
  name : a.name = b.name
  domain : a.domain.Rel R b.domain

/-- Targets of one form whose callees are related. -/
inductive Target.Rel {α β : Type} (R : α → β → Prop) : Target α → Target β → Prop
  | builtin (name : String) : Target.Rel R (.builtin name) (.builtin name)
  | value {a : α} {b : β} : R a b → Target.Rel R (.value a) (.value b)

/-- Rules whose cells are related one by one. -/
structure MatrixRule.Rel {α β : Type} (R : α → β → Prop) (a : MatrixRule α)
    (b : MatrixRule β) : Prop where
  conditions : List.Forall₂ R a.conditions b.conditions
  outputs : List.Forall₂ R a.outputs b.outputs

/-- Related options are both absent, or both present with related contents. -/
theorem Option.Rel.cases {α β : Type} {R : α → β → Prop} {a : Option α} {b : Option β}
    (h : Option.Rel R a b) :
    (a = none ∧ b = none) ∨ ∃ x y, a = some x ∧ b = some y ∧ R x y := by
  cases h with
  | none => exact .inl ⟨rfl, rfl⟩
  | some h => exact .inr ⟨_, _, rfl, rfl, h⟩

/-- Output columns of one name whose cells are related. -/
structure MatrixOutput.Rel {α β : Type} (R : α → β → Prop) (a : MatrixOutput α)
    (b : MatrixOutput β) : Prop where
  name : a.name = b.name
  check : Option.Rel R a.check b.check
  priorities : List.Forall₂ R a.priorities b.priorities
  fallback : Option.Rel R a.fallback b.fallback

/-- Tables that differ in their cells only, and there are related. -/
structure DecisionMatrix.Rel {α β : Type} (R : α → β → Prop) (a : DecisionMatrix α)
    (b : DecisionMatrix β) : Prop where
  name : a.name = b.name
  inputs : List.Forall₂ R a.inputs b.inputs
  rules : List.Forall₂ (MatrixRule.Rel R) a.rules b.rules
  outputs : List.Forall₂ (MatrixOutput.Rel R) a.outputs b.outputs
  hitPolicy : a.hitPolicy = b.hitPolicy
  aggregation : a.aggregation = b.aggregation
  singleOutput : a.singleOutput = b.singleOutput

/-! ### Steps that succeed -/

/-- A sequence succeeds exactly when its first step and what follows it do. -/
theorem bind_eq_ok {ε α β : Type} {x : Except ε α} {f : α → Except ε β} {r : β} :
    (x >>= f) = .ok r ↔ ∃ a, x = .ok a ∧ f a = .ok r := by
  cases x with
  | error e => simp [bind, Except.bind]
  | ok a => simp [bind, Except.bind]

/-- A step that gives a value whatever happened gives that value. -/
theorem pure_eq_ok {ε α : Type} {a r : α} : (pure a : Except ε α) = .ok r ↔ a = r := by
  simp [pure, Except.pure]

/-- A step whose value is mapped succeeds exactly when the step does. -/
theorem map_eq_ok {ε α β : Type} {x : Except ε α} {f : α → β} {r : β} :
    x.map f = .ok r ↔ ∃ a, x = .ok a ∧ f a = r := by
  cases x with
  | error e => simp [Except.map]
  | ok a => simp [Except.map]

/-- Machines that differ in their constants only. -/
structure Machine.Similar (m n : Machine) : Prop where
  precision : m.precision = n.precision
  call : m.call = n.call

theorem Machine.Similar.refl (m : Machine) : m.Similar m := ⟨rfl, rfl⟩

/-! ### Frames -/

/-- The frames that actions are compared in. A run that binds values of a kind in one of them, or
tests such a value in it, stays in these frames. -/
class Frames where
  Has : Frame → Prop
  Holds : Value → Prop
  bind : ∀ {frame : Frame} {v : Value} (name : String), Has frame → Holds v →
    Has (frame.bind name v)
  withTest : ∀ {frame : Frame} {v : Value}, Has frame → Holds v → Has (frame.withTest v)
  itemFrame : ∀ {frame : Frame} {v : Value}, Has frame → Holds v → Has (Filter.itemFrame frame v)
  elements : ∀ {v : Value} {vs : List Value}, Holds v → Domain.elements v = .ok vs →
    ∀ w ∈ vs, Holds w
  null : Holds .null

/-- All frames and all values. -/
instance Frames.all : Frames where
  Has _ := True
  Holds _ := True
  bind _ _ _ := trivial
  withTest _ _ := trivial
  itemFrame _ _ := trivial
  elements _ _ _ _ := trivial
  null := trivial

open Frames (Has Holds)

section Compared

variable [Frames]

namespace Action

/-- `b` succeeds wherever `a` does, with the same value. -/
def Refines (a b : Action) : Prop :=
  ∀ site frame v, Has frame → a site frame = .ok v → b site frame = .ok v

/-- An action gives only values that may be bound. -/
def Keeps (a : Action) : Prop :=
  ∀ site frame v, Has frame → a site frame = .ok v → Holds v

namespace Refines

theorem refl (a : Action) : a.Refines a := fun _ _ _ _ h => h

theorem trans {a b c : Action} (h : a.Refines b) (k : b.Refines c) : a.Refines c :=
  fun site frame v hframe ha => k site frame v hframe (h site frame v hframe ha)

/-! ### Combinators -/

theorem map {a b : Action} (f : Value → Value) (h : a.Refines b) :
    (a.map f).Refines (b.map f) := by
  intro site frame v hframe hv
  obtain ⟨x, hx, hr⟩ := bind_eq_ok.mp hv
  exact bind_eq_ok.mpr ⟨x, h _ _ _ hframe hx, hr⟩

theorem both {a b a' b' : Action} (f : Value → Value → Value) (h : a.Refines a')
    (k : b.Refines b') : (Action.both f a b).Refines (Action.both f a' b') := by
  intro site frame v hframe hv
  obtain ⟨x, hx, hv⟩ := bind_eq_ok.mp hv
  obtain ⟨y, hy, hr⟩ := bind_eq_ok.mp hv
  exact bind_eq_ok.mpr ⟨x, h _ _ _ hframe hx, bind_eq_ok.mpr ⟨y, k _ _ _ hframe hy, hr⟩⟩

theorem arith {m n : Machine} (hm : m.Similar n) (op : Operator) (mode : NumericMode)
    (nullCheck : Bool) {a b a' b' : Action} (h : a.Refines a') (k : b.Refines b') :
    (Action.arith m op mode nullCheck a b).Refines (Action.arith n op mode nullCheck a' b') := by
  intro site frame v hframe hv
  obtain ⟨x, hx, hv⟩ := bind_eq_ok.mp hv
  refine bind_eq_ok.mpr ⟨x, h _ _ _ hframe hx, ?_⟩
  by_cases hn : (nullCheck && x.isNull) = true
  · rw [if_pos hn] at hv ⊢
    exact hv
  · rw [if_neg hn] at hv ⊢
    obtain ⟨y, hy, hr⟩ := bind_eq_ok.mp hv
    refine bind_eq_ok.mpr ⟨y, k _ _ _ hframe hy, ?_⟩
    rw [← hm.precision]
    exact hr

theorem logic (op : Operator) (shortCircuit : Bool) {a b a' b' : Action} (h : a.Refines a')
    (k : b.Refines b') :
    (Action.logic op shortCircuit a b).Refines (Action.logic op shortCircuit a' b') := by
  intro site frame v hframe hv
  obtain ⟨x, hx, hv⟩ := bind_eq_ok.mp hv
  refine bind_eq_ok.mpr ⟨x, h _ _ _ hframe hx, ?_⟩
  by_cases hd : x.isBool (op == .or) = true
  · rw [if_pos hd] at hv ⊢
    exact hv
  · rw [if_neg hd] at hv ⊢
    obtain ⟨y, hy, hr⟩ := bind_eq_ok.mp hv
    exact bind_eq_ok.mpr ⟨y, k _ _ _ hframe hy, hr⟩

theorem ite {c y n c' y' n' : Action} (hc : c.Refines c') (hy : y.Refines y')
    (hn : n.Refines n') : (Action.ite c y n).Refines (Action.ite c' y' n') := by
  intro site frame v hframe hv
  obtain ⟨x, hx, hv⟩ := bind_eq_ok.mp hv
  refine bind_eq_ok.mpr ⟨x, hc _ _ _ hframe hx, ?_⟩
  by_cases ht : x.isBool true = true
  · rw [if_pos ht] at hv ⊢
    exact hy _ _ _ hframe hv
  · rw [if_neg ht] at hv ⊢
    exact hn _ _ _ hframe hv

/-- Actions that are run in order. -/
theorem all {as bs : List Action} (h : List.Forall₂ Refines as bs) (site : Site)
    {frame : Frame} (hframe : Has frame) (i : Nat) (vs : List Value)
    (hv : Action.all site frame i as = .ok vs) :
    Action.all site frame i bs = .ok vs := by
  induction h generalizing i vs with
  | nil => exact hv
  | cons hab _ ih =>
    obtain ⟨x, hx, hv⟩ := bind_eq_ok.mp hv
    obtain ⟨xs, hxs, hr⟩ := bind_eq_ok.mp hv
    exact bind_eq_ok.mpr ⟨x, hab _ _ _ hframe hx, bind_eq_ok.mpr ⟨xs, ih _ _ hxs, hr⟩⟩

theorem list {as bs : List Action} (h : List.Forall₂ Refines as bs) :
    (Action.list as).Refines (Action.list bs) := by
  intro site frame v hframe hv
  obtain ⟨vs, hvs, hr⟩ := bind_eq_ok.mp hv
  exact bind_eq_ok.mpr ⟨vs, all h _ hframe _ _ hvs, hr⟩

/-- Entries of one name whose actions refine each other. -/
def Entry (a b : String × Action) : Prop := a.1 = b.1 ∧ a.2.Refines b.2

theorem entries {as bs : List (String × Action)} (h : List.Forall₂ Entry as bs)
    (hkeeps : ∀ e ∈ as, e.2.Keeps) (site : Site) (i : Nat) {frame : Frame} (hframe : Has frame)
    (done es : List (String × Value)) (hv : Action.entries site i frame as done = .ok es) :
    Action.entries site i frame bs done = .ok es := by
  induction h generalizing i frame done with
  | nil => exact hv
  | @cons a b _ _ hab _ ih =>
    rw [List.forall_mem_cons] at hkeeps
    obtain ⟨n, a⟩ := a
    obtain ⟨n', b⟩ := b
    obtain ⟨rfl, hab⟩ := hab
    obtain ⟨x, hx, hv⟩ := bind_eq_ok.mp hv
    have hbound := Frames.bind n hframe (hkeeps.1 _ _ _ hframe hx)
    exact bind_eq_ok.mpr ⟨x, hab _ _ _ hframe hx, ih hkeeps.2 _ hbound _ hv⟩

theorem context {as bs : List (String × Action)} (h : List.Forall₂ Entry as bs)
    (hkeeps : ∀ e ∈ as, e.2.Keeps) : (Action.context as).Refines (Action.context bs) := by
  intro site frame v hframe hv
  obtain ⟨es, hes, hr⟩ := bind_eq_ok.mp hv
  exact bind_eq_ok.mpr ⟨es, entries h hkeeps _ _ hframe _ _ hes, hr⟩

theorem optional {a b : Option Action} (h : Option.Rel Refines a b) (site : Site)
    {frame : Frame} (hframe : Has frame) (v : Option Value)
    (hv : Action.optional a site frame = .ok v) : Action.optional b site frame = .ok v := by
  cases h with
  | none => exact hv
  | @some a b hab =>
    cases hx : a site frame with
    | error e => simp [Action.optional, hx, Except.map] at hv
    | ok x =>
      simp only [Action.optional, hx, hab _ _ _ hframe hx] at hv ⊢
      exact hv

theorem range {s e s' e' : Option Action} (hs : Option.Rel Refines s s')
    (he : Option.Rel Refines e e') (si ei : Bool) :
    (Action.range s e si ei).Refines (Action.range s' e' si ei) := by
  intro site frame v hframe hv
  obtain ⟨x, hx, hv⟩ := bind_eq_ok.mp hv
  obtain ⟨y, hy, hr⟩ := bind_eq_ok.mp hv
  exact bind_eq_ok.mpr ⟨x, optional hs _ hframe _ hx,
    bind_eq_ok.mpr ⟨y, optional he _ hframe _ hy, hr⟩⟩

theorem between {a b c a' b' c' : Action} (ha : a.Refines a') (hb : b.Refines b')
    (hc : c.Refines c') : (Action.between a b c).Refines (Action.between a' b' c') := by
  intro site frame v hframe hv
  obtain ⟨x, hx, hv⟩ := bind_eq_ok.mp hv
  obtain ⟨y, hy, hv⟩ := bind_eq_ok.mp hv
  obtain ⟨z, hz, hr⟩ := bind_eq_ok.mp hv
  exact bind_eq_ok.mpr ⟨x, ha _ _ _ hframe hx, bind_eq_ok.mpr ⟨y, hb _ _ _ hframe hy,
    bind_eq_ok.mpr ⟨z, hc _ _ _ hframe hz, hr⟩⟩⟩

theorem call {m n : Machine} (hm : m.Similar n) {t t' : Target Action}
    (ht : t.Rel Refines t') {as bs : List Action} (h : List.Forall₂ Refines as bs)
    (names : Option (List String)) :
    (Action.call m t as names).Refines (Action.call n t' bs names) := by
  intro site frame v hframe hv
  obtain ⟨vs, hvs, hv⟩ := bind_eq_ok.mp hv
  refine bind_eq_ok.mpr ⟨vs, all h _ hframe _ _ hvs, ?_⟩
  cases ht with
  | builtin name =>
    simp only [← hm.precision, ← hm.call]
    exact hv
  | value hab =>
    simp only [← hm.call]
    obtain ⟨f, hf, hr⟩ := bind_eq_ok.mp hv
    exact bind_eq_ok.mpr ⟨f, hab _ _ _ hframe hf, hr⟩

theorem withTestInput {a b a' b' : Action} (h : a.Refines a') (hkeeps : a.Keeps)
    (k : b.Refines b') : (Action.withTestInput a b).Refines (Action.withTestInput a' b') := by
  intro site frame v hframe hv
  obtain ⟨x, hx, hr⟩ := bind_eq_ok.mp hv
  have htested := Frames.withTest hframe (hkeeps _ _ _ hframe hx)
  exact bind_eq_ok.mpr ⟨x, h _ _ _ hframe hx, k _ _ _ htested hr⟩

theorem unaryMatch {m n : Machine} {c d : Code} (h : (c.denote m).Refines (d.denote n)) :
    ((Code.unaryMatch c).denote m).Refines ((Code.unaryMatch d).denote n) := by
  intro site frame v hframe hv
  obtain ⟨x, hx, hr⟩ := bind_eq_ok.mp hv
  exact bind_eq_ok.mpr ⟨x, h _ _ _ hframe hx, hr⟩

end Refines

end Action

open Action (Refines)

/-! ### Iteration and filters -/

namespace Domain

/-- Steps that refine each other make the same values, which may be bound. -/
theorem stepsFrom_refines {step step' : Nat → Value → Except EvalError Value}
    (h : ∀ n v w, Holds v → step n v = .ok w → step' n v = .ok w ∧ Holds w) (last : Value)
    (direction : Ordering) (n : Nat) {current : Value} (hcurrent : Holds current)
    {before vs : List Value} (hbefore : ∀ v ∈ before, Holds v)
    (hv : stepsFrom step last direction n current before = .ok vs) :
    stepsFrom step' last direction n current before = .ok vs ∧ ∀ v ∈ vs, Holds v := by
  induction n generalizing current before with
  | zero => cases hv
  | succ n ih =>
    have hall : ∀ v ∈ current :: before, Holds v := List.forall_mem_cons.mpr ⟨hcurrent, hbefore⟩
    have hreverse : ∀ v ∈ (current :: before).reverse, Holds v :=
      fun v hv => hall v (List.mem_reverse.mp hv)
    rw [stepsFrom] at hv ⊢
    by_cases ho : current.order? last = some direction
    · rw [if_pos ho] at hv ⊢
      obtain ⟨next, hn, hv⟩ := bind_eq_ok.mp hv
      obtain ⟨hn, hnext⟩ := h n current next hcurrent hn
      rw [hn]
      dsimp only [bind, Except.bind]
      split
      · next hs =>
        rw [if_pos hs] at hv
        exact ⟨hv, pure_eq_ok.mp hv ▸ hreverse⟩
      · next hs =>
        rw [if_neg hs] at hv
        exact ih hnext hall hv
    · rw [if_neg ho] at hv ⊢
      exact ⟨hv, Except.ok.inj hv ▸ hreverse⟩

theorem run_refines {a b : Domain Action} (h : a.Rel Refines b) (hkeeps : ∀ c ∈ a.cells, c.Keeps)
    (site : Site) {frame : Frame} (hframe : Has frame) {vs : List Value}
    (hv : a.run site frame = .ok vs) : b.run site frame = .ok vs ∧ ∀ v ∈ vs, Holds v := by
  cases h with
  | values hab =>
    obtain ⟨x, hx, hr⟩ := bind_eq_ok.mp hv
    have hholds := hkeeps _ List.mem_cons_self _ _ x hframe hx
    exact ⟨bind_eq_ok.mpr ⟨x, hab _ _ _ hframe hx, hr⟩, Frames.elements hholds hr⟩
  | steps cursor hf hl hs hp =>
    obtain ⟨first, hx, hv⟩ := bind_eq_ok.mp hv
    obtain ⟨last, hy, hv⟩ := bind_eq_ok.mp hv
    have hfirst := hkeeps _ List.mem_cons_self _ _ first hframe hx
    have hnext : ∀ {step step' : Action}, step.Refines step' → step.Keeps → ∀ (n : Nat) v w,
        Holds v → step (n :: 2 :: site) (frame.bind cursor v) = .ok w →
          step' (n :: 2 :: site) (frame.bind cursor v) = .ok w ∧ Holds w :=
      fun h hkeep n v w hv hw => have hbound := Frames.bind cursor hframe hv
        ⟨h _ _ _ hbound hw, hkeep _ _ _ hbound hw⟩
    rw [run, hf _ _ _ hframe hx, hl _ _ _ hframe hy]
    dsimp only [bind, Except.bind]
    split
    · next ho =>
      rw [ho] at hv
      exact ⟨hv, pure_eq_ok.mp hv ▸ nofun⟩
    · next ho =>
      rw [ho] at hv
      exact ⟨hv, pure_eq_ok.mp hv ▸ List.forall_mem_singleton.mpr hfirst⟩
    · next direction hd ho =>
      rw [ho] at hv
      cases direction with
      | eq => exact absurd rfl hd
      | lt => exact stepsFrom_refines (hnext hs (hkeeps _ (by simp [cells]))) _ _ _ hfirst nofun hv
      | gt => exact stepsFrom_refines (hnext hp (hkeeps _ (by simp [cells]))) _ _ _ hfirst nofun hv

end Domain

namespace Iteration

theorem forEach_refines {σ : Type} {name : String}
    {f g : Site → Frame → σ → Except EvalError (ForInStep σ)}
    (h : ∀ site frame s r, Has frame → f site frame s = .ok r → g site frame s = .ok r)
    (site : Site) {frame : Frame} (hframe : Has frame) (i : Nat) {vs : List Value}
    (hvs : ∀ v ∈ vs, Holds v) (s : σ) (r : ForInStep σ)
    (hv : forEach name f site frame i vs s = .ok r) :
    forEach name g site frame i vs s = .ok r := by
  induction vs generalizing i s with
  | nil => exact hv
  | cons v vs ih =>
    rw [List.forall_mem_cons] at hvs
    rw [forEach] at hv ⊢
    cases hf : f (i :: site) (frame.bind name v) s with
    | error e => simp [hf] at hv
    | ok step =>
      rw [hf] at hv
      rw [h _ _ _ _ (Frames.bind name hframe hvs.1) hf]
      cases step with
      | yield s' => exact ih _ hvs.2 _ hv
      | done s' => exact hv

/-- The values of the domains may be bound. -/
abbrev Keep (bs : List (Binding Action)) : Prop := ∀ b ∈ bs, ∀ c ∈ b.domain.cells, c.Keeps

theorem run_refines {σ : Type} {f g : Site → Frame → σ → Except EvalError (ForInStep σ)}
    (h : ∀ site frame s r, Has frame → f site frame s = .ok r → g site frame s = .ok r)
    {as bs : List (Binding Action)} (hb : List.Forall₂ (Binding.Rel Refines) as bs)
    (hkeep : Keep as) (site : Site) (frame : Frame) (s : σ) (r : ForInStep σ) (hframe : Has frame)
    (hv : run f as site frame s = .ok r) : run g bs site frame s = .ok r := by
  -- the induction is on the bindings; the rest of them is what each value goes on with
  induction hb generalizing site frame s r with
  | nil => exact h _ _ _ _ hframe hv
  | cons hab _ ih =>
    rw [Keep, List.forall_mem_cons] at hkeep
    obtain ⟨vs, hvs, hr⟩ := bind_eq_ok.mp hv
    obtain ⟨hvs, hholds⟩ := Domain.run_refines hab.domain hkeep.1 _ hframe hvs
    refine bind_eq_ok.mpr ⟨vs, hvs, ?_⟩
    rw [← hab.name]
    exact forEach_refines (ih hkeep.2) _ hframe _ hholds _ _ hr

section Bodies

variable {as bs : List (Binding Action)} (hb : List.Forall₂ (Binding.Rel Refines) as bs)
  (hkeep : Keep as) {a b : Action} (h : a.Refines b)
include hb hkeep h

theorem collect_refines : (collect as a).Refines (collect bs b) := by
  intro site frame v hframe hv
  obtain ⟨out, ho, hr⟩ := bind_eq_ok.mp hv
  refine bind_eq_ok.mpr ⟨out, run_refines ?_ hb hkeep _ _ _ _ hframe ho, hr⟩
  intro site frame s r hframe hs
  obtain ⟨x, hx, hr⟩ := bind_eq_ok.mp hs
  exact bind_eq_ok.mpr ⟨x, h _ _ _ hframe hx, hr⟩

theorem quantify_refines (every : Bool) :
    (quantify every as a).Refines (quantify every bs b) := by
  intro site frame v hframe hv
  obtain ⟨out, ho, hr⟩ := bind_eq_ok.mp hv
  refine bind_eq_ok.mpr ⟨out, run_refines ?_ hb hkeep _ _ _ _ hframe ho, hr⟩
  intro site frame s r hframe hs
  obtain ⟨x, hx, hr⟩ := bind_eq_ok.mp hs
  exact bind_eq_ok.mpr ⟨x, h _ _ _ hframe hx, hr⟩

end Bodies

end Iteration

namespace Filter

theorem select_refines {a b : Action} (h : a.Refines b) (site : Site) {frame : Frame}
    (hframe : Has frame) (i : Nat) {vs : List Value} (hvs : ∀ v ∈ vs, Holds v)
    (kept : List Value) (r : Value) (hv : select a site frame i vs kept = .ok r) :
    select b site frame i vs kept = .ok r := by
  induction vs generalizing i kept with
  | nil => exact hv
  | cons v vs ih =>
    rw [List.forall_mem_cons] at hvs
    obtain ⟨x, hx, hr⟩ := bind_eq_ok.mp hv
    exact bind_eq_ok.mpr ⟨x, h _ _ _ (Frames.itemFrame hframe hvs.1) hx, ih _ hvs.2 _ hr⟩

theorem run_refines {a b a' b' : Action} (h : a.Refines a') (hkeeps : a.Keeps)
    (k : b.Refines b') (kind : FilterKind) : (run a b kind).Refines (run a' b' kind) := by
  intro site frame v hframe hv
  obtain ⟨x, hx, hv⟩ := bind_eq_ok.mp hv
  have hx' := hkeeps _ _ _ hframe hx
  refine bind_eq_ok.mpr ⟨x, h _ _ _ hframe hx, ?_⟩
  extract_lets items at hv
  have hitems : ∀ v ∈ items, Holds v := by
    cases x with
    | list vs => exact Frames.elements hx' rfl
    | _ => exact List.forall_mem_singleton.mpr hx'
  by_cases hn : x.isNull = true
  · rw [if_pos hn] at hv ⊢
    exact hv
  · rw [if_neg hn] at hv ⊢
    cases kind with
    | index =>
      obtain ⟨y, hy, hr⟩ := bind_eq_ok.mp hv
      exact bind_eq_ok.mpr ⟨y, k _ _ _ hframe hy, hr⟩
    | predicate => exact select_refines k _ hframe _ hitems _ _ hv
    | dynamic =>
      obtain ⟨y, hy, hv⟩ := bind_eq_ok.mp hv
      have hhead : ∀ {vs : List Value}, (∀ v ∈ vs, Holds v) → Holds (vs.headD .null) := by
        intro vs hvs
        cases vs with
        | nil => exact Frames.null
        | cons v _ => exact hvs v List.mem_cons_self
      refine bind_eq_ok.mpr ⟨y, k _ _ _ (Frames.itemFrame hframe (hhead hitems)) hy, ?_⟩
      cases y with
      | number n => exact hv
      | _ => exact select_refines k _ hframe _ hitems _ _ hv

end Filter

end Compared

/-- All values may be bound, if all frames are meant. -/
theorem Action.keeps_all (a : Action) : a.Keeps := fun _ _ _ _ _ => trivial

open Action (Refines)

/-! ### Decision tables -/

namespace Action

theorem holds_refines {a b : Action} (h : a.Refines b) (site : Site) (frame : Frame)
    (subject : Value) (r : Bool) (hv : a.holds site frame subject = .ok r) :
    b.holds site frame subject = .ok r := by
  obtain ⟨x, hx, hr⟩ := bind_eq_ok.mp hv
  exact bind_eq_ok.mpr ⟨x, h _ _ _ trivial hx, hr⟩

end Action

namespace Decision

/-- Numbered rules of one number whose cells refine each other. -/
def RuleRefines (a b : Nat × MatrixRule Action) : Prop := a.1 = b.1 ∧ a.2.Rel Refines b.2

theorem accepts_refines {as bs : List Action} (h : List.Forall₂ Refines as bs) (site : Site)
    (frame : Frame) (i : Nat) (vs : List Value) (r : Bool)
    (hv : accepts site frame i as vs = .ok r) : accepts site frame i bs vs = .ok r := by
  induction h generalizing i vs with
  | nil => exact hv
  | cons hab _ ih =>
    cases vs with
    | nil => exact hv
    | cons v vs =>
      obtain ⟨x, hx, hv⟩ := bind_eq_ok.mp hv
      refine bind_eq_ok.mpr ⟨x, Action.holds_refines hab _ _ _ _ hx, ?_⟩
      cases x with
      | true => exact ih _ _ hv
      | false => exact hv

theorem matching_refines {as bs : List (MatrixRule Action)}
    (h : List.Forall₂ (MatrixRule.Rel Refines) as bs) (site : Site) (frame : Frame)
    (inputs : List Value) (onlyFirst : Bool) (i : Nat) (hits : List (Nat × MatrixRule Action))
    (hv : matching site frame inputs onlyFirst i as = .ok hits) :
    ∃ hits', matching site frame inputs onlyFirst i bs = .ok hits' ∧
      List.Forall₂ RuleRefines hits hits' := by
  induction h generalizing i hits with
  | nil =>
    cases hv
    exact ⟨[], rfl, .nil⟩
  | @cons a b _ _ hab _ ih =>
    obtain ⟨x, hx, hv⟩ := bind_eq_ok.mp hv
    have hx' := accepts_refines hab.conditions _ _ _ _ _ hx
    cases x with
    | false =>
      obtain ⟨hits', hm, hr⟩ := ih _ _ hv
      exact ⟨hits', bind_eq_ok.mpr ⟨false, hx', hm⟩, hr⟩
    | true =>
      cases onlyFirst with
      | true =>
        cases hv
        exact ⟨[(i, b)], bind_eq_ok.mpr ⟨true, hx', rfl⟩, .cons ⟨rfl, hab⟩ .nil⟩
      | false =>
        obtain ⟨rest, hrest, hv⟩ := bind_eq_ok.mp hv
        cases hv
        obtain ⟨rest', hm, hr⟩ := ih _ _ hrest
        exact ⟨(i, b) :: rest', bind_eq_ok.mpr ⟨true, hx', bind_eq_ok.mpr ⟨rest', hm, rfl⟩⟩,
          .cons ⟨rfl, hab⟩ hr⟩

theorem allowed_refines {a b : MatrixOutput Action} (h : a.Rel Refines b) (site : Site)
    (frame : Frame) (v : Value) (r : Bool) (hv : allowed site frame a v = .ok r) :
    allowed site frame b v = .ok r := by
  obtain ⟨ha, hb⟩ | ⟨c, d, ha, hb, hcd⟩ := Option.Rel.cases h.check
  · simp only [allowed, ha] at hv
    simp only [allowed, hb]
    exact hv
  · simp only [allowed, ha] at hv
    simp only [allowed, hb]
    by_cases hn : v.isNull = true
    · rw [if_pos hn] at hv ⊢
      exact hv
    · rw [if_neg hn] at hv ⊢
      exact Action.holds_refines hcd _ _ _ _ hv

theorem row_refines {as bs : List Action} (h : List.Forall₂ Refines as bs)
    {cs ds : List (MatrixOutput Action)} (k : List.Forall₂ (MatrixOutput.Rel Refines) cs ds)
    (site : Site) (frame : Frame) (rule j : Nat) (r : Row)
    (hv : row site frame rule j as cs = .ok r) : row site frame rule j bs ds = .ok r := by
  induction h generalizing cs ds j r with
  | nil => exact hv
  | cons hab _ ih =>
    cases k with
    | nil => exact hv
    | cons hcd hrest =>
      obtain ⟨x, hx, hv⟩ := bind_eq_ok.mp hv
      obtain ⟨y, hy, hv⟩ := bind_eq_ok.mp hv
      refine bind_eq_ok.mpr ⟨x, hab _ _ _ trivial hx,
        bind_eq_ok.mpr ⟨y, allowed_refines hcd _ _ _ _ hy, ?_⟩⟩
      cases y with
      | false => exact hv
      | true =>
        obtain ⟨z, hz, hr⟩ := bind_eq_ok.mp hv
        exact bind_eq_ok.mpr ⟨z, ih hrest _ _ hz, hr⟩

theorem rows_refines {cs ds : List (MatrixOutput Action)}
    (k : List.Forall₂ (MatrixOutput.Rel Refines) cs ds)
    {as bs : List (Nat × MatrixRule Action)} (h : List.Forall₂ RuleRefines as bs) (site : Site)
    (frame : Frame) (hits : List Hit) (hv : rows site frame cs as = .ok hits) :
    rows site frame ds bs = .ok hits := by
  induction h generalizing hits with
  | nil => exact hv
  | @cons a b _ _ hab _ ih =>
    obtain ⟨i, a⟩ := a
    obtain ⟨i', b⟩ := b
    obtain ⟨rfl, hab⟩ := hab
    obtain ⟨x, hx, hv⟩ := bind_eq_ok.mp hv
    obtain ⟨xs, hxs, hr⟩ := bind_eq_ok.mp hv
    exact bind_eq_ok.mpr ⟨x, row_refines hab.outputs k _ _ _ _ _ hx,
      bind_eq_ok.mpr ⟨xs, ih _ hxs, hr⟩⟩

theorem defaults_refines {cs ds : List (MatrixOutput Action)}
    (k : List.Forall₂ (MatrixOutput.Rel Refines) cs ds) (site : Site) (frame : Frame) (j : Nat)
    (r : Row) (hv : defaults site frame j cs = .ok r) : defaults site frame j ds = .ok r := by
  induction k generalizing j r with
  | nil => exact hv
  | @cons c d cs' ds' hcd _ ih =>
    -- what is left to do once the default of a column is known
    have rest : ∀ x, (do
        if ← allowed ((2 * j + 1) :: site) frame c x then
          return x :: (← defaults site frame (j + 1) cs')
        throw (.defaultOutput (j + 1))) = Except.ok r → (do
        if ← allowed ((2 * j + 1) :: site) frame d x then
          return x :: (← defaults site frame (j + 1) ds')
        throw (.defaultOutput (j + 1))) = Except.ok r := by
      intro x hv
      obtain ⟨y, hy, hv⟩ := bind_eq_ok.mp hv
      refine bind_eq_ok.mpr ⟨y, allowed_refines hcd _ _ _ _ hy, ?_⟩
      cases y with
      | false => exact hv
      | true =>
        obtain ⟨z, hz, hr⟩ := bind_eq_ok.mp hv
        exact bind_eq_ok.mpr ⟨z, ih _ _ hz, hr⟩
    obtain ⟨hc, hd⟩ | ⟨a, b, hc, hd, hab⟩ := Option.Rel.cases hcd.fallback
    · simp only [defaults, hc] at hv
      simp only [defaults, hd]
      exact rest _ hv
    · simp only [defaults, hc] at hv
      simp only [defaults, hd]
      obtain ⟨x, hx, hv⟩ := bind_eq_ok.mp hv
      exact bind_eq_ok.mpr ⟨x, hab _ _ _ trivial hx, rest x hv⟩

theorem rank_refines {as bs : List Action} (h : List.Forall₂ Refines as bs) (site : Site)
    (frame : Frame) (v : Value) (i r : Nat) (hv : rank site frame v i as = .ok r) :
    rank site frame v i bs = .ok r := by
  induction h generalizing i with
  | nil => exact hv
  | cons hab _ ih =>
    obtain ⟨x, hx, hv⟩ := bind_eq_ok.mp hv
    refine bind_eq_ok.mpr ⟨x, Action.holds_refines hab _ _ _ _ hx, ?_⟩
    cases x with
    | true => exact hv
    | false => exact ih _ hv

theorem rowRank_refines {cs ds : List (MatrixOutput Action)}
    (k : List.Forall₂ (MatrixOutput.Rel Refines) cs ds) (site : Site) (frame : Frame) (j : Nat)
    (vs : Row) (r : List Nat) (hv : rowRank site frame j cs vs = .ok r) :
    rowRank site frame j ds vs = .ok r := by
  induction k generalizing j vs r with
  | nil => exact hv
  | cons hcd _ ih =>
    cases vs with
    | nil => exact hv
    | cons v vs =>
      obtain ⟨x, hx, hv⟩ := bind_eq_ok.mp hv
      obtain ⟨xs, hxs, hr⟩ := bind_eq_ok.mp hv
      exact bind_eq_ok.mpr ⟨x, rank_refines hcd.priorities _ _ _ _ _ hx,
        bind_eq_ok.mpr ⟨xs, ih _ _ _ hxs, hr⟩⟩

theorem ranks_refines {cs ds : List (MatrixOutput Action)}
    (k : List.Forall₂ (MatrixOutput.Rel Refines) cs ds) (site : Site) (frame : Frame)
    (hits : List Hit) (r : List (List Nat × Row)) (hv : ranks site frame cs hits = .ok r) :
    ranks site frame ds hits = .ok r := by
  induction hits generalizing r with
  | nil => exact hv
  | cons hit hits ih =>
    obtain ⟨x, hx, hv⟩ := bind_eq_ok.mp hv
    obtain ⟨xs, hxs, hr⟩ := bind_eq_ok.mp hv
    exact bind_eq_ok.mpr ⟨x, rowRank_refines k _ _ _ _ _ hx, bind_eq_ok.mpr ⟨xs, ih _ hxs, hr⟩⟩

/-- The names of the columns are those of the refined table. -/
theorem names_eq {cs ds : List (MatrixOutput Action)}
    (k : List.Forall₂ (MatrixOutput.Rel Refines) cs ds) :
    cs.map (fun o => o.name.getD "") = ds.map (fun o => o.name.getD "") := by
  induction k with
  | nil => rfl
  | cons hcd _ ih => simp only [List.map_cons, hcd.name, ih]

theorem shape_eq {t u : DecisionMatrix Action} (h : t.Rel Refines u) : shape t = shape u := by
  funext r
  rw [shape, shape, h.singleOutput, names_eq h.outputs]

/-- A column has a default exactly if the refined one does. -/
theorem any_fallback_eq {cs ds : List (MatrixOutput Action)}
    (k : List.Forall₂ (MatrixOutput.Rel Refines) cs ds) :
    (cs.any fun o => o.fallback.isSome) = ds.any fun o => o.fallback.isSome := by
  induction k with
  | nil => rfl
  | @cons c d _ _ hcd _ ih =>
    have hf : c.fallback.isSome = d.fallback.isSome := by
      obtain ⟨hc, hd⟩ | ⟨a, b, hc, hd, _⟩ := Option.Rel.cases hcd.fallback
      · rw [hc, hd]
      · rw [hc, hd]
        rfl
    simp only [List.any_cons, hf, ih]

theorem unmatched_refines {t u : DecisionMatrix Action} (h : t.Rel Refines u) (site : Site)
    (frame : Frame) (v : Value) (hv : unmatched t site frame = .ok v) :
    unmatched u site frame = .ok v := by
  rw [unmatched, any_fallback_eq h.outputs, h.hitPolicy, h.aggregation, shape_eq h] at hv
  rw [unmatched]
  by_cases hf : (u.outputs.any fun o => o.fallback.isSome) = true
  · rw [if_pos hf] at hv ⊢
    obtain ⟨r, hr, hv⟩ := bind_eq_ok.mp hv
    exact bind_eq_ok.mpr ⟨r, defaults_refines h.outputs _ _ _ _ hr, hv⟩
  · rw [if_neg hf] at hv ⊢
    exact hv

theorem settle_refines {t u : DecisionMatrix Action} (h : t.Rel Refines u) (site : Site)
    (frame : Frame) (hits : List Hit) (v : Value) (hv : settle t site frame hits = .ok v) :
    settle u site frame hits = .ok v := by
  simp only [settle, shape_eq h, h.hitPolicy, h.aggregation, h.name] at hv
  simp only [settle]
  -- only the two policies by rank evaluate cells
  cases hp : u.hitPolicy with
  | priority =>
    rw [hp] at hv
    obtain ⟨r, hr, hv⟩ := bind_eq_ok.mp hv
    exact bind_eq_ok.mpr ⟨r, ranks_refines h.outputs _ _ _ _ hr, hv⟩
  | outputOrder =>
    rw [hp] at hv
    obtain ⟨r, hr, hv⟩ := bind_eq_ok.mp hv
    exact bind_eq_ok.mpr ⟨r, ranks_refines h.outputs _ _ _ _ hr, hv⟩
  | _ =>
    rw [hp] at hv
    exact hv

theorem run_refines {t u : DecisionMatrix Action} (h : t.Rel Refines u) :
    (run t).Refines (run u) := by
  intro site frame v _ hv
  obtain ⟨inputs, hi, hv⟩ := bind_eq_ok.mp hv
  obtain ⟨rules, hr, hv⟩ := bind_eq_ok.mp hv
  rw [h.hitPolicy] at hr
  obtain ⟨rules', hr', hrel⟩ := matching_refines h.rules _ _ _ _ _ _ hr
  refine bind_eq_ok.mpr ⟨inputs, Refines.all h.inputs _ trivial _ _ hi,
    bind_eq_ok.mpr ⟨rules', hr', ?_⟩⟩
  cases hrel with
  | nil => exact unmatched_refines h _ _ _ hv
  | cons hab hrest =>
    obtain ⟨hits, hh, hv⟩ := bind_eq_ok.mp hv
    exact bind_eq_ok.mpr ⟨hits, rows_refines h.outputs (.cons hab hrest) _ _ _ hh,
      settle_refines h _ _ _ _ hv⟩

end Decision

/-! ### Code -/

namespace Code

variable [Frames]

/-- On their machines the second code succeeds wherever the first does, with the same value. -/
def Refines (m n : Machine) (c d : Code) : Prop := (c.denote m).Refines (d.denote n)

/-- Entries of one name whose code is refined. -/
def EntryRefines (m n : Machine) (a b : String × Code) : Prop :=
  a.1 = b.1 ∧ Code.Refines m n a.2 b.2

section Denote

variable {m n : Machine}

theorem denoteList_refines {cs ds : List Code} (h : List.Forall₂ (Code.Refines m n) cs ds) :
    List.Forall₂ Action.Refines (denoteList m cs) (denoteList n ds) := by
  induction h with
  | nil => exact .nil
  | cons hcd _ ih => exact .cons hcd ih

theorem denoteEntries_refines {es fs : List (String × Code)}
    (h : List.Forall₂ (EntryRefines m n) es fs) :
    List.Forall₂ Action.Refines.Entry (denoteEntries m es) (denoteEntries n fs) := by
  induction h with
  | nil => exact .nil
  | cons hef _ ih => exact .cons hef ih

theorem denoteOption_refines {a b : Option Code} (h : Option.Rel (Code.Refines m n) a b) :
    Option.Rel Action.Refines (denoteOption m a) (denoteOption n b) := by
  cases h with
  | none => exact .none
  | some hab => exact .some hab

theorem denoteDomain_refines {a b : Domain Code} (h : a.Rel (Code.Refines m n) b) :
    (denoteDomain m a).Rel Action.Refines (denoteDomain n b) := by
  cases h with
  | values hab => exact .values hab
  | steps cursor hf hl hs hp => exact .steps cursor hf hl hs hp

theorem denoteBindings_refines {as bs : List (Binding Code)}
    (h : List.Forall₂ (Binding.Rel (Code.Refines m n)) as bs) :
    List.Forall₂ (Binding.Rel Action.Refines) (denoteBindings m as) (denoteBindings n bs) := by
  induction h with
  | nil => exact .nil
  | cons hab _ ih => exact .cons ⟨hab.name, denoteDomain_refines hab.domain⟩ ih

theorem denoteRules_refines {as bs : List (MatrixRule Code)}
    (h : List.Forall₂ (MatrixRule.Rel (Code.Refines m n)) as bs) :
    List.Forall₂ (MatrixRule.Rel Action.Refines) (denoteRules m as) (denoteRules n bs) := by
  induction h with
  | nil => exact .nil
  | cons hab _ ih =>
    exact .cons ⟨denoteList_refines hab.conditions, denoteList_refines hab.outputs⟩ ih

theorem denoteOutputs_refines {as bs : List (MatrixOutput Code)}
    (h : List.Forall₂ (MatrixOutput.Rel (Code.Refines m n)) as bs) :
    List.Forall₂ (MatrixOutput.Rel Action.Refines) (denoteOutputs m as) (denoteOutputs n bs) := by
  induction h with
  | nil => exact .nil
  | cons hab _ ih =>
    exact .cons ⟨hab.name, denoteOption_refines hab.check, denoteList_refines hab.priorities,
      denoteOption_refines hab.fallback⟩ ih

theorem denoteMatrix_refines {a b : DecisionMatrix Code} (h : a.Rel (Code.Refines m n) b) :
    (denoteMatrix m a).Rel Action.Refines (denoteMatrix n b) := by
  cases a
  cases b
  exact ⟨h.name, denoteList_refines h.inputs, denoteRules_refines h.rules,
    denoteOutputs_refines h.outputs, h.hitPolicy, h.aggregation, h.singleOutput⟩

end Denote

end Code

end Feel
