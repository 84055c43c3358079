import Mathlib.Data.List.Forall2
import Feel.Proofs.Simplify

/-!
# Choices of bindings

Bindings leave a choice: an element of the first domain, then one of the second domain, which is
evaluated where the first name is bound, and so on. The choices are enumerated in the lexicographic
order of the positions of their elements. An iteration visits this enumeration: `for` evaluates its
body for every choice, and a quantified condition, although it stops at the first choice that
decides, has the answer of all of them.

* `Iteration.Choice`, `Iteration.Chooses`: the choices that bindings leave in a frame.
* `Iteration.Enumerates`: a list of all choices in lexicographic order.
* `Iteration.visitAll`, `Iteration.exists_enumeration`: an iteration visits an enumeration.
* `Code.run_over_choices`: what `for`, `some` and `every` give.
-/

namespace Feel

namespace Iteration

/-! ### Choices -/

/-- An element for each binding: their positions in the domains, counted from one, and what the
names are bound to. -/
structure Choice where
  positions : List Nat
  entries : List (String × Value)

namespace Choice

/-- A choice with an element before it. -/
def after (position : Nat) (name : String) (v : Value) (c : Choice) : Choice :=
  ⟨position :: c.positions, (name, v) :: c.entries⟩

/-- The place in a run where a choice is visited. -/
def site (c : Choice) (site : Site) : Site := c.positions.reverse ++ site

/-- What an action does where the names are bound as chosen, in the first part of a visit. -/
def eval (body : Action) (site : Site) (frame : Frame) (c : Choice) : Except EvalError Value :=
  body (0 :: c.site site) (frame.bindAll c.entries)

theorem site_after (i : Nat) (name : String) (v : Value) (c : Choice) (s : Site) :
    (c.after i name v).site s = c.site (i :: s) := by
  simp [site, after]

theorem bindAll_after (frame : Frame) (i : Nat) (name : String) (v : Value) (c : Choice) :
    frame.bindAll (c.after i name v).entries = (frame.bind name v).bindAll c.entries := by
  simp [Frame.bindAll, Frame.bind, after]

end Choice

/-- The choices that bindings leave: an element of the first domain, and a choice for the other
bindings where the first name is bound to it. -/
inductive Chooses : List (Binding Action) → Site → Frame → Choice → Prop
  | nil (site : Site) (frame : Frame) : Chooses [] site frame ⟨[], []⟩
  | cons {b : Binding Action} {bs : List (Binding Action)} {site : Site} {frame : Frame}
      {values : List Value} {i : Nat} {v : Value} {c : Choice}
      (hvalues : b.domain.run (0 :: site) frame = .ok values) (hv : values[i]? = some v)
      (rest : Chooses bs ((i + 1) :: site) (frame.bind b.name v) c) :
      Chooses (b :: bs) site frame (c.after (i + 1) b.name v)

/-- No domain fails, whatever was chosen for the bindings before it. -/
def DomainsSucceed : List (Binding Action) → Site → Frame → Prop
  | [], _, _ => True
  | b :: bs, site, frame =>
    ∃ values, b.domain.run (0 :: site) frame = .ok values ∧
      ∀ i v, values[i]? = some v → DomainsSucceed bs ((i + 1) :: site) (frame.bind b.name v)

/-- A list of all choices in the lexicographic order of their positions. There is one at most. -/
structure Enumerates (bs : List (Binding Action)) (site : Site) (frame : Frame)
    (cs : List Choice) : Prop where
  ascending : cs.Pairwise fun c d => c.positions < d.positions
  complete : ∀ c, c ∈ cs ↔ Chooses bs site frame c

/-! ### Visits -/

section Visit

variable {σ : Type} (visit : Site → Frame → σ → Except EvalError (ForInStep σ))

/-- Visits choices in order, until `visit` says to stop. -/
def visitAll (site : Site) (frame : Frame) : List Choice → σ → Except EvalError (ForInStep σ)
  | [], s => .ok (.yield s)
  | c :: cs, s =>
    match visit (c.site site) (frame.bindAll c.entries) s with
    | .ok (.yield s) => visitAll site frame cs s
    | other => other

theorem visitAll_append (site : Site) (frame : Frame) (cs ds : List Choice) (s : σ) :
    visitAll visit site frame (cs ++ ds) s =
      match visitAll visit site frame cs s with
      | .ok (.yield s) => visitAll visit site frame ds s
      | other => other := by
  induction cs generalizing s with
  | nil => rfl
  | cons c cs ih =>
    rw [List.cons_append, visitAll, visitAll]
    rcases visit (c.site site) (frame.bindAll c.entries) s with e | s' | s'
    · rfl
    · rfl
    · exact ih s'

/-- Choices after a common element are visited where this element is bound. -/
theorem visitAll_after (site : Site) (frame : Frame) (i : Nat) (name : String) (v : Value)
    (cs : List Choice) (s : σ) :
    visitAll visit site frame (cs.map (·.after i name v)) s =
      visitAll visit (i :: site) (frame.bind name v) cs s := by
  induction cs generalizing s with
  | nil => rfl
  | cons c cs ih =>
    rw [List.map_cons, visitAll, visitAll, Choice.site_after, Choice.bindAll_after]
    rcases visit (c.site (i :: site)) ((frame.bind name v).bindAll c.entries) s with e | s' | s'
    · rfl
    · rfl
    · exact ih s'

end Visit

/-! ### Enumerations -/

/-- The elements of a domain from position `k` on, each followed by the choices of the other
bindings, are enumerated one after the other. -/
theorem exists_blocks {bs : List (Binding Action)} (name : String) (site : Site) (frame : Frame)
    (values : List Value) (k : Nat)
    (h : ∀ i v, values[i]? = some v → ∃ cs,
      Enumerates bs ((k + i + 1) :: site) (frame.bind name v) cs ∧
      ∀ {σ : Type} (visit : Site → Frame → σ → Except EvalError (ForInStep σ)) (s : σ),
        run visit bs ((k + i + 1) :: site) (frame.bind name v) s =
          visitAll visit ((k + i + 1) :: site) (frame.bind name v) cs s) :
    ∃ cs : List Choice, (cs.Pairwise fun c d => c.positions < d.positions) ∧
      (∀ c, c ∈ cs ↔ ∃ i v d, values[i]? = some v ∧
        Chooses bs ((k + i + 1) :: site) (frame.bind name v) d ∧ c = d.after (k + i + 1) name v) ∧
      ∀ {σ : Type} (visit : Site → Frame → σ → Except EvalError (ForInStep σ)) (s : σ),
        forEach name (run visit bs) site frame (k + 1) values s =
          visitAll visit site frame cs s := by
  induction values generalizing k with
  | nil => exact ⟨[], .nil, by simp, fun visit s => rfl⟩
  | cons v vs ih =>
    obtain ⟨first, hfirst, hvisit⟩ := h 0 v rfl
    obtain ⟨rest, hsorted, hmem, hrest⟩ := ih (k + 1) fun i w hw => by
      have hplace : k + 1 + i + 1 = k + (i + 1) + 1 := by omega
      rw [hplace]
      exact h (i + 1) w hw
    refine ⟨first.map (·.after (k + 1) name v) ++ rest, ?_, fun c => ?_, fun visit s => ?_⟩
    · refine List.pairwise_append.mpr ⟨?_, hsorted, ?_⟩
      · refine List.pairwise_map.mpr (hfirst.ascending.imp fun {c d} hlt => ?_)
        exact List.cons_lt_cons_self.mpr hlt
      · -- what comes later begins with a later element
        intro c hc d hd
        obtain ⟨c, -, rfl⟩ := List.mem_map.mp hc
        obtain ⟨i, w, d, -, -, rfl⟩ := (hmem _).mp hd
        exact List.Lex.rel (by omega)
    · rw [List.mem_append, List.mem_map, hmem]
      constructor
      · rintro (⟨d, hd, rfl⟩ | ⟨i, w, d, hw, hd, rfl⟩)
        · exact ⟨0, v, d, rfl, (hfirst.complete d).mp hd, rfl⟩
        · have hplace : k + 1 + i + 1 = k + (i + 1) + 1 := by omega
          rw [hplace] at hd ⊢
          exact ⟨i + 1, w, d, hw, hd, rfl⟩
      · rintro ⟨i, w, d, hw, hd, rfl⟩
        cases i with
        | zero =>
          obtain rfl : v = w := Option.some.inj hw
          exact .inl ⟨d, (hfirst.complete d).mpr hd, rfl⟩
        | succ i =>
          have hplace : k + (i + 1) + 1 = k + 1 + i + 1 := by omega
          rw [hplace] at hd ⊢
          exact .inr ⟨i, w, d, hw, hd, rfl⟩
    · rw [forEach, visitAll_append, visitAll_after, ← hvisit visit s]
      rcases run visit bs ((k + 1) :: site) (frame.bind name v) s with e | s' | s'
      · rfl
      · rfl
      · exact hrest visit s'

/-- **Iterations visit enumerations.** Where no domain fails there is an enumeration of all choices,
and every iteration over the bindings visits it in order. -/
theorem exists_enumeration {bs : List (Binding Action)} {site : Site} {frame : Frame}
    (h : DomainsSucceed bs site frame) :
    ∃ cs, Enumerates bs site frame cs ∧
      ∀ {σ : Type} (visit : Site → Frame → σ → Except EvalError (ForInStep σ)) (s : σ),
        run visit bs site frame s = visitAll visit site frame cs s := by
  induction bs generalizing site frame with
  | nil =>
    refine ⟨[⟨[], []⟩], ⟨List.pairwise_singleton _ _, fun c => ?_⟩, fun visit s => ?_⟩
    · rw [List.mem_singleton]
      constructor
      · rintro rfl
        exact .nil site frame
      · intro hc
        cases hc
        rfl
    · show visit site frame s = match visit site frame s with
        | .ok (.yield s) => .ok (.yield s)
        | other => other
      rcases visit site frame s with e | s' | s' <;> rfl
  | cons b bs ih =>
    obtain ⟨values, hvalues, hrest⟩ := h
    obtain ⟨cs, hsorted, hmem, hvisit⟩ := exists_blocks b.name site frame values 0 fun i v hv => by
      rw [Nat.zero_add]
      exact ih (hrest i v hv)
    refine ⟨cs, ⟨hsorted, fun c => ?_⟩, fun visit s => ?_⟩
    · rw [hmem]
      simp only [Nat.zero_add]
      constructor
      · rintro ⟨i, v, d, hv, hd, rfl⟩
        exact .cons hvalues hv hd
      · intro hc
        cases hc with
        | cons hvalues' hv hd =>
          rw [hvalues, Except.ok.injEq] at hvalues'
          subst hvalues'
          exact ⟨_, _, _, hv, hd, rfl⟩
    · rw [run, hvalues]
      exact hvisit visit s

/-! ### Bodies and conditions -/

variable {body : Action} {site : Site} {frame : Frame} {cs : List Choice} {vs : List Value}

theorem exists_values (h : ∀ c ∈ cs, ∃ v, c.eval body site frame = .ok v) :
    ∃ vs, List.Forall₂ (fun c v => c.eval body site frame = .ok v) cs vs := by
  induction cs with
  | nil => exact ⟨[], .nil⟩
  | cons c cs ih =>
    obtain ⟨v, hv⟩ := h c List.mem_cons_self
    obtain ⟨vs, hvs⟩ := ih fun d hd => h d (List.mem_cons_of_mem c hd)
    exact ⟨v :: vs, .cons hv hvs⟩

/-- The visits of `for` collect the values of the body. -/
theorem visitAll_collect
    (h : List.Forall₂ (fun c v => c.eval body site frame = .ok v) cs vs) (before : List Value) :
    visitAll (fun site frame vs => do
        let v ← body (0 :: site) frame
        return ForInStep.yield (v :: vs)) site frame cs before =
      .ok (.yield (vs.reverse ++ before)) := by
  induction h generalizing before with
  | nil => rfl
  | @cons c v cs vs hv _ ih =>
    have hv' : body (0 :: c.site site) (frame.bindAll c.entries) = .ok v := hv
    rw [visitAll, hv', List.reverse_cons, List.append_assoc]
    exact ih (v :: before)

/-- The visits of a quantified condition end with the answer of all choices. -/
theorem visitAll_quantify (every : Bool)
    (h : List.Forall₂ (fun c v => c.eval body site frame = .ok v) cs vs) :
    ∃ step, visitAll (fun site frame outcome => do
        let v ← body (0 :: site) frame
        return if v.isBool true = every then ForInStep.yield outcome
          else ForInStep.done (!every)) site frame cs every = .ok step ∧
      final step = if every then vs.all (·.isBool true) else vs.any (·.isBool true) := by
  induction h with
  | nil => exact ⟨.yield every, rfl, by cases every <;> rfl⟩
  | @cons c v cs vs hv _ ih =>
    have hv' : body (0 :: c.site site) (frame.bindAll c.entries) = .ok v := hv
    rw [visitAll, hv']
    by_cases hdecides : v.isBool true = every
    · obtain ⟨step, hstep, hfinal⟩ := ih
      refine ⟨step, ?_, ?_⟩
      · simp only [bind, Except.bind, pure, Except.pure, if_pos hdecides]
        exact hstep
      · rw [hfinal]
        cases every <;> simp [hdecides]
    · refine ⟨.done (!every), ?_, ?_⟩
      · simp only [bind, Except.bind, pure, Except.pure, if_neg hdecides]
      · cases every <;> simp_all [final]

theorem any_isBool_iff
    (h : List.Forall₂ (fun c v => c.eval body site frame = .ok v) cs vs) :
    vs.any (·.isBool true) = true ↔ ∃ c ∈ cs, c.eval body site frame = .ok (.boolean true) := by
  induction h with
  | nil => simp
  | @cons c v cs vs hv _ ih =>
    rw [List.any_cons, Bool.or_eq_true, ih, Code.isBool_iff, List.exists_mem_cons_iff, hv,
      Except.ok.injEq]

theorem all_isBool_iff
    (h : List.Forall₂ (fun c v => c.eval body site frame = .ok v) cs vs) :
    vs.all (·.isBool true) = true ↔ ∀ c ∈ cs, c.eval body site frame = .ok (.boolean true) := by
  induction h with
  | nil => simp
  | @cons c v cs vs hv _ ih =>
    rw [List.all_cons, Bool.and_eq_true, ih, Code.isBool_iff, List.forall_mem_cons, hv,
      Except.ok.injEq]

end Iteration

namespace Code

open Iteration (Choice Chooses DomainsSucceed Enumerates)

/-- **Iterations run over the choices of their bindings.** Take bindings whose domains do not fail
and a body that does not fail for any choice. The choices can be listed in the lexicographic order
of their positions, and then `for` gives the values of the body in this order, each evaluated where
exactly the chosen elements are bound. A condition under `some` is true if it is the value true for
at least one choice, and one under `every` if it is that for all. -/
theorem run_over_choices (m : Machine) (bindings : List (Binding Code)) (body : Code) (site : Site)
    (frame : Frame) (hdomains : DomainsSucceed (denoteBindings m bindings) (0 :: site) frame)
    (hbody : ∀ c, Chooses (denoteBindings m bindings) (0 :: site) frame c →
      ∃ v, c.eval (body.denote m) (0 :: site) frame = .ok v) :
    ∃ cs vs,
      Enumerates (denoteBindings m bindings) (0 :: site) frame cs ∧
      List.Forall₂ (fun c v => c.eval (body.denote m) (0 :: site) frame = .ok v) cs vs ∧
      (forIn bindings body).denote m site frame = .ok (.list vs) ∧
      (∃ b, (quantified false bindings body).denote m site frame = .ok (.boolean b) ∧
        (b = true ↔ ∃ c, Chooses (denoteBindings m bindings) (0 :: site) frame c ∧
          c.eval (body.denote m) (0 :: site) frame = .ok (.boolean true))) ∧
      ∃ b, (quantified true bindings body).denote m site frame = .ok (.boolean b) ∧
        (b = true ↔ ∀ c, Chooses (denoteBindings m bindings) (0 :: site) frame c →
          c.eval (body.denote m) (0 :: site) frame = .ok (.boolean true)) := by
  obtain ⟨cs, henumerates, hvisit⟩ := Iteration.exists_enumeration hdomains
  obtain ⟨vs, hvs⟩ := Iteration.exists_values fun c hc => hbody c ((henumerates.complete c).mp hc)
  have hquantified (every : Bool) : (quantified every bindings body).denote m site frame =
      .ok (.boolean (if every then vs.all (·.isBool true) else vs.any (·.isBool true))) := by
    obtain ⟨step, hstep, hfinal⟩ := Iteration.visitAll_quantify every hvs
    show Iteration.quantify every (denoteBindings m bindings) (body.denote m) site frame = _
    rw [Iteration.quantify, hvisit, hstep]
    exact congrArg (fun b => Except.ok (Datum.boolean b)) hfinal
  refine ⟨cs, vs, henumerates, hvs, ?_, ⟨_, hquantified false, ?_⟩, ⟨_, hquantified true, ?_⟩⟩
  · show Iteration.collect (denoteBindings m bindings) (body.denote m) site frame = _
    rw [Iteration.collect, hvisit, Iteration.visitAll_collect hvs]
    simp [bind, Except.bind, pure, Except.pure, Iteration.final]
  · simp only [← henumerates.complete]
    exact Iteration.any_isBool_iff hvs
  · simp only [← henumerates.complete]
    exact Iteration.all_isBool_iff hvs

/-- Where both bindings have one name, the inner choice counts: here its elements are the outer one
and the value true, and the condition is not a boolean for half of the choices. -/
theorem run_over_choices_of_one_name :
    let m : Machine := ⟨[], Number.defaultPrecision, fun _ _ _ _ => .ok .null⟩
    let frame := Frame.ofInput .null
    let bindings : List (Binding Code) :=
      [⟨"x", .values (.list [.const (.int 1), .const (.int 2)])⟩,
        ⟨"x", .values (.list [.local "x", .const (.boolean true)])⟩]
    ∃ cs, Enumerates (denoteBindings m bindings) [0] frame cs ∧
      List.Forall₂ (fun c v => c.eval ((Code.local "x").denote m) [0] frame = .ok v) cs
        [.int 1, .boolean true, .int 2, .boolean true] ∧
      (∃ c, Chooses (denoteBindings m bindings) [0] frame c ∧
        c.eval ((Code.local "x").denote m) [0] frame = .ok (.boolean true)) ∧
      ¬ ∀ c, Chooses (denoteBindings m bindings) [0] frame c →
        c.eval ((Code.local "x").denote m) [0] frame = .ok (.boolean true) := by
  intro m frame bindings
  have hdomains : DomainsSucceed (denoteBindings m bindings) [0] frame := by
    refine ⟨[.int 1, .int 2], rfl, fun i v _ => ⟨[v, .boolean true], ?_, fun _ _ _ => trivial⟩⟩
    show Except.ok [(frame.bind "x" v).lookup "x", Datum.boolean true] = _
    rw [Frame.lookup_bind_self]
  obtain ⟨cs, vs, henumerates, hvs, hlist, ⟨b, hsome, hb⟩, ⟨d, hevery, hd⟩⟩ :=
    run_over_choices m bindings (.local "x") [] frame hdomains fun c _ => ⟨_, rfl⟩
  have hlist' : (forIn bindings (.local "x")).denote m [] frame =
      .ok (.list [.int 1, .boolean true, .int 2, .boolean true]) := by rfl
  have hsome' : (quantified false bindings (.local "x")).denote m [] frame =
      .ok (.boolean true) := by rfl
  have hevery' : (quantified true bindings (.local "x")).denote m [] frame =
      .ok (.boolean false) := by rfl
  rw [hlist, Except.ok.injEq, Datum.list.injEq] at hlist'
  rw [hsome, Except.ok.injEq, Datum.boolean.injEq] at hsome'
  rw [hevery, Except.ok.injEq, Datum.boolean.injEq] at hevery'
  subst hlist' hsome' hevery'
  exact ⟨cs, henumerates, hvs, hb.mp rfl, fun hall => Bool.false_ne_true (hd.mpr hall)⟩

end Code

end Feel
