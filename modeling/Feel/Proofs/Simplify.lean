import Feel.Code.Simplify
import Feel.Proofs.Parts
import Feel.Proofs.Refinement

/-!
# Simplified code means the same

Where code succeeds, its simplified form succeeds with the same value, down to the
representation of numbers. Parts that are never reached may be dropped with their failures. Two
things are asked of the code: it defines no function, since the body of a function value would
be simplified with it, and short-circuit is marked only where both operands are booleans.

The simplifier computes an operator whose operands are constants, and a run computes the
operation it replaces. Both work with the precision they were given, except for one operator: a
quotient that is chosen by the values it meets is rounded by the simplifier to the default
precision, and by the run to its own.

* `DecisionMatrix.map`: a table with its cells mapped, which a run and the simplifier both do.
* `Code.YieldsBoolean`, `Code.ShortCircuitSound`: what the short-circuit mark promises.
* `Code.simplify_refines`: simplified code refines the code, for every form.
* `Code.run_simplify_eq_ok`: the same for whole runs over a pool.
* `Code.operands?`: the operands of an operator that looks at both of them.
* `Code.operate`: the value of an operator, with a precision for either kind of quotient.
* `Code.simplify_operator`, `Code.denote_operator`: what the simplifier and a run compute.
* `Code.simplify_eq_run_iff`: when they compute the same.
-/

namespace Feel

/-! ### Tables with other cells -/

section Tables

variable {ε ε' ε'' : Type} (g : ε' → ε'') (f : ε → ε')

/-- A rule with something made of its cells. -/
def MatrixRule.map (r : MatrixRule ε) : MatrixRule ε' := ⟨r.conditions.map f, r.outputs.map f⟩

/-- An output column with something made of its cells. -/
def MatrixOutput.map (c : MatrixOutput ε) : MatrixOutput ε' :=
  ⟨c.name, c.check.map f, c.priorities.map f, c.fallback.map f⟩

/-- A table with something made of its cells. -/
def DecisionMatrix.map (t : DecisionMatrix ε) : DecisionMatrix ε' :=
  ⟨t.name, t.inputs.map f, t.rules.map (.map f), t.outputs.map (.map f), t.hitPolicy,
    t.aggregation, t.singleOutput⟩

theorem MatrixRule.map_comp_map : MatrixRule.map g ∘ MatrixRule.map f = .map (g ∘ f) := by
  funext r
  simp [map]

theorem MatrixOutput.map_comp_map : MatrixOutput.map g ∘ MatrixOutput.map f = .map (g ∘ f) := by
  funext c
  simp [map]

theorem DecisionMatrix.map_map (t : DecisionMatrix ε) : (t.map f).map g = t.map (g ∘ f) := by
  simp only [map, List.map_map, MatrixRule.map_comp_map, MatrixOutput.map_comp_map]

theorem DecisionMatrix.cells_map (t : DecisionMatrix ε) : (t.map f).cells = t.cells.map f := by
  simp only [cells, map, MatrixRule.map, MatrixOutput.map, List.map_append, List.flatMap_map,
    List.map_flatMap, Option.toList_map]

end Tables

namespace Code

/-! ### Lists and tables of code -/

section Denoted

variable (m : Machine)

theorem denoteList_eq (cs : List Code) : denoteList m cs = cs.map (denote m) := by
  induction cs with
  | nil => rfl
  | cons c cs ih => exact congrArg _ ih

theorem denoteOption_eq (o : Option Code) : denoteOption m o = o.map (denote m) := by
  cases o <;> rfl

theorem denoteRules_eq (rs : List (MatrixRule Code)) :
    denoteRules m rs = rs.map (.map (denote m)) := by
  induction rs with
  | nil => rfl
  | cons r rs ih =>
    show ⟨denoteList m r.conditions, denoteList m r.outputs⟩ :: denoteRules m rs = _
    rw [ih, denoteList_eq, denoteList_eq]
    rfl

theorem denoteOutputs_eq (os : List (MatrixOutput Code)) :
    denoteOutputs m os = os.map (.map (denote m)) := by
  induction os with
  | nil => rfl
  | cons o os ih =>
    show ⟨o.name, denoteOption m o.check, denoteList m o.priorities, denoteOption m o.fallback⟩ ::
      denoteOutputs m os = _
    rw [ih, denoteList_eq, denoteOption_eq, denoteOption_eq]
    rfl

/-- The actions of a table are those of its cells. -/
theorem denoteMatrix_eq (t : DecisionMatrix Code) : denoteMatrix m t = t.map (denote m) := by
  obtain ⟨name, inputs, rules, outputs, policy, aggregation, single⟩ := t
  show (⟨name, denoteList m inputs, denoteRules m rules, denoteOutputs m outputs, policy,
    aggregation, single⟩ : DecisionMatrix Action) = _
  rw [denoteList_eq, denoteRules_eq, denoteOutputs_eq]
  rfl

end Denoted

section Lists

variable (pool : List Value) (precision : Nat)

theorem simplifyList_eq (cs : List Code) :
    simplifyList pool precision cs = cs.map (simplify pool precision) := by
  induction cs with
  | nil => rfl
  | cons c cs ih => exact congrArg _ ih

theorem simplifyEntries_eq (es : List (String × Code)) :
    simplifyEntries pool precision es = es.map fun e => (e.1, e.2.simplify pool precision) := by
  induction es with
  | nil => rfl
  | cons e es ih => exact congrArg _ ih

theorem simplifyOption_eq (o : Option Code) :
    simplifyOption pool precision o = o.map (simplify pool precision) := by
  cases o <;> rfl

theorem simplifyBindings_eq (bs : List (Binding Code)) : simplifyBindings pool precision bs =
    bs.map fun b => ⟨b.name, simplifyDomain pool precision b.domain⟩ := by
  induction bs with
  | nil => rfl
  | cons b bs ih => exact congrArg _ ih

theorem simplifyRules_eq (rs : List (MatrixRule Code)) :
    simplifyRules pool precision rs = rs.map (.map (simplify pool precision)) := by
  induction rs with
  | nil => rfl
  | cons r rs ih =>
    show ⟨simplifyList pool precision r.conditions, simplifyList pool precision r.outputs⟩ ::
      simplifyRules pool precision rs = _
    rw [ih, simplifyList_eq, simplifyList_eq]
    rfl

theorem simplifyOutputs_eq (os : List (MatrixOutput Code)) :
    simplifyOutputs pool precision os = os.map (.map (simplify pool precision)) := by
  induction os with
  | nil => rfl
  | cons o os ih =>
    show ⟨o.name, simplifyOption pool precision o.check, simplifyList pool precision o.priorities,
      simplifyOption pool precision o.fallback⟩ :: simplifyOutputs pool precision os = _
    rw [ih, simplifyList_eq, simplifyOption_eq, simplifyOption_eq]
    rfl

theorem simplify_list (cs : List Code) :
    (list cs).simplify pool precision = list (cs.map (simplify pool precision)) :=
  congrArg list (simplifyList_eq ..)

theorem simplify_context (es : List (String × Code)) :
    (context es).simplify pool precision =
      context (es.map fun e => (e.1, e.2.simplify pool precision)) :=
  congrArg context (simplifyEntries_eq ..)

theorem simplify_call (target : Target Code) (args : List Code) (names : Option (List String)) :
    (call target args names).simplify pool precision =
      call (simplifyTarget pool precision target) (args.map (simplify pool precision)) names :=
  congrArg (call _ · names) (simplifyList_eq ..)

/-- A branch on a constant is the branch that is taken. -/
theorem simplify_ite (c y n : Code) : (ite c y n).simplify pool precision =
    match (c.simplify pool precision).valueIn? pool with
    | some v => if v.isBool true then y.simplify pool precision else n.simplify pool precision
    | none =>
      ite (c.simplify pool precision) (y.simplify pool precision) (n.simplify pool precision) :=
  rfl

/-- A simplified table has simplified cells. -/
theorem simplifyMatrix_eq (t : DecisionMatrix Code) :
    simplifyMatrix pool precision t = t.map (simplify pool precision) := by
  obtain ⟨name, inputs, rules, outputs, policy, aggregation, single⟩ := t
  show (⟨name, simplifyList pool precision inputs, simplifyRules pool precision rules,
    simplifyOutputs pool precision outputs, policy, aggregation, single⟩ : DecisionMatrix Code) = _
  rw [simplifyList_eq, simplifyRules_eq, simplifyOutputs_eq]
  rfl

end Lists

/-! ### Constants -/

/-- A constant loads its value, inline or from the pool. -/
theorem denote_of_valueIn? {m : Machine} {c : Code} {v : Value}
    (h : c.valueIn? m.constants = some v) (site : Site) (frame : Frame) :
    c.denote m site frame = .ok v := by
  cases c with
  | const w =>
    rw [valueIn?, Option.some.injEq] at h
    rw [h]
    rfl
  | constRef i =>
    obtain ⟨hi, hv⟩ := List.getElem?_eq_some_iff.mp h
    show Action.constant m i site frame = .ok v
    rw [Action.constant, List.drop_eq_getElem_cons hi, hv]
  | _ => simp [valueIn?] at h

/-- A constant is simple. -/
theorem simplify_of_valueIn? {pool : List Value} {c : Code} {v : Value}
    (h : c.valueIn? pool = some v) (precision : Nat) : c.simplify pool precision = c := by
  cases c <;> first | rfl | cases h

/-- Where a constant is known, it is what the code it refines gives. -/
theorem eq_of_refines_constant {m : Machine} {a : Action} {c : Code} {v w : Value}
    (h : a.Refines (c.denote m)) (hc : c.valueIn? m.constants = some w) {site : Site}
    {frame : Frame} (hv : a site frame = .ok v) : v = w := by
  have hw := denote_of_valueIn? hc site frame
  rw [h _ _ _ trivial hv, Except.ok.injEq] at hw
  exact hw

/-- An operation, and the constant that stands for it where both operands are known. -/
theorem onConstants_refines {m : Machine} {act : Action} {l r whole : Code}
    {f : Value → Value → Value}
    (hconst : ∀ x y, l.valueIn? m.constants = some x → r.valueIn? m.constants = some y →
      ∀ site frame v, act site frame = .ok v → v = f x y)
    (hwhole : act.Refines (whole.denote m)) :
    act.Refines ((onConstants m.constants f l r whole).denote m) := by
  unfold onConstants
  split
  · next x y hx hy =>
    intro site frame v _ hv
    rw [hconst x y hx hy _ _ _ hv]
    rfl
  · exact hwhole

/-- Both operands evaluated and combined by `g`, where the simplifier computes with `f`. -/
theorem both_refines_onConstants {m : Machine} {a b : Action} {l r whole : Code}
    {f g : Value → Value → Value} (hl : a.Refines (l.denote m)) (hr : b.Refines (r.denote m))
    (hg : ∀ x y, g x y = f x y)
    (hwhole : whole.denote m = Action.both g (l.denote m) (r.denote m)) :
    (Action.both g a b).Refines ((onConstants m.constants f l r whole).denote m) := by
  apply onConstants_refines
  · intro x y hx hy site frame v hv
    obtain ⟨x', hx', hv⟩ := bind_eq_ok.mp hv
    obtain ⟨y', hy', hv⟩ := bind_eq_ok.mp hv
    rw [← pure_eq_ok.mp hv, eq_of_refines_constant hl hx hx', eq_of_refines_constant hr hy hy',
      hg]
  · rw [hwhole]
    exact .both g hl hr

/-- One operand evaluated and mapped by `f`. -/
theorem map_refines_onConstant {m : Machine} {a : Action} {c whole : Code} {f : Value → Value}
    (hc : a.Refines (c.denote m)) (hwhole : whole.denote m = Action.map f (c.denote m)) :
    (Action.map f a).Refines ((onConstant m.constants f c whole).denote m) := by
  unfold onConstant
  split
  · next x hx =>
    intro site frame v _ hv
    obtain ⟨x', hx', hv⟩ := bind_eq_ok.mp hv
    rw [← pure_eq_ok.mp hv, eq_of_refines_constant hc hx hx']
    rfl
  · rw [hwhole]
    exact .map f hc

/-- Arithmetic: what is null on the left gives null with or without the check. -/
theorem arith_refines_onConstants {m : Machine} {a b : Action} {l r : Code} (op : Operator)
    (mode : NumericMode) (nullCheck : Bool) (hl : a.Refines (l.denote m))
    (hr : b.Refines (r.denote m)) :
    (Action.arith m op mode nullCheck a b).Refines
      ((onConstants m.constants (fun v w => v.arith op w mode m.precision) l r
        (arith op mode l r nullCheck)).denote m) := by
  apply onConstants_refines
  · intro x y hx hy site frame v hv
    obtain ⟨x', hx', hv⟩ := bind_eq_ok.mp hv
    have hxx := eq_of_refines_constant hl hx hx'
    subst hxx
    split at hv
    · next hn =>
      -- the check passes only for null, and null on the left gives null
      have hnull : x'.isNull = true := (Bool.and_eq_true _ _ ▸ hn).2
      rw [← pure_eq_ok.mp hv]
      cases x' with
      | null => rfl
      | _ => simp [Datum.isNull] at hnull
    · obtain ⟨y', hy', hv⟩ := bind_eq_ok.mp hv
      rw [← pure_eq_ok.mp hv, eq_of_refines_constant hr hy hy']
  · exact .arith (.refl m) op mode nullCheck hl hr

/-! ### Logic -/

/-- Every value of the code on a machine is a boolean. -/
def YieldsBoolean (m : Machine) (c : Code) : Prop :=
  ∀ site frame v, c.denote m site frame = .ok v → ∃ b, v = .boolean b

/-- The promise of the short-circuit mark: both operands are booleans wherever they succeed. -/
def ShortCircuitSound (m : Machine) : Code → Prop
  | logic _ true l r => l.YieldsBoolean m ∧ r.YieldsBoolean m
  | _ => True

theorem isBool_iff {b : Bool} {v : Value} : v.isBool b = true ↔ v = .boolean b := by
  cases v with
  | boolean c =>
    rw [Datum.isBool, beq_iff_eq, Datum.boolean.injEq]
    exact eq_comm
  | _ => simp [Datum.isBool]

/-- An operand that decides a connective is its result. -/
theorem logic_of_dominant (op : Operator) (l r : Value)
    (h : l.isBool (op == .or) = true ∨ r.isBool (op == .or) = true) :
    Datum.logic op l r = .boolean (op == .or) := by
  rw [isBool_iff, isBool_iff] at h
  rcases h with rfl | rfl
  · cases op <;> rfl
  · cases l with
    | boolean b => cases b <;> cases op <;> rfl
    | _ => cases op <;> rfl

/-- A boolean on the left that does not decide leaves the boolean on the right. -/
theorem logic_of_not_dominant (op : Operator) (c : Bool) :
    Datum.logic op (.boolean !(op == .or)) (.boolean c : Value) = .boolean c := by
  cases c <;> cases op <;> rfl

/-- The three-valued table gives the value of a connective whose mark is sound, whether or not
the right operand was evaluated. -/
theorem logic_eq_ok {op : Operator} {shortCircuit : Bool} {a b : Action} {site : Site}
    {frame : Frame} {v : Value}
    (hs : shortCircuit = true → ∀ c ∈ [a, b], ∀ site frame v, c site frame = .ok v →
      ∃ b, v = .boolean b)
    (hv : Action.logic op shortCircuit a b site frame = .ok v) :
    ∃ x, a (0 :: site) frame = .ok x ∧
      ((x.isBool (op == .or) = true ∧ v = .boolean (op == .or)) ∨
        ∃ y, b (1 :: site) frame = .ok y ∧ v = Datum.logic op x y) := by
  obtain ⟨x, hx, hv⟩ := bind_eq_ok.mp hv
  refine ⟨x, hx, ?_⟩
  split at hv
  · next hd =>
    rw [← pure_eq_ok.mp hv]
    exact .inl ⟨hd, isBool_iff.mp hd⟩
  · next hd =>
    obtain ⟨y, hy, hv⟩ := bind_eq_ok.mp hv
    refine .inr ⟨y, hy, ?_⟩
    rw [← pure_eq_ok.mp hv]
    cases shortCircuit with
    | false => rfl
    | true =>
      obtain ⟨c, rfl⟩ := hs rfl a (by simp) _ _ _ hx
      obtain ⟨d, rfl⟩ := hs rfl b (by simp) _ _ _ hy
      have hc : c = !(op == Operator.or) := Bool.eq_not.mpr fun h => hd (isBool_iff.mpr (by rw [h]))
      rw [hc, logic_of_not_dominant]
      rfl

theorem logic_refines_simplifyLogic {m : Machine} {a b : Action} {l r : Code} (op : Operator)
    (shortCircuit : Bool) (hl : a.Refines (l.denote m)) (hr : b.Refines (r.denote m))
    (hs : shortCircuit = true → ∀ c ∈ [a, b], ∀ site frame v, c site frame = .ok v →
      ∃ b, v = .boolean b) :
    (Action.logic op shortCircuit a b).Refines
      ((simplifyLogic m.constants op shortCircuit l r).denote m) := by
  unfold simplifyLogic
  split
  · next x y hx hy =>
    intro site frame v _ hv
    obtain ⟨x', hx', ⟨hd, rfl⟩ | ⟨y', hy', rfl⟩⟩ := logic_eq_ok hs hv
    · rw [← eq_of_refines_constant hl hx hx']
      show Except.ok (Datum.logic op x' y) = _
      rw [logic_of_dominant op x' y (.inl hd)]
    · rw [← eq_of_refines_constant hl hx hx', ← eq_of_refines_constant hr hy hy']
      rfl
  · dsimp only
    split
    · next hdom =>
      intro site frame v _ hv
      obtain ⟨x', hx', ⟨_, rfl⟩ | ⟨y', hy', rfl⟩⟩ := logic_eq_ok hs hv
      · rfl
      · -- one of the operands is the constant that decides, so the evaluated one is it
        have dominates : ∀ {c : Code} {act : Action} {z : Value} {site : Site},
            act.Refines (c.denote m) → act site frame = .ok z →
            (c.valueIn? m.constants).any (·.isBool (op == .or)) = true →
            z.isBool (op == .or) = true := by
          intro c act z site hc hz hany
          cases hk : c.valueIn? m.constants with
          | none => simp [hk] at hany
          | some k =>
            rw [hk] at hany
            rw [eq_of_refines_constant hc hk hz]
            exact hany
        have h : x'.isBool (op == .or) = true ∨ y'.isBool (op == .or) = true := by
          rcases Bool.or_eq_true _ _ ▸ hdom with h | h
          · exact .inl (dominates hl hx' h)
          · exact .inr (dominates hr hy' h)
        rw [logic_of_dominant op x' y' h]
        rfl
    · exact .logic op shortCircuit hl hr

/-! ### Branches and bounds -/

theorem ite_refines_branch {m : Machine} {a b c : Action} {cond yes no : Code}
    (hc : a.Refines (cond.denote m)) (hy : b.Refines (yes.denote m))
    (hn : c.Refines (no.denote m)) :
    (Action.ite a b c).Refines (Code.denote m (match cond.valueIn? m.constants with
      | some v => if v.isBool true then yes else no
      | none => ite cond yes no)) := by
  split
  · next k hk =>
    intro site frame v _ hv
    obtain ⟨x, hx, hv⟩ := bind_eq_ok.mp hv
    rw [eq_of_refines_constant hc hk hx] at hv
    by_cases ht : k.isBool true = true
    · rw [if_pos ht] at hv ⊢
      exact hy _ _ _ trivial hv
    · rw [if_neg ht] at hv ⊢
      exact hn _ _ _ trivial hv
  · exact .ite hc hy hn

theorem between_refines_simplifyBetween {m : Machine} {a b c : Action} {v l h : Code}
    (hv : a.Refines (v.denote m)) (hl : b.Refines (l.denote m)) (hh : c.Refines (h.denote m)) :
    (Action.between a b c).Refines ((simplifyBetween m.constants v l h).denote m) := by
  unfold simplifyBetween
  split
  · next x lo hi hx hlo hhi =>
    intro site frame r _ hr
    obtain ⟨x', hx', hr⟩ := bind_eq_ok.mp hr
    obtain ⟨lo', hlo', hr⟩ := bind_eq_ok.mp hr
    obtain ⟨hi', hhi', hr⟩ := bind_eq_ok.mp hr
    rw [← pure_eq_ok.mp hr, eq_of_refines_constant hv hx hx',
      eq_of_refines_constant hl hlo hlo', eq_of_refines_constant hh hhi hhi']
    rfl
  · exact .between hv hl hh

/-! ### Lists of parts -/

section Lists

variable {R : Code → Code → Prop} {pool : List Value} {precision : Nat}

theorem simplifyList_rel {cs : List Code} (h : ∀ c ∈ cs, R c (c.simplify pool precision)) :
    List.Forall₂ R cs (simplifyList pool precision cs) := by
  induction cs with
  | nil => exact .nil
  | cons c cs ih =>
    exact .cons (h c List.mem_cons_self) (ih fun d hd => h d (List.mem_cons_of_mem _ hd))

theorem simplifyEntries_rel {es : List (String × Code)}
    (h : ∀ c ∈ es.map (·.2), R c (c.simplify pool precision)) :
    List.Forall₂ (fun a b => a.1 = b.1 ∧ R a.2 b.2) es (simplifyEntries pool precision es) := by
  induction es with
  | nil => exact .nil
  | cons e es ih =>
    exact .cons ⟨rfl, h _ List.mem_cons_self⟩ (ih fun d hd => h d (List.mem_cons_of_mem _ hd))

theorem simplifyOption_rel {o : Option Code} (h : ∀ c ∈ o.toList, R c (c.simplify pool precision)) :
    Option.Rel R o (simplifyOption pool precision o) := by
  cases o with
  | none => exact .none
  | some c => exact .some (h c List.mem_cons_self)

theorem simplifyDomain_rel {d : Domain Code} (h : ∀ c ∈ d.cells, R c (c.simplify pool precision)) :
    d.Rel R (simplifyDomain pool precision d) := by
  cases d with
  | values c => exact .values (h c (by simp [Domain.cells]))
  | steps f l cursor s p =>
    exact .steps cursor (h f (by simp [Domain.cells])) (h l (by simp [Domain.cells]))
      (h s (by simp [Domain.cells])) (h p (by simp [Domain.cells]))

theorem simplifyBindings_rel {bs : List (Binding Code)}
    (h : ∀ c ∈ bs.flatMap (·.domain.cells), R c (c.simplify pool precision)) :
    List.Forall₂ (Binding.Rel R) bs (simplifyBindings pool precision bs) := by
  induction bs with
  | nil => exact .nil
  | cons b bs ih =>
    obtain ⟨n, d⟩ := b
    rw [List.flatMap_cons] at h
    exact .cons ⟨rfl, simplifyDomain_rel fun c hc => h c (List.mem_append_left _ hc)⟩
      (ih fun c hc => h c (List.mem_append_right _ hc))

theorem simplifyRules_rel {rs : List (MatrixRule Code)}
    (h : ∀ c ∈ rs.flatMap (fun r => r.conditions ++ r.outputs), R c (c.simplify pool precision)) :
    List.Forall₂ (MatrixRule.Rel R) rs (simplifyRules pool precision rs) := by
  induction rs with
  | nil => exact .nil
  | cons r rs ih =>
    rw [List.flatMap_cons] at h
    refine .cons ⟨simplifyList_rel fun c hc => h c ?_, simplifyList_rel fun c hc => h c ?_⟩
      (ih fun c hc => h c (List.mem_append_right _ hc))
    · exact List.mem_append_left _ (List.mem_append_left _ hc)
    · exact List.mem_append_left _ (List.mem_append_right _ hc)

theorem simplifyOutputs_rel {os : List (MatrixOutput Code)}
    (h : ∀ c ∈ os.flatMap (fun o => o.check.toList ++ o.priorities ++ o.fallback.toList),
      R c (c.simplify pool precision)) :
    List.Forall₂ (MatrixOutput.Rel R) os (simplifyOutputs pool precision os) := by
  induction os with
  | nil => exact .nil
  | cons o os ih =>
    rw [List.flatMap_cons] at h
    refine .cons ⟨rfl, simplifyOption_rel fun c hc => h c ?_, simplifyList_rel fun c hc => h c ?_,
      simplifyOption_rel fun c hc => h c ?_⟩ (ih fun c hc => h c (List.mem_append_right _ hc))
    · exact List.mem_append_left _ (List.mem_append_left _ (List.mem_append_left _ hc))
    · exact List.mem_append_left _ (List.mem_append_left _ (List.mem_append_right _ hc))
    · exact List.mem_append_left _ (List.mem_append_right _ hc)

theorem simplifyMatrix_rel {t : DecisionMatrix Code}
    (h : ∀ c ∈ t.cells, R c (c.simplify pool precision)) :
    t.Rel R (simplifyMatrix pool precision t) := by
  obtain ⟨name, inputs, rules, outputs, policy, aggregation, single⟩ := t
  unfold DecisionMatrix.cells at h
  refine ⟨rfl, simplifyList_rel fun c hc => h c ?_, simplifyRules_rel fun c hc => h c ?_,
    simplifyOutputs_rel fun c hc => h c ?_, rfl, rfl, rfl⟩
  · exact List.mem_append_left _ (List.mem_append_left _ hc)
  · exact List.mem_append_left _ (List.mem_append_right _ hc)
  · exact List.mem_append_right _ hc

end Lists

/-! ### All forms -/

/-- Only a quotient of two numbers that meet at run time depends on the precision, and at the
default one it is what the simplifier computes. -/
theorem dynamicValue_eq {precision : Nat} {op : Operator}
    (h : op = .div → precision = Number.defaultPrecision) (x y : Value) :
    Action.dynamicValue precision op x y = Datum.dynamic op x y := by
  unfold Action.dynamicValue
  split
  · rw [h rfl]
    rfl
  · rfl

/-- What is asked of a quotient that is chosen by values: it is rounded to the default precision,
or it is left to the run. -/
def QuotientSound (m : Machine) : Code → Prop
  | dynamic .div l r =>
    m.precision = Number.defaultPrecision ∨
      (l.simplify m.constants m.precision).valueIn? m.constants = none ∨
      (r.simplify m.constants m.precision).valueIn? m.constants = none
  | _ => True

theorem quotientSound_of_precision {m : Machine} (hp : m.precision = Number.defaultPrecision)
    (c : Code) : c.QuotientSound m := by
  unfold QuotientSound
  split
  · exact .inl hp
  · trivial

/-- An operation without a known operand is left as it is. -/
theorem onConstants_of_none {pool : List Value} {f : Value → Value → Value} {l r whole : Code}
    (h : l.valueIn? pool = none ∨ r.valueIn? pool = none) :
    onConstants pool f l r whole = whole := by
  unfold onConstants
  split
  · next hl hr =>
    rcases h with h | h
    · rw [h] at hl
      cases hl
    · rw [h] at hr
      cases hr
  · rfl

/-- What is asked of every part of code that is to be simplified. -/
def Simplifiable (m : Machine) (c : Code) : Prop :=
  (∀ params body type, c ≠ function params body type) ∧ c.ShortCircuitSound m ∧ c.QuotientSound m

/-- The simplified form of a tree refines the tree. -/
theorem simplify_refines (m : Machine) (c : Code) (h : c.Everywhere (Simplifiable m)) :
    Code.Refines m m c (c.simplify m.constants m.precision) := by
  revert h
  -- the direct parts of a tree refine, hence so does the tree, form by form
  refine partsInduction (P := fun c => c.Everywhere (Simplifiable m) →
    Code.Refines m m c (c.simplify m.constants m.precision)) (fun c ih h => ?_) c
  have part : ∀ d ∈ c.children, Code.Refines m m d (d.simplify m.constants m.precision) :=
    fun d hd => ih d hd (h.part hd)
  have here := h.here
  clear ih h
  cases c with
  | const v => exact .refl _
  | constRef i => exact .refl _
  | input => exact .refl _
  | testInput => exact .refl _
  | «local» n => exact .refl _
  | inputField n => exact .refl _
  | member s n => exact .map _ (part s (.head _))
  | arith op mode l r nullCheck =>
    exact arith_refines_onConstants op mode nullCheck (part l (.head _))
      (part r (.tail _ (.head _)))
  | concat l r =>
    exact both_refines_onConstants (part l (.head _)) (part r (.tail _ (.head _)))
      (fun _ _ => rfl) rfl
  | temporal op l r =>
    exact both_refines_onConstants (part l (.head _)) (part r (.tail _ (.head _)))
      (fun _ _ => rfl) rfl
  | compare op mode l r =>
    exact both_refines_onConstants (part l (.head _)) (part r (.tail _ (.head _)))
      (fun _ _ => rfl) rfl
  | equal mode negated l r =>
    exact both_refines_onConstants (part l (.head _)) (part r (.tail _ (.head _)))
      (fun _ _ => rfl) rfl
  | logic op shortCircuit l r =>
    refine logic_refines_simplifyLogic op shortCircuit (part l (.head _))
      (part r (.tail _ (.head _))) fun hs c hc => ?_
    subst hs
    have sound : l.YieldsBoolean m ∧ r.YieldsBoolean m := here.2.1
    rcases List.mem_pair.mp hc with rfl | rfl
    · exact sound.1
    · exact sound.2
  | not c => exact map_refines_onConstant (part c (.head _)) rfl
  | negate c => exact map_refines_onConstant (part c (.head _)) rfl
  | dynamic op l r =>
    have hl := part l (.head _)
    have hr := part r (.tail _ (.head _))
    by_cases hquotient : op = .div → m.precision = Number.defaultPrecision
    · exact both_refines_onConstants hl hr (fun x y => dynamicValue_eq hquotient x y) rfl
    · rw [Classical.not_imp] at hquotient
      obtain ⟨rfl, hp⟩ := hquotient
      have hkept : (dynamic .div l r).simplify m.constants m.precision =
          dynamic .div (l.simplify m.constants m.precision) (r.simplify m.constants m.precision) :=
        onConstants_of_none (here.2.2.resolve_left hp)
      rw [hkept]
      exact .both _ hl hr
  | ite c y n =>
    exact ite_refines_branch (part c (by simp [children])) (part y (by simp [children]))
      (part n (by simp [children]))
  | list items => exact .list (denoteList_refines (simplifyList_rel part))
  | context es =>
    exact .context (denoteEntries_refines (simplifyEntries_rel part)) fun e _ => e.2.keeps_all
  | range s e si ei =>
    exact .range
      (denoteOption_refines (simplifyOption_rel fun d hd => part d (List.mem_append_left _ hd)))
      (denoteOption_refines (simplifyOption_rel fun d hd => part d (List.mem_append_right _ hd)))
      si ei
  | between v l h =>
    exact between_refines_simplifyBetween (part v (by simp [children]))
      (part l (by simp [children])) (part h (by simp [children]))
  | instanceOf v t => exact .map _ (part v (.head _))
  | filter s f kind =>
    exact Filter.run_refines (part s (.head _)) (Action.keeps_all _) (part f (.tail _ (.head _)))
      kind
  | forIn bs body =>
    exact Iteration.collect_refines
      (denoteBindings_refines (simplifyBindings_rel fun d hd => part d (List.mem_append_left _ hd)))
      (fun _ _ d _ => d.keeps_all) (part body (by simp [children]))
  | quantified every bs c =>
    exact Iteration.quantify_refines
      (denoteBindings_refines (simplifyBindings_rel fun d hd => part d (List.mem_append_left _ hd)))
      (fun _ _ d _ => d.keeps_all) (part c (by simp [children])) every
  | function ps body t => exact absurd rfl (here.1 ps body t)
  | call target args names =>
    cases target with
    | builtin name =>
      exact .call (.refl m) (.builtin name) (denoteList_refines (simplifyList_rel part)) names
    | value callee =>
      exact .call (.refl m) (.value (part callee (by simp [children])))
        (denoteList_refines (simplifyList_rel fun d hd => part d (List.mem_cons_of_mem _ hd)))
        names
  | convert v t => exact .map _ (part v (.head _))
  | unaryMatch t => exact .unaryMatch (part t (.head _))
  | listContains l v =>
    exact .both _ (part l (.head _)) (part v (.tail _ (.head _)))
  | rangeContains r v =>
    exact .both _ (part r (.head _)) (part v (.tail _ (.head _)))
  | withTestInput s b =>
    exact .withTestInput (part s (.head _)) (Action.keeps_all _) (part b (.tail _ (.head _)))
  | decision t => exact Decision.run_refines (denoteMatrix_refines (simplifyMatrix_rel part))

/-- Simplification keeps the value of every run that has one: code that defines no function,
and in which short-circuit is marked only on booleans, gives the same value over the same pool
and in the same frame once it is simplified. -/
theorem run_simplify_eq_ok (code : Code) (natives : Natives) (pool : List Value) (frame : Frame)
    (v : Value)
    (hf : code.Everywhere fun c => ∀ params body type, c ≠ function params body type)
    (hs : code.Everywhere
      (ShortCircuitSound (.ofPool natives pool Number.defaultPrecision)))
    (hv : code.run natives pool Number.defaultPrecision frame = .ok v) :
    (code.simplify pool Number.defaultPrecision).run natives pool Number.defaultPrecision frame =
      .ok v := by
  have h : code.Everywhere (Simplifiable (.ofPool natives pool Number.defaultPrecision)) :=
    hf.and (hs.and (everywhere_of_forall (quotientSound_of_precision rfl) code))
  exact simplify_refines (.ofPool natives pool Number.defaultPrecision) code h _ _ _ trivial hv

/-- A text joined from the pool, behind a condition that only the run decides, beside a branch
that could not be evaluated. -/
theorem run_simplify_guarded_concat :
    ((ite (logic .and true (instanceOf (inputField "x") (.number .number)) (const (.boolean true)))
        (concat (constRef 0) (const (.string "b"))) (constRef 7)).simplify
        [.string "a"] Number.defaultPrecision).run (fun _ _ => .null) [.string "a"]
      Number.defaultPrecision (.ofInput (.context [("x", .int 1)])) = .ok (.string "ab") := by
  apply run_simplify_eq_ok
  · exact .three
      (.two (.one (.leaf rfl (by simp)) rfl (by simp)) (.leaf rfl (by simp)) rfl (by simp))
      (.two (.leaf rfl (by simp)) (.leaf rfl (by simp)) rfl (by simp)) (.leaf rfl (by simp)) rfl
      (by simp)
  · have hlogic : ShortCircuitSound (.ofPool (fun _ _ => .null) [.string "a"] Number.defaultPrecision)
        (logic .and true (instanceOf (inputField "x") (.number .number)) (const (.boolean true))) := by
      refine ⟨fun site frame v hv => ?_, fun site frame v hv => ?_⟩
      · obtain ⟨x, _, hv⟩ := bind_eq_ok.mp hv
        exact ⟨_, (pure_eq_ok.mp hv).symm⟩
      · exact ⟨true, (Except.ok.inj hv).symm⟩
    exact .three (.two (.one (.leaf rfl (by trivial)) rfl (by trivial)) (.leaf rfl (by trivial)) rfl
      hlogic) (.two (.leaf rfl (by trivial)) (.leaf rfl (by trivial)) rfl (by trivial))
      (.leaf rfl (by trivial)) rfl (by trivial)
  · rfl

end Code

theorem Datum.ofNumber?_injective {κ : Type} :
    Function.Injective (Datum.ofNumber? : Option Number → Datum κ) := by
  intro a b h
  cases a <;> cases b <;> simp_all [Datum.ofNumber?]

namespace Code

/-- The operands of an operator that looks at both of them. A short-circuit connective does not:
its left operand may decide. -/
def operands? : Code → Option (Code × Code)
  | arith _ _ l r _ | concat l r | temporal _ l r | compare _ _ l r | equal _ _ l r
  | logic _ false l r | dynamic _ l r => some (l, r)
  | _ => none

/-- The value of an operator on the values of its operands. A quotient with a static type is
rounded to `precision` digits, and one that is chosen by its values to `ofValues`. -/
def operate (precision ofValues : Nat) : Code → Value → Value → Value
  | arith op mode _ _ _, v, w => v.arith op w mode precision
  | concat _ _, v, w => v.concat w
  | temporal op _ _, v, w => v.temporal op w
  | compare op mode _ _, v, w => v.compareAs op mode w
  | equal _ negated _ _, v, w => v.equality w negated
  | logic op _ _ _, v, w => v.logic op w
  | dynamic op _ _, v, w => Action.dynamicValue ofValues op v w
  | _, v, _ => v

section Constants

variable {pool : List Value} {c l r : Code} {v w : Value}

/-- An operation on constants is computed. -/
theorem onConstants_eq (hl : l.valueIn? pool = some v) (hr : r.valueIn? pool = some w)
    (f : Value → Value → Value) (whole : Code) :
    onConstants pool f l r whole = const (f v w) := by
  rw [onConstants, hl, hr]

/-- The simplifier rounds a quotient that is chosen by its values to the default precision. -/
theorem simplify_operator (precision : Nat) (h : c.operands? = some (l, r))
    (hl : l.valueIn? pool = some v) (hr : r.valueIn? pool = some w) :
    c.simplify pool precision = const (c.operate precision Number.defaultPrecision v w) := by
  have hsl := simplify_of_valueIn? hl precision
  have hsr := simplify_of_valueIn? hr precision
  cases c <;> simp only [operands?, reduceCtorEq, Option.some.injEq, Prod.mk.injEq] at h
  case logic op shortCircuit a b =>
    cases shortCircuit with
    | true => simp at h
    | false =>
      simp only [Option.some.injEq, Prod.mk.injEq] at h
      obtain ⟨rfl, rfl⟩ := h
      show simplifyLogic pool op false (a.simplify pool precision) (b.simplify pool precision) = _
      rw [hsl, hsr, simplifyLogic, hl, hr]
      rfl
  case dynamic op a b =>
    obtain ⟨rfl, rfl⟩ := h
    show onConstants pool _ (a.simplify pool precision) (b.simplify pool precision) _ = _
    rw [hsl, hsr, onConstants_eq hl hr, operate, dynamicValue_eq fun _ => rfl]
  all_goals
    obtain ⟨rfl, rfl⟩ := h
    show onConstants pool _ (simplify pool precision _) (simplify pool precision _) _ = _
    rw [hsl, hsr, onConstants_eq hl hr]
    rfl

/-- Both operands evaluated and combined. -/
theorem both_of_constants {m : Machine} (hl : l.valueIn? m.constants = some v)
    (hr : r.valueIn? m.constants = some w) (f : Value → Value → Value) (site : Site)
    (frame : Frame) : Action.both f (l.denote m) (r.denote m) site frame = .ok (f v w) := by
  rw [Action.both, denote_of_valueIn? hl, denote_of_valueIn? hr]
  rfl

/-- A null on the left that ends arithmetic early is what arithmetic gives. -/
theorem arith_of_constants {m : Machine} (hl : l.valueIn? m.constants = some v)
    (hr : r.valueIn? m.constants = some w) (op : Operator) (mode : NumericMode)
    (nullCheck : Bool) (site : Site) (frame : Frame) :
    Action.arith m op mode nullCheck (l.denote m) (r.denote m) site frame =
      .ok (v.arith op w mode m.precision) := by
  rw [Action.arith, denote_of_valueIn? hl, denote_of_valueIn? hr]
  show (if nullCheck && v.isNull then (.ok .null : Except EvalError Value) else .ok _) = _
  split
  · next hn =>
    have hnull : v.isNull = true := (Bool.and_eq_true _ _ ▸ hn).2
    cases v with
    | null => rfl
    | _ => simp [Datum.isNull] at hnull
  · rfl

/-- An operand that decides a connective gives what the table gives. -/
theorem logic_of_constants {m : Machine} (hl : l.valueIn? m.constants = some v)
    (hr : r.valueIn? m.constants = some w) (op : Operator) (site : Site) (frame : Frame) :
    Action.logic op false (l.denote m) (r.denote m) site frame = .ok (v.logic op w) := by
  rw [Action.logic, denote_of_valueIn? hl, denote_of_valueIn? hr]
  show (if v.isBool (op == .or) then Except.ok v else Except.ok (Datum.logic op v w)) = _
  split
  · next hd =>
    rw [logic_of_dominant op v w (.inl hd), isBool_iff.mp hd]
  · rfl

/-- A run rounds every quotient to its own precision. -/
theorem denote_operator {m : Machine} (h : c.operands? = some (l, r))
    (hl : l.valueIn? m.constants = some v) (hr : r.valueIn? m.constants = some w) (site : Site)
    (frame : Frame) :
    c.denote m site frame = .ok (c.operate m.precision m.precision v w) := by
  cases c <;> simp only [operands?, reduceCtorEq, Option.some.injEq, Prod.mk.injEq] at h
  case arith op mode a b nullCheck =>
    obtain ⟨rfl, rfl⟩ := h
    exact arith_of_constants hl hr op mode nullCheck site frame
  case logic op shortCircuit a b =>
    cases shortCircuit with
    | true => simp at h
    | false =>
      simp only [Option.some.injEq, Prod.mk.injEq] at h
      obtain ⟨rfl, rfl⟩ := h
      exact logic_of_constants hl hr op site frame
  all_goals
    obtain ⟨rfl, rfl⟩ := h
    exact both_of_constants hl hr _ site frame

/-- The precision of quotients that are chosen by their values shows in these only, and there
only where the quotients differ. -/
theorem operate_eq_iff {precision other : Nat} (h : c.operands? = some (l, r)) :
    c.operate precision other v w = c.operate precision precision v w ↔
      ∀ a b, c = dynamic .div l r → v = .number a → w = .number b →
        a.divide? b other = a.divide? b precision := by
  constructor
  · rintro heq a b rfl rfl rfl
    exact Datum.ofNumber?_injective heq
  · intro heq
    cases c with
    | dynamic op x y =>
      obtain ⟨rfl, rfl⟩ : x = l ∧ y = r := by simpa [operands?] using h
      show Action.dynamicValue other op v w = Action.dynamicValue precision op v w
      unfold Action.dynamicValue
      split
      · exact congrArg Datum.ofNumber? (heq _ _ rfl rfl rfl)
      · rfl
    | _ => rfl

end Constants

/-- **Constant operands, at every precision.** An operator on two constants is simplified to a
constant, and running it gives a value. The two are one value, digit for digit, unless the
operator is a quotient that is chosen by its values, both are numbers, and rounding their
quotient to the default precision and to the precision of the run gives different results. -/
theorem simplify_eq_run_iff {pool : List Value} {c l r : Code} {v w : Value}
    (h : c.operands? = some (l, r)) (hl : l.valueIn? pool = some v)
    (hr : r.valueIn? pool = some w) (precision : Nat) (natives : Natives) (frame : Frame) :
    ∃ simplified evaluated, c.simplify pool precision = const simplified ∧
      c.run natives pool precision frame = .ok evaluated ∧
      (simplified = evaluated ↔
        ∀ a b, c = dynamic .div l r → v = .number a → w = .number b →
          a.divide? b Number.defaultPrecision = a.divide? b precision) :=
  ⟨_, _, simplify_operator precision h hl hr,
    denote_operator (m := .ofPool natives pool precision) h hl hr [] frame, operate_eq_iff h⟩

/-- A third of one, chosen by its values: with five digits the simplifier and the run differ. -/
theorem simplify_ne_run_third :
    ∃ simplified evaluated,
      (dynamic .div (const (.int 1)) (constRef 0)).simplify [.int 3] 5 = const simplified ∧
      (dynamic .div (const (.int 1)) (constRef 0)).run (fun _ _ => .null) [.int 3] 5
        (.ofInput .null) = .ok evaluated ∧ simplified ≠ evaluated := by
  obtain ⟨simplified, evaluated, hs, he, hiff⟩ :=
    @simplify_eq_run_iff [.int 3] (dynamic .div (const (.int 1)) (constRef 0)) _ _ (.int 1)
      (.int 3) rfl rfl rfl 5 (fun _ _ => .null) (.ofInput .null)
  refine ⟨simplified, evaluated, hs, he, fun heq => ?_⟩
  have hquotients : Decimal.divide ⟨1, 0⟩ ⟨3, 0⟩ Number.defaultPrecision =
      Decimal.divide ⟨1, 0⟩ ⟨3, 0⟩ 5 :=
    Number.decimal.inj (Option.some.inj (hiff.mp heq _ _ rfl rfl rfl))
  exact absurd hquotients (by decide +kernel)

end Code

end Feel
