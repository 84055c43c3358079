import Feel.Proofs.BuiltinTypes
import Feel.Proofs.Simplify

/-!
# The values of simplified code

What is known of the values of code once it has been simplified over the whole pool. There is
one law for each form of code that texts are lowered to: from what is known of the parts to what
is known of the whole. Parts that do not show in the value, such as the tests of filters and the
bodies of functions, may give anything.

* `Code.Gives`: every value that simplified code gives in a frame of a kind has a property.
* `Code.Gives.arith` and the laws beside it: one for each form.
* `Code.EntriesGive`, `Code.BindingsGive`: entries and bindings, each in the frames of those
  before it.
-/

namespace Feel

/-! ### The elements of filters -/

namespace Filter

/-- The elements that a filter runs over. -/
def items : Value → List Value
  | .list items => items
  | v => [v]

/-- The element at a position is an element, or null. -/
theorem element_mem (items : List Value) (position : Value) :
    element items position = .null ∨ element items position ∈ items := by
  unfold element
  split
  · exact .inl rfl
  · extract_lets p offset
    split
    · exact .inl rfl
    · split
      · exact .inl rfl
      · rw [List.getD_eq_getElem?_getD]
        cases hget : items[offset.toNat]? with
        | none => exact .inl rfl
        | some v => exact .inr (List.mem_of_getElem? hget)

/-- The elements that are kept were kept before or are among those that are tested. -/
theorem mem_of_select {test : Action} {site : Site} {frame : Frame} {i : Nat}
    {vs kept : List Value} {v : Value} (h : select test site frame i vs kept = .ok v) :
    ∃ items, v = .list items ∧ ∀ x ∈ items, x ∈ vs ∨ x ∈ kept := by
  induction vs generalizing i kept with
  | nil =>
    rw [select, Except.ok.injEq] at h
    exact ⟨kept.reverse, h.symm, fun x hx => .inr (List.mem_reverse.mp hx)⟩
  | cons w ws ih =>
    obtain ⟨answer, -, h⟩ := bind_eq_ok.mp h
    obtain ⟨items, rfl, hitems⟩ := ih h
    refine ⟨items, rfl, fun x hx => ?_⟩
    rcases hitems x hx with hx | hx
    · exact .inl (List.mem_cons_of_mem _ hx)
    · split at hx
      · rcases List.mem_cons.mp hx with rfl | hx
        · exact .inl List.mem_cons_self
        · exact .inr hx
      · exact .inr hx

end Filter

namespace Code

/-- Simplified over any pool that begins with `pool`, and run at the default precision, the code
gives values with a property in frames of a kind. -/
def Gives (pool : List Value) (Q : Frame → Prop) (c : Code) (P : Value → Prop) : Prop :=
  ∀ m : Machine, pool <+: m.constants → m.precision = Number.defaultPrecision →
    ∀ site frame v, Q frame →
      (c.simplify m.constants Number.defaultPrecision).denote m site frame = .ok v → P v

namespace Gives

variable {pool : List Value} {Q : Frame → Prop} {P P' R : Value → Prop} {c l r : Code}

/-- The pool may have more in it. -/
theorem extend {pool' : List Value} (h : c.Gives pool Q P) (hpool : pool <+: pool') :
    c.Gives pool' Q P :=
  fun m hm => h m (hpool.trans hm)

theorem imp (h : c.Gives pool Q P) (hP : ∀ v, P v → R v) : c.Gives pool Q R :=
  fun m hm hp site frame v hQ hv => hP v (h m hm hp site frame v hQ hv)

/-- What is known of every value is known of the values of all code. -/
theorem trivial (h : ∀ v, P v) : c.Gives pool Q P := fun _ _ _ _ _ v _ _ => h v

/-! ### Constants and names -/

theorem const {v : Value} (h : P v) : (Code.const v).Gives pool Q P := by
  intro m _ _ site frame w _ hw
  cases hw
  exact h

theorem constRef {i : Nat} {v : Value} (hi : pool[i]? = some v) (h : P v) :
    (Code.constRef i).Gives pool Q P := by
  intro m hm _ site frame w _ hw
  obtain ⟨more, hmore⟩ := hm
  obtain ⟨hlt, hget⟩ := List.getElem?_eq_some_iff.mp hi
  have hval : (Code.constRef i).valueIn? m.constants = some v := by
    rw [valueIn?, ← hmore, List.getElem?_append_left hlt]
    exact hi
  have hrun := denote_of_valueIn? hval site frame
  rw [Except.ok.inj (hw.symm.trans hrun)]
  exact h

theorem testInput (h : ∀ frame, Q frame → P frame.tested) : Code.testInput.Gives pool Q P := by
  intro m _ _ site frame v hQ hv
  cases hv
  exact h frame hQ

theorem «local» {name : String} (h : ∀ frame, Q frame → P (frame.lookup name)) :
    (Code.local name).Gives pool Q P := by
  intro m _ _ site frame v hQ hv
  cases hv
  exact h frame hQ

theorem inputField {name : String}
    (h : ∀ frame, Q frame → P ((frame.input.get? name).getD .null)) :
    (Code.inputField name).Gives pool Q P := by
  intro m _ _ site frame v hQ hv
  cases hv
  exact h frame hQ

theorem function {params : List String} {body : Code} {type : Ty}
    (h : ∀ f, P (.function f)) : (Code.function params body type).Gives pool Q P := by
  intro m _ _ site frame v hQ hv
  cases hv
  exact h _

/-! ### Operators -/

/-- A constant operand has what is known of the operand. -/
theorem of_valueIn? {m : Machine} (h : c.Gives pool Q P) (hm : pool <+: m.constants)
    (hp : m.precision = Number.defaultPrecision) {frame : Frame} (hQ : Q frame) {v : Value}
    (hv : (c.simplify m.constants Number.defaultPrecision).valueIn? m.constants = some v) : P v :=
  h m hm hp [] frame v hQ (denote_of_valueIn? hv [] frame)

/-- Both operands are evaluated and combined, or were constants. -/
theorem both {w : Code → Code → Code} {f g : Value → Value → Value}
    (hwhole : ∀ m : Machine, m.precision = Number.defaultPrecision →
      ∀ l r, (w l r).denote m = Action.both f (l.denote m) (r.denote m))
    (hsimplify : ∀ pool, (w l r).simplify pool Number.defaultPrecision =
      onConstants pool g (l.simplify pool Number.defaultPrecision)
        (r.simplify pool Number.defaultPrecision)
        (w (l.simplify pool Number.defaultPrecision)
          (r.simplify pool Number.defaultPrecision)))
    (hl : l.Gives pool Q P) (hr : r.Gives pool Q P')
    (hf : ∀ x y, P x → P' y → R (f x y)) (hg : ∀ x y, P x → P' y → R (g x y)) :
    (w l r).Gives pool Q R := by
  intro m hm hp site frame v hQ hv
  rw [hsimplify, onConstants] at hv
  split at hv
  · next x y hx hy =>
    cases hv
    exact hg x y (hl.of_valueIn? hm hp hQ hx) (hr.of_valueIn? hm hp hQ hy)
  · rw [hwhole m hp] at hv
    obtain ⟨x, hx, hv⟩ := bind_eq_ok.mp hv
    obtain ⟨y, hy, hv⟩ := bind_eq_ok.mp hv
    rw [← pure_eq_ok.mp hv]
    exact hf x y (hl m hm hp _ _ x hQ hx) (hr m hm hp _ _ y hQ hy)

theorem concat (hl : l.Gives pool Q P) (hr : r.Gives pool Q P')
    (hf : ∀ x y, P x → P' y → R (Datum.concat x y)) : (Code.concat l r).Gives pool Q R :=
  both (fun _ _ _ _ => rfl) (fun _ => rfl) hl hr hf hf

theorem temporal {op : Operator} (hl : l.Gives pool Q P) (hr : r.Gives pool Q P')
    (hf : ∀ x y, P x → P' y → R (Datum.temporal op x y)) :
    (Code.temporal op l r).Gives pool Q R :=
  both (fun _ _ _ _ => rfl) (fun _ => rfl) hl hr hf hf

theorem compare {op : Operator} {mode : CompareMode} (hl : l.Gives pool Q P)
    (hr : r.Gives pool Q P') (hf : ∀ x y, P x → P' y → R (Datum.compareAs op mode x y)) :
    (Code.compare op mode l r).Gives pool Q R :=
  both (fun _ _ _ _ => rfl) (fun _ => rfl) hl hr hf hf

theorem equal {mode : EqualMode} {negated : Bool} (hR : ∀ b, R (.boolean b)) :
    (Code.equal mode negated l r).Gives pool Q R := by
  have hf : ∀ x y : Value, True → True → R (x.equality y negated) := fun x y _ _ => hR _
  exact both (fun _ _ _ _ => rfl) (fun _ => rfl) (trivial fun _ => .intro)
    (trivial fun _ => .intro) hf hf

theorem dynamic {op : Operator} (hl : l.Gives pool Q P) (hr : r.Gives pool Q P')
    (hf : ∀ x y, P x → P' y → R (Datum.dynamic op x y)) :
    (Code.dynamic op l r).Gives pool Q R := by
  have hwhole : ∀ m : Machine, m.precision = Number.defaultPrecision → ∀ l r,
      (Code.dynamic op l r).denote m =
        Action.both (Action.dynamicValue Number.defaultPrecision op) (l.denote m) (r.denote m) := by
    intro m hp l r
    rw [← hp]
    rfl
  refine both hwhole (fun _ => rfl) hl hr (fun x y hx hy => ?_) hf
  rw [dynamicValue_eq fun _ => rfl]
  exact hf x y hx hy

/-- Arithmetic; where the left operand is null, so is the value. -/
theorem arith {op : Operator} {mode : NumericMode} {nullCheck : Bool} (hl : l.Gives pool Q P)
    (hr : r.Gives pool Q P')
    (hf : ∀ x y, P x → P' y → R (x.arith op y mode Number.defaultPrecision))
    (hnull : P .null → R .null) : (Code.arith op mode l r nullCheck).Gives pool Q R := by
  intro m hm hp site frame v hQ hv
  change (onConstants m.constants _ (l.simplify _ _) (r.simplify _ _) _).denote _ _ _ = _ at hv
  unfold onConstants at hv
  split at hv
  · next x y hx hy =>
    cases hv
    exact hf x y (hl.of_valueIn? hm hp hQ hx) (hr.of_valueIn? hm hp hQ hy)
  · obtain ⟨x, hx, hv⟩ := bind_eq_ok.mp hv
    have hPx := hl m hm hp _ _ x hQ hx
    split at hv
    · next hcheck =>
      rw [← pure_eq_ok.mp hv]
      cases x with
      | null => exact hnull hPx
      | _ => simp [Datum.isNull] at hcheck
    · obtain ⟨y, hy, hv⟩ := bind_eq_ok.mp hv
      rw [← pure_eq_ok.mp hv, hp]
      exact hf x y hPx (hr m hm hp _ _ y hQ hy)

/-- Conjunction and disjunction: the right operand is the value only under short-circuit. -/
theorem logic {op : Operator} {shortCircuit : Bool} (hR : ∀ b, R (.boolean b))
    (hlogic : ∀ x y, R (Datum.logic op x y)) (hr : shortCircuit = true → r.Gives pool Q R) :
    (Code.logic op shortCircuit l r).Gives pool Q R := by
  intro m hm hp site frame v hQ hv
  change (simplifyLogic m.constants op shortCircuit _ _).denote _ _ _ = _ at hv
  rw [simplifyLogic] at hv
  split at hv
  · cases hv
    exact hlogic _ _
  · split at hv
    · cases hv
      exact hR _
    · obtain ⟨x, hx, hv⟩ := bind_eq_ok.mp hv
      split at hv
      · next hbool =>
        rw [← pure_eq_ok.mp hv, isBool_iff.mp hbool]
        exact hR _
      · obtain ⟨y, hy, hv⟩ := bind_eq_ok.mp hv
        rw [← pure_eq_ok.mp hv]
        split
        · next hshort => exact hr hshort m hm hp _ _ y hQ hy
        · exact hlogic x y

/-- One operand is evaluated and mapped, or was a constant. -/
theorem map {w : Code → Code} {f : Value → Value}
    (hwhole : ∀ m c, (w c).denote m = Action.map f (c.denote m))
    (hsimplify : ∀ pool, (w c).simplify pool Number.defaultPrecision =
      onConstant pool f (c.simplify pool Number.defaultPrecision)
        (w (c.simplify pool Number.defaultPrecision)))
    (hc : c.Gives pool Q P) (hf : ∀ x, P x → R (f x)) : (w c).Gives pool Q R := by
  intro m hm hp site frame v hQ hv
  rw [hsimplify, onConstant] at hv
  split at hv
  · next x hx =>
    cases hv
    exact hf x (hc.of_valueIn? hm hp hQ hx)
  · rw [hwhole] at hv
    obtain ⟨x, hx, hv⟩ := bind_eq_ok.mp hv
    rw [← pure_eq_ok.mp hv]
    exact hf x (hc m hm hp _ _ x hQ hx)

theorem not (hR : ∀ x : Value, R x.not) : (Code.not c).Gives pool Q R := by
  have hf : ∀ x : Value, True → R x.not := fun x _ => hR x
  exact map (fun _ _ => rfl) (fun _ => rfl) (trivial fun _ => .intro) hf

theorem negate (hc : c.Gives pool Q P) (hf : ∀ x, P x → R x.negate) :
    (Code.negate c).Gives pool Q R :=
  map (fun _ _ => rfl) (fun _ => rfl) hc hf

/-! ### Control -/

theorem ite {condition : Code} (hl : l.Gives pool Q P) (hr : r.Gives pool Q P) :
    (Code.ite condition l r).Gives pool Q P := by
  intro m hm hp site frame v hQ hv
  rw [simplify_ite] at hv
  split at hv
  · split at hv
    · exact hl m hm hp _ _ v hQ hv
    · exact hr m hm hp _ _ v hQ hv
  · obtain ⟨x, hx, hv⟩ := bind_eq_ok.mp hv
    split at hv
    · exact hl m hm hp _ _ v hQ hv
    · exact hr m hm hp _ _ v hQ hv

theorem between {value low high : Code} (hR : ∀ x y : Value, R (x.and y)) :
    (Code.between value low high).Gives pool Q R := by
  intro m hm hp site frame v hQ hv
  change (simplifyBetween m.constants _ _ _).denote _ _ _ = _ at hv
  unfold simplifyBetween at hv
  split at hv
  · cases hv
    exact hR _ _
  · obtain ⟨x, hx, hv⟩ := bind_eq_ok.mp hv
    obtain ⟨lo, hlo, hv⟩ := bind_eq_ok.mp hv
    obtain ⟨hi, hhi, hv⟩ := bind_eq_ok.mp hv
    rw [← pure_eq_ok.mp hv]
    exact hR _ _

/-- A form that maps the value of its only part and is not computed ahead. -/
theorem mapped {w : Code → Code} {f : Value → Value}
    (hwhole : ∀ m c, (w c).denote m = Action.map f (c.denote m))
    (hsimplify : ∀ pool, (w c).simplify pool Number.defaultPrecision =
      w (c.simplify pool Number.defaultPrecision))
    (hc : c.Gives pool Q P) (hf : ∀ x, P x → R (f x)) : (w c).Gives pool Q R := by
  intro m hm hp site frame v hQ hv
  rw [hsimplify, hwhole] at hv
  obtain ⟨x, hx, hv⟩ := bind_eq_ok.mp hv
  rw [← pure_eq_ok.mp hv]
  exact hf x (hc m hm hp _ _ x hQ hx)

theorem member {name : String} (hc : c.Gives pool Q P) (hf : ∀ x, P x → R (x.member name)) :
    (Code.member c name).Gives pool Q R := by
  refine mapped (w := fun c => Code.member c name) (fun _ _ => rfl) (fun _ => rfl) hc hf

theorem instanceOf {target : Ty} (hR : ∀ b, R (.boolean b)) :
    (Code.instanceOf c target).Gives pool Q R := by
  have hf : ∀ x : Value, True → R (.boolean (target.isInstance x)) := fun x _ => hR _
  refine mapped (w := fun c => Code.instanceOf c target) (fun _ _ => rfl) (fun _ => rfl)
    (trivial fun _ => .intro) hf

theorem convert {target : Ty} (hc : c.Gives pool Q P) (hf : ∀ x, P x → R (x.convert target)) :
    (Code.convert c target).Gives pool Q R := by
  refine mapped (w := fun c => Code.convert c target) (fun _ _ => rfl) (fun _ => rfl) hc hf

theorem unaryMatch (hR : ∀ x y : Value, R (Action.matchTest x y)) :
    (Code.unaryMatch c).Gives pool Q R := by
  intro m hm hp site frame v hQ hv
  obtain ⟨x, hx, hv⟩ := bind_eq_ok.mp hv
  rw [← pure_eq_ok.mp hv]
  exact hR _ _

theorem listContains (hR : ∀ x y : Value, R (Action.listContains x y)) :
    (Code.listContains l r).Gives pool Q R := by
  intro m hm hp site frame v hQ hv
  obtain ⟨x, hx, hv⟩ := bind_eq_ok.mp hv
  obtain ⟨y, hy, hv⟩ := bind_eq_ok.mp hv
  rw [← pure_eq_ok.mp hv]
  exact hR _ _

theorem rangeContains (hR : ∀ x y : Value, R (Action.rangeContains x y)) :
    (Code.rangeContains l r).Gives pool Q R := by
  intro m hm hp site frame v hQ hv
  obtain ⟨x, hx, hv⟩ := bind_eq_ok.mp hv
  obtain ⟨y, hy, hv⟩ := bind_eq_ok.mp hv
  rw [← pure_eq_ok.mp hv]
  exact hR _ _

/-- A body run on the value of a subject. -/
theorem withTestInput {Q' : Frame → Prop} (hl : l.Gives pool Q P) (hr : r.Gives pool Q' R)
    (hQ' : ∀ frame v, Q frame → P v → Q' (frame.withTest v)) :
    (Code.withTestInput l r).Gives pool Q R := by
  intro m hm hp site frame v hQ hv
  obtain ⟨x, hx, hv⟩ := bind_eq_ok.mp hv
  exact hr m hm hp _ _ v (hQ' frame x hQ (hl m hm hp _ _ x hQ hx)) hv

theorem quantified {every : Bool} {bindings : List (Binding Code)} (hR : ∀ b, R (.boolean b)) :
    (Code.quantified every bindings c).Gives pool Q R := by
  intro m hm hp site frame v hQ hv
  obtain ⟨out, -, hv⟩ := bind_eq_ok.mp hv
  rw [← pure_eq_ok.mp hv]
  exact hR _

/-! ### Structures -/

/-- Items that are run in order, each with what is known of it. -/
theorem all {cs : List Code} {Ps : List (Value → Prop)}
    (h : List.Forall₂ (fun c P => Code.Gives pool Q c P) cs Ps) {m : Machine}
    (hm : pool <+: m.constants) (hp : m.precision = Number.defaultPrecision) {site : Site}
    {frame : Frame} (hQ : Q frame) {i : Nat} {vs : List Value}
    (hvs : Action.all site frame i
      (denoteList m (simplifyList m.constants Number.defaultPrecision cs)) = .ok vs) :
    List.Forall₂ (fun v P => P v) vs Ps := by
  induction h generalizing i vs with
  | nil =>
    cases hvs
    exact .nil
  | cons hc _ ih =>
    obtain ⟨x, hx, hvs⟩ := bind_eq_ok.mp hvs
    obtain ⟨xs, hxs, hvs⟩ := bind_eq_ok.mp hvs
    rw [← pure_eq_ok.mp hvs]
    exact .cons (hc m hm hp _ _ x hQ hx) (ih hxs)

theorem list {cs : List Code} {Ps : List (Value → Prop)}
    (h : List.Forall₂ (fun c P => Code.Gives pool Q c P) cs Ps)
    (hR : ∀ vs, List.Forall₂ (fun v P => P v) vs Ps → R (.list vs)) :
    (Code.list cs).Gives pool Q R := by
  intro m hm hp site frame v hQ hv
  obtain ⟨vs, hvs, hv⟩ := bind_eq_ok.mp hv
  rw [← pure_eq_ok.mp hv]
  exact hR vs (all h hm hp hQ hvs)

/-- A range with both bounds. -/
theorem range {si ei : Bool} (hl : l.Gives pool Q P) (hr : r.Gives pool Q P')
    (hR : ∀ x y, P x → P' y → R (.range (some x) (some y) si ei)) :
    (Code.range (some l) (some r) si ei).Gives pool Q R := by
  intro m hm hp site frame v hQ hv
  obtain ⟨s, hs, hv⟩ := bind_eq_ok.mp hv
  obtain ⟨e, he, hv⟩ := bind_eq_ok.mp hv
  obtain ⟨x, hx, rfl⟩ := map_eq_ok.mp hs
  obtain ⟨y, hy, rfl⟩ := map_eq_ok.mp he
  rw [← pure_eq_ok.mp hv]
  exact hR x y (hl m hm hp _ _ x hQ hx) (hr m hm hp _ _ y hQ hy)

/-! ### Filters and calls -/

/-- A filter leaves an element, the elements it selects, or null. -/
theorem filter {source test : Code} {kind : FilterKind} {E : Value → Prop}
    (hs : source.Gives pool Q P) (hitems : ∀ v, P v → ∀ x ∈ Filter.items v, E x)
    (hnull : R .null) (helement : kind ≠ .predicate → ∀ x, E x → R x)
    (hselect : kind ≠ .index → ∀ items, (∀ x ∈ items, E x) → R (.list items)) :
    (Code.filter source test kind).Gives pool Q R := by
  intro m hm hp site frame v hQ hv
  obtain ⟨x, hx, hv⟩ := bind_eq_ok.mp hv
  extract_lets items at hv
  have hE : ∀ y ∈ items, E y := hitems x (hs m hm hp _ _ x hQ hx)
  have hselected : kind ≠ .index → ∀ {site : Site} {items : List Value},
      (∀ y ∈ items, E y) → ∀ {w : Value} {a : Action},
      Filter.select a site frame 0 items [] = .ok w → R w := by
    intro hkind site items hall w a hw
    obtain ⟨kept, rfl, hkept⟩ := Filter.mem_of_select hw
    refine hselect hkind kept fun y hy => ?_
    rcases hkept y hy with hy | hy
    · exact hall y hy
    · simp at hy
  have helem : kind ≠ .predicate → ∀ {items : List Value}, (∀ y ∈ items, E y) →
      ∀ position, R (Filter.element items position) := by
    intro hkind items hall position
    rcases Filter.element_mem items position with hnone | hmem
    · rw [hnone]
      exact hnull
    · exact helement hkind _ (hall _ hmem)
  split at hv
  · rw [← pure_eq_ok.mp hv]
    exact hnull
  · cases kind with
    | index =>
      obtain ⟨position, -, hv⟩ := bind_eq_ok.mp hv
      rw [← pure_eq_ok.mp hv]
      exact helem (by simp) hE position
    | predicate => exact hselected (by simp) hE hv
    | dynamic =>
      obtain ⟨answer, -, hv⟩ := bind_eq_ok.mp hv
      split at hv
      · rw [← pure_eq_ok.mp hv]
        exact helem (by simp) hE _
      · exact hselected (by simp) hE hv

/-- A call of a built-in function. -/
theorem builtin {name : String} {f : Builtin} {cs : List Code} {Ps : List (Value → Prop)}
    (hname : Builtin.ofName? name = some f)
    (h : List.Forall₂ (fun c P => Code.Gives pool Q c P) cs Ps)
    (hR : ∀ vs, List.Forall₂ (fun v P => P v) vs Ps →
      ∀ (invoke : FunctionValue → List Value → Except EvalError Value) v,
        f.apply vs Number.defaultPrecision invoke = .ok v → R v) :
    (Code.call (.builtin name) cs none).Gives pool Q R := by
  intro m hm hp site frame v hQ hv
  obtain ⟨vs, hvs, hv⟩ := bind_eq_ok.mp hv
  have hcall : (if f.inBounds vs then f.apply vs m.precision
      (fun g us => m.call (1 :: site) g us frame.input) else .error .sliceOutOfBounds) = .ok v := by
    change Action.callBuiltin name vs m.precision _ = _ at hv
    rw [Action.callBuiltin, hname] at hv
    exact hv
  have happly : f.apply vs m.precision
      (fun g us => m.call (1 :: site) g us frame.input) = .ok v := by
    split at hcall
    · exact hcall
    · cases hcall
  rw [hp] at happly
  exact hR vs (all h hm hp hQ hvs) _ v happly

end Gives

/-! ### Contexts -/

/-- Entries and their types, each in the frames that those before it lead to. -/
inductive EntriesGive (pool : List Value) :
    (Frame → Prop) → List (String × Code) → List (String × Ty) → Prop
  | nil (Q : Frame → Prop) : EntriesGive pool Q [] []
  | cons {Q Q' : Frame → Prop} {name : String} {c : Code} {t : Ty}
      {es : List (String × Code)} {fields : List (String × Ty)}
      (hc : c.Gives pool Q fun v => Fits v t)
      (hQ : ∀ frame v, Q frame → Fits v t → Q' (frame.bind name v))
      (hs : EntriesGive pool Q' es fields) :
      EntriesGive pool Q ((name, c) :: es) ((name, t) :: fields)

theorem EntriesGive.extend {pool pool' : List Value} {Q : Frame → Prop}
    {es : List (String × Code)} {fields : List (String × Ty)} (h : EntriesGive pool Q es fields)
    (hpool : pool <+: pool') : EntriesGive pool' Q es fields := by
  induction h with
  | nil Q => exact .nil Q
  | cons hc hQ _ ih => exact .cons (hc.extend hpool) hQ ih

end Code

/-- Writing an entry leaves the entries of other names. -/
theorem Entries.lookup_insert_of_ne {α : Type} {entries : List (String × α)}
    {name other : String} (h : other ≠ name) (value : α) :
    (Entries.insert entries name value).lookup other = entries.lookup other := by
  have hbeq : (other == name) = false := by simpa using h
  induction entries with
  | nil => simp [insert, List.lookup_cons, hbeq]
  | cons e entries ih =>
    obtain ⟨n, v⟩ := e
    rw [insert]
    split
    · next hn =>
      rw [List.lookup_cons, List.lookup_cons, hn, hbeq]
    · rw [List.lookup_cons, List.lookup_cons, ih]

namespace Code

/-- Every entry of a context is that of a part, or was there before. -/
theorem EntriesGive.lookup {pool : List Value} {Q : Frame → Prop} {es : List (String × Code)}
    {fields : List (String × Ty)} (h : EntriesGive pool Q es fields) {m : Machine}
    (hm : pool <+: m.constants) (hp : m.precision = Number.defaultPrecision) {site : Site}
    {i : Nat} {frame : Frame} (hQ : Q frame) {done out : List (String × Value)}
    (hout : Action.entries site i frame
      (denoteEntries m (simplifyEntries m.constants Number.defaultPrecision es)) done = .ok out)
    {name : String} {v : Value} (hv : out.lookup name = some v) :
    (∃ t, (name, t) ∈ fields ∧ Fits v t) ∨ done.lookup name = some v := by
  induction h generalizing i frame done with
  | nil =>
    cases hout
    exact .inr hv
  | @cons Q Q' other c t es fields hc hQ' _ ih =>
    obtain ⟨x, hx, hout⟩ := bind_eq_ok.mp hout
    have hfits := hc m hm hp _ _ x hQ hx
    rcases ih (hQ' frame x hQ hfits) hout with ⟨u, hu, hfit⟩ | hdone
    · exact .inl ⟨u, List.mem_cons_of_mem _ hu, hfit⟩
    · by_cases hname : name = other
      · rw [hname, Entries.lookup_insert_self, Option.some.injEq] at hdone
        rw [hname, ← hdone]
        exact .inl ⟨t, List.mem_cons_self, hfits⟩
      · rw [Entries.lookup_insert_of_ne hname] at hdone
        exact .inr hdone

/-- Fields of one name are of one type. -/
def OneTyped (fields : List (String × Ty)) : Prop :=
  ∀ name t u, (name, t) ∈ fields → (name, u) ∈ fields → t = u

/-- Entries that fit the types of their names make a context that fits. -/
theorem fits_context {fields : List (String × Ty)} (h : OneTyped fields)
    {entries : List (String × Value)}
    (hentries : ∀ name v, entries.lookup name = some v → ∃ t, (name, t) ∈ fields ∧ Fits v t) :
    Fits (.context entries) (.context fields) := by
  refine .context fun name t ht v hv => ?_
  obtain ⟨u, hu, hfits⟩ := hentries name v hv
  rw [h name t u ht hu]
  exact hfits

theorem Gives.context {pool : List Value} {Q : Frame → Prop} {es : List (String × Code)}
    {fields : List (String × Ty)} (h : EntriesGive pool Q es fields) (hnames : OneTyped fields) :
    (Code.context es).Gives pool Q fun v => Fits v (.context fields) := by
  intro m hm hp site frame v hQ hv
  obtain ⟨out, hout, hv⟩ := bind_eq_ok.mp hv
  rw [← pure_eq_ok.mp hv]
  refine fits_context hnames fun name x hx => ?_
  rcases h.lookup hm hp hQ hout hx with hfield | hnone
  · exact hfield
  · simp at hnone

/-! ### Iterations -/

/-- The elements of a domain fit a type. -/
def DomainGives (pool : List Value) (Q : Frame → Prop) (d : Domain Code) (t : Ty) : Prop :=
  ∀ m : Machine, pool <+: m.constants → m.precision = Number.defaultPrecision →
    ∀ site frame vs, Q frame →
      (denoteDomain m (simplifyDomain m.constants Number.defaultPrecision d)).run site frame =
        .ok vs → ∀ x ∈ vs, Fits x t

/-- Bindings, each in the frames that those before it lead to, and the frames of the body. -/
inductive BindingsGive (pool : List Value) :
    (Frame → Prop) → List (Binding Code) → (Frame → Prop) → Prop
  | nil (Q : Frame → Prop) : BindingsGive pool Q [] Q
  | cons {Q Q' Q'' : Frame → Prop} {name : String} {d : Domain Code} {t : Ty}
      {bs : List (Binding Code)} (hd : DomainGives pool Q d t)
      (hQ : ∀ frame v, Q frame → Fits v t → Q' (frame.bind name v))
      (hs : BindingsGive pool Q' bs Q'') : BindingsGive pool Q (⟨name, d⟩ :: bs) Q''

theorem DomainGives.extend {pool pool' : List Value} {Q : Frame → Prop} {d : Domain Code}
    {t : Ty} (h : DomainGives pool Q d t) (hpool : pool <+: pool') : DomainGives pool' Q d t :=
  fun m hm => h m (hpool.trans hm)

theorem BindingsGive.extend {pool pool' : List Value} {Q Q' : Frame → Prop}
    {bs : List (Binding Code)} (h : BindingsGive pool Q bs Q') (hpool : pool <+: pool') :
    BindingsGive pool' Q bs Q' := by
  induction h with
  | nil Q => exact .nil Q
  | cons hd hQ _ ih => exact .cons (hd.extend hpool) hQ ih

/-- The elements of a value. -/
theorem DomainGives.values {pool : List Value} {Q : Frame → Prop} {c : Code} {t : Ty}
    (hc : c.Gives pool Q fun v => Fits v t) : DomainGives pool Q (.values c) t.elementType := by
  intro m hm hp site frame vs hQ hvs x hx
  obtain ⟨v, hv, hvs⟩ := bind_eq_ok.mp hvs
  exact (hc m hm hp _ _ v hQ hv).elements hvs hx

end Code

/-- What holds of a first value and passes to each next one holds of all steps. -/
theorem Domain.stepsFrom_all {step : Nat → Value → Except EvalError Value} {last : Value}
    {direction : Ordering} {P : Value → Prop}
    (hstep : ∀ n v w, P v → step n v = .ok w → P w) {n : Nat} {current : Value}
    {before vs : List Value} (hcurrent : P current) (hbefore : ∀ x ∈ before, P x)
    (h : Domain.stepsFrom step last direction n current before = .ok vs) : ∀ x ∈ vs, P x := by
  induction n generalizing current before with
  | zero => contradiction
  | succ n ih =>
    have hdone : ∀ x ∈ current :: before, P x := by
      intro x hx
      rcases List.mem_cons.mp hx with rfl | hx
      · exact hcurrent
      · exact hbefore x hx
    have hreverse : ∀ x ∈ (current :: before).reverse, P x :=
      fun x hx => hdone x (List.mem_reverse.mp hx)
    rw [stepsFrom] at h
    split at h
    · obtain ⟨next, hnext, h⟩ := bind_eq_ok.mp h
      split at h
      · rw [← pure_eq_ok.mp h]
        exact hreverse
      · exact ih (hstep n current next hcurrent hnext) hdone h
    · rw [Except.ok.injEq] at h
      rw [← h]
      exact hreverse

namespace Code

/-- The steps from a first value on, where each next one is given in terms of the cursor. -/
theorem DomainGives.steps {pool : List Value} {Q : Frame → Prop} {first last : Code}
    {cursor : String} {successor predecessor : Code} {t : Ty}
    (hfirst : first.Gives pool Q fun v => Fits v t)
    (hsuccessor : successor.Gives pool (fun frame => Fits (frame.lookup cursor) t)
      fun v => Fits v t)
    (hpredecessor : predecessor.Gives pool (fun frame => Fits (frame.lookup cursor) t)
      fun v => Fits v t) :
    DomainGives pool Q (.steps first last cursor successor predecessor) t := by
  intro m hm hp site frame vs hQ hvs
  obtain ⟨v, hv, hvs⟩ := bind_eq_ok.mp hvs
  obtain ⟨w, hw, hvs⟩ := bind_eq_ok.mp hvs
  have hfits := hfirst m hm hp _ _ v hQ hv
  split at hvs
  · cases hvs
    simp
  · cases hvs
    intro x hx
    rw [List.mem_singleton.mp hx]
    exact hfits
  · refine Domain.stepsFrom_all (fun n x y hx hy => ?_) hfits (by simp) hvs
    have hcursor : Fits ((frame.bind cursor x).lookup cursor) t := by
      rw [Frame.lookup_bind_self]
      exact hx
    split at hy
    · exact hpredecessor m hm hp _ _ y hcursor hy
    · exact hsuccessor m hm hp _ _ y hcursor hy

end Code

/-- What each visit keeps is kept by the values of one name. -/
theorem Iteration.forEach_keeps {σ : Type} {name : String}
    {inner : Site → Frame → σ → Except EvalError (ForInStep σ)} {I : σ → Prop}
    {site : Site} {frame : Frame} {vs : List Value}
    (hinner : ∀ site x s out, x ∈ vs → I s → inner site (frame.bind name x) s = .ok out →
      I (Iteration.final out)) {i : Nat} {s : σ} (hs : I s) {out : ForInStep σ}
    (h : Iteration.forEach name inner site frame i vs s = .ok out) :
    I (Iteration.final out) := by
  induction vs generalizing i s with
  | nil =>
    cases h
    exact hs
  | cons v vs ih =>
    rw [forEach] at h
    split at h
    · next s' hv =>
      have hs' : I s' := hinner _ v s _ List.mem_cons_self hs hv
      exact ih (fun site x s out hx => hinner site x s out (List.mem_cons_of_mem _ hx)) hs' h
    · exact hinner _ v s out List.mem_cons_self hs h

namespace Code

/-- What each visit keeps is kept by the product of the bindings. -/
theorem BindingsGive.run_keeps {pool : List Value} {Q Q' : Frame → Prop}
    {bs : List (Binding Code)} (h : BindingsGive pool Q bs Q') {m : Machine}
    (hm : pool <+: m.constants) (hp : m.precision = Number.defaultPrecision) {σ : Type}
    {I : σ → Prop} {visit : Site → Frame → σ → Except EvalError (ForInStep σ)}
    (hvisit : ∀ site frame s out, Q' frame → I s → visit site frame s = .ok out →
      I (Iteration.final out)) {site : Site} {frame : Frame} {s : σ} (hQ : Q frame)
    (hs : I s) {out : ForInStep σ}
    (hrun : Iteration.run visit
      (denoteBindings m (simplifyBindings m.constants Number.defaultPrecision bs)) site frame s =
        .ok out) : I (Iteration.final out) := by
  induction h generalizing site frame s out with
  | nil => exact hvisit site frame s out hQ hs hrun
  | @cons Q Q₁ Q₂ name d t bs hd hQ₁ _ ih =>
    obtain ⟨vs, hvs, hrun⟩ := bind_eq_ok.mp hrun
    have hfits := hd m hm hp _ _ vs hQ hvs
    exact Iteration.forEach_keeps (I := I) (fun site x s out hx hs hout =>
      ih hvisit (hQ₁ frame x hQ (hfits x hx)) hs hout) hs hrun

/-- The values of a body over bindings. -/
theorem Gives.forIn {pool : List Value} {Q Q' : Frame → Prop} {bs : List (Binding Code)}
    {body : Code} {t : Ty} (h : BindingsGive pool Q bs Q')
    (hbody : body.Gives pool Q' fun v => Fits v t) :
    (Code.forIn bs body).Gives pool Q fun v => Fits v (.list t) := by
  intro m hm hp site frame v hQ hv
  obtain ⟨out, hout, hv⟩ := bind_eq_ok.mp hv
  rw [← pure_eq_ok.mp hv]
  have hall : ∀ x ∈ Iteration.final out, Fits x t := by
    refine h.run_keeps hm hp (I := fun vs => ∀ x ∈ vs, Fits x t) ?_ hQ (by simp) hout
    intro site frame vs out hQ' hvs hvisit
    obtain ⟨x, hx, hvisit⟩ := bind_eq_ok.mp hvisit
    rw [← pure_eq_ok.mp hvisit]
    intro y hy
    rcases List.mem_cons.mp hy with rfl | hy
    · exact hbody m hm hp _ _ _ hQ' hx
    · exact hvs y hy
  exact .list fun x hx => hall x (List.mem_reverse.mp hx)

end Code

end Feel
