import Feel.Proofs.Simplify

/-!
# Code that needs no checks

Arithmetic looks for null unless it is told that neither operand can be null, and a connective
looks for values that are no booleans unless it is told that there are none. Code is guarded where
this is never told in vain: the operands of arithmetic that leaves out the check give no null, and
those of a connective that leaves out its own give booleans, whatever runs the code and whatever
it runs on. The steps of an iteration are the one place where this takes something of the frame: a
step adds to the cursor, which is not null where it runs.

* `Code.Yields`: the values of code over a pool, in frames of a kind.
* `Code.placed`: the parts of code, each with the cursor that is not null where it runs.
* `Code.Guarded`: arithmetic without a check never meets null, and a connective without one only
  booleans.
-/

namespace Feel

/-! ### Cursors -/

/-- The local, if one is given, is not null. -/
def Frame.Binds (cursor : Option String) (frame : Frame) : Prop :=
  ∀ name ∈ cursor, frame.lookup name ≠ .null

namespace Domain

/-- The cells of a domain, each with the cursor that is not null where it runs. -/
def placed {ε : Type} : Domain ε → List (Option String × ε)
  | values source => [(none, source)]
  | steps first last cursor successor predecessor =>
    [(none, first), (none, last), (some cursor, successor), (some cursor, predecessor)]

theorem map_placed {ε : Type} (d : Domain ε) : d.placed.map (·.2) = d.cells := by
  cases d <;> rfl

end Domain

namespace Code

/-! ### Values -/

/-- On every machine over a pool that begins with `pool`, and in every frame of a kind, the code
gives values with a property, if it gives any. -/
def Yields (pool : List Value) (Q : Frame → Prop) (c : Code) (P : Value → Prop) : Prop :=
  ∀ m : Machine, pool <+: m.constants → ∀ site frame v, Q frame →
    c.denote m site frame = .ok v → P v

namespace Yields

variable {pool : List Value} {Q : Frame → Prop} {P P' R : Value → Prop} {c l r : Code}

/-- The pool may have more in it. -/
theorem extend {pool' : List Value} (h : c.Yields pool Q P) (hpool : pool <+: pool') :
    c.Yields pool' Q P := fun m hm => h m (hpool.trans hm)

theorem imp (h : c.Yields pool Q P) (hP : ∀ v, P v → R v) : c.Yields pool Q R :=
  fun m hm site frame v hQ hv => hP v (h m hm site frame v hQ hv)

/-- What holds in all frames holds in those of a kind. -/
theorem anyFrame (h : c.Yields pool (fun _ => True) P) (Q : Frame → Prop) : c.Yields pool Q P :=
  fun m hm site frame v _ hv => h m hm site frame v trivial hv

theorem const {v : Value} (h : P v) : (Code.const v).Yields pool Q P := by
  intro m _ site frame w _ hw
  cases hw
  exact h

theorem constRef {i : Nat} {v : Value} (hi : pool[i]? = some v) (h : P v) :
    (Code.constRef i).Yields pool Q P := by
  intro m hm site frame w _ hw
  obtain ⟨more, hmore⟩ := hm
  obtain ⟨hlt, -⟩ := List.getElem?_eq_some_iff.mp hi
  have hval : (Code.constRef i).valueIn? m.constants = some v := by
    rw [valueIn?, ← hmore, List.getElem?_append_left hlt]
    exact hi
  cases (denote_of_valueIn? hval site frame).symm.trans hw
  exact h

theorem «local» {name : String} (h : ∀ frame, Q frame → P (frame.lookup name)) :
    (Code.local name).Yields pool Q P := by
  intro m _ site frame v hQ hv
  cases hv
  exact h frame hQ

/-- Code that runs two parts and combines their values. -/
theorem both {f : Value → Value → Value}
    (hc : ∀ m, c.denote m = Action.both f (l.denote m) (r.denote m)) (hl : l.Yields pool Q P)
    (hr : r.Yields pool Q P') (hf : ∀ x y, P x → P' y → R (f x y)) : c.Yields pool Q R := by
  intro m hm site frame v hQ hv
  rw [hc] at hv
  obtain ⟨x, hx, hv⟩ := bind_eq_ok.mp hv
  obtain ⟨y, hy, hv⟩ := bind_eq_ok.mp hv
  rw [← pure_eq_ok.mp hv]
  exact hf x y (hl m hm _ _ x hQ hx) (hr m hm _ _ y hQ hy)

/-- Code that runs a part and maps its value. -/
theorem map {f : Value → Value} (hc : ∀ m, c.denote m = Action.map f (l.denote m))
    (hl : l.Yields pool Q P) (hf : ∀ x, P x → R (f x)) : c.Yields pool Q R := by
  intro m hm site frame v hQ hv
  rw [hc] at hv
  obtain ⟨x, hx, hv⟩ := bind_eq_ok.mp hv
  rw [← pure_eq_ok.mp hv]
  exact hf x (hl m hm _ _ x hQ hx)

/-- Arithmetic on operands that are not null, whether it looks for null or not. -/
theorem arith {op : Operator} {mode : NumericMode} {nullCheck : Bool} (hl : l.Yields pool Q P)
    (hr : r.Yields pool Q P') (hnull : ∀ x, P x → x.isNull = false)
    (hf : ∀ x y precision, P x → P' y → R (x.arith op y mode precision)) :
    (Code.arith op mode l r nullCheck).Yields pool Q R := by
  intro m hm site frame v hQ hv
  obtain ⟨x, hx, hv⟩ := bind_eq_ok.mp hv
  have hPx := hl m hm _ _ x hQ hx
  rw [hnull x hPx, Bool.and_false, if_neg Bool.false_ne_true] at hv
  obtain ⟨y, hy, hv⟩ := bind_eq_ok.mp hv
  rw [← pure_eq_ok.mp hv]
  exact hf x y _ hPx (hr m hm _ _ y hQ hy)

/-- Under short-circuit the value is that of one of the operands. -/
theorem shortCircuit {op : Operator} (hl : l.Yields pool Q P) (hr : r.Yields pool Q P) :
    (Code.logic op true l r).Yields pool Q P := by
  intro m hm site frame v hQ hv
  obtain ⟨x, hx, hv⟩ := bind_eq_ok.mp hv
  split at hv
  · rw [← pure_eq_ok.mp hv]
    exact hl m hm _ _ x hQ hx
  · obtain ⟨y, hy, hv⟩ := bind_eq_ok.mp hv
    rw [← pure_eq_ok.mp hv]
    exact hr m hm _ _ y hQ hy

theorem ite {condition : Code} (hl : l.Yields pool Q P) (hr : r.Yields pool Q P) :
    (Code.ite condition l r).Yields pool Q P := by
  intro m hm site frame v hQ hv
  obtain ⟨x, hx, hv⟩ := bind_eq_ok.mp hv
  split at hv
  · exact hl m hm _ _ v hQ hv
  · exact hr m hm _ _ v hQ hv

/-! Forms whose values are all of one kind. -/

theorem list {cs : List Code} (h : ∀ vs, P (.list vs)) : (Code.list cs).Yields pool Q P := by
  intro m _ site frame v _ hv
  obtain ⟨vs, -, hv⟩ := bind_eq_ok.mp hv
  rw [← pure_eq_ok.mp hv]
  exact h vs

theorem context {es : List (String × Code)} (h : ∀ entries, P (.context entries)) :
    (Code.context es).Yields pool Q P := by
  intro m _ site frame v _ hv
  obtain ⟨entries, -, hv⟩ := bind_eq_ok.mp hv
  rw [← pure_eq_ok.mp hv]
  exact h entries

theorem range {s e : Option Code} {si ei : Bool} (h : ∀ a b, P (.range a b si ei)) :
    (Code.range s e si ei).Yields pool Q P := by
  intro m _ site frame v _ hv
  obtain ⟨a, -, hv⟩ := bind_eq_ok.mp hv
  obtain ⟨b, -, hv⟩ := bind_eq_ok.mp hv
  rw [← pure_eq_ok.mp hv]
  exact h a b

theorem forIn {bs : List (Binding Code)} {body : Code} (h : ∀ vs, P (.list vs)) :
    (Code.forIn bs body).Yields pool Q P := by
  intro m _ site frame v _ hv
  obtain ⟨vs, -, hv⟩ := bind_eq_ok.mp hv
  rw [← pure_eq_ok.mp hv]
  exact h _

theorem function {params : List String} {body : Code} {type : Ty}
    (h : ∀ f, P (.function f)) : (Code.function params body type).Yields pool Q P := by
  intro m _ site frame v _ hv
  cases hv
  exact h _

end Yields

/-! ### Unchecked operands -/

/-- The direct parts of a tree, in order, each with the cursor that is not null where it runs. -/
def placed : Code → List (Option String × Code)
  | forIn bs body => bs.flatMap (·.domain.placed) ++ [(none, body)]
  | quantified _ bs c => bs.flatMap (·.domain.placed) ++ [(none, c)]
  | c => c.children.map (none, ·)

theorem map_placed (c : Code) : c.placed.map (·.2) = c.children := by
  have hbindings (bs : List (Binding Code)) :
      (bs.flatMap (·.domain.placed)).map (·.2) = bs.flatMap (·.domain.cells) := by
    rw [List.map_flatMap]
    exact congrArg (bs.flatMap ·) (funext fun b => b.domain.map_placed)
  unfold placed
  split
  · simp only [List.map_append, hbindings, children, List.map_cons, List.map_nil]
  · simp only [List.map_append, hbindings, children, List.map_cons, List.map_nil]
  · simp [Function.comp_def]

/-- Arithmetic that leaves out the check for null, and connectives that leave out the check for
booleans. -/
def isUnchecked : Code → Bool
  | arith _ _ _ _ nullCheck => !nullCheck
  | logic _ shortCircuit _ _ => shortCircuit
  | _ => false

/-- The code gives booleans, if it gives any value. -/
abbrev YieldsBooleans (pool : List Value) (c : Code) : Prop :=
  c.Yields pool (fun _ => True) fun v => ∃ b, v = .boolean b

/-- The operands of arithmetic that leaves out the check for null give no null, and those of a
connective that leaves out the check for booleans give booleans, in this tree and in all trees in
it. Where a cursor is known not to be null, the cursor is on the left. -/
inductive Guarded (pool : List Value) : Option String → Code → Prop where
  | intro {cursor : Option String} {c : Code} :
    (∀ op mode l r, c = .arith op mode l r false →
      l.Yields pool (·.Binds cursor) (· ≠ .null) ∧ r.Yields pool (·.Binds cursor) (· ≠ .null) ∧
        ∀ name ∈ cursor, l = .local name) →
    (∀ op l r, c = .logic op true l r → l.YieldsBooleans pool ∧ r.YieldsBooleans pool) →
    (∀ p ∈ c.placed, Guarded pool p.1 p.2) → Guarded pool cursor c

namespace Guarded

variable {pool : List Value} {cursor : Option String} {c l r : Code}

theorem extend {pool' : List Value} (h : c.Guarded pool cursor) (hpool : pool <+: pool') :
    c.Guarded pool' cursor := by
  induction h with
  | intro harith hlogic _ ih =>
    refine .intro (fun op mode l r hc => ?_) (fun op l r hc => ?_) ih
    · obtain ⟨hl, hr, hcursor⟩ := harith op mode l r hc
      exact ⟨hl.extend hpool, hr.extend hpool, hcursor⟩
    · obtain ⟨hl, hr⟩ := hlogic op l r hc
      exact ⟨hl.extend hpool, hr.extend hpool⟩

/-- A form that leaves out no check and is no iteration. -/
theorem of_children (hplaced : c.placed = c.children.map (none, ·))
    (hchecked : c.isUnchecked = false) (h : ∀ d ∈ c.children, d.Guarded pool none) :
    c.Guarded pool cursor := by
  refine .intro (fun op mode l r hc => ?_) (fun op l r hc => ?_) ?_
  · rw [hc] at hchecked
    cases hchecked
  · rw [hc] at hchecked
    cases hchecked
  · rw [hplaced]
    exact List.forall_mem_map.mpr h

/-- Code without parts. -/
theorem leaf (h : c.children = []) : c.Guarded pool cursor := by
  have hplaced : c.placed = [] := by
    rw [← List.map_eq_nil_iff (f := (·.2)), map_placed, h]
  refine .intro (fun op mode l r hc => ?_) (fun op l r hc => ?_) (by simp [hplaced])
  · rw [hc] at h
    cases h
  · rw [hc] at h
    cases h

theorem arith {op : Operator} {mode : NumericMode} {nullCheck : Bool}
    (hl : l.Guarded pool none) (hr : r.Guarded pool none)
    (hunchecked : nullCheck = false → l.Yields pool (·.Binds cursor) (· ≠ .null) ∧
      r.Yields pool (·.Binds cursor) (· ≠ .null) ∧ ∀ name ∈ cursor, l = .local name) :
    (Code.arith op mode l r nullCheck).Guarded pool cursor := by
  refine .intro (fun op' mode' l' r' hc => ?_) nofun ?_
  · cases hc
    exact hunchecked rfl
  · exact List.forall_mem_cons.mpr ⟨hl, List.forall_mem_singleton.mpr hr⟩

theorem logic {op : Operator} {shortCircuit : Bool} (hl : l.Guarded pool none)
    (hr : r.Guarded pool none)
    (hunchecked : shortCircuit = true → l.YieldsBooleans pool ∧ r.YieldsBooleans pool) :
    (Code.logic op shortCircuit l r).Guarded pool cursor := by
  refine .intro nofun (fun op' l' r' hc => ?_) ?_
  · cases hc
    exact hunchecked rfl
  · exact List.forall_mem_cons.mpr ⟨hl, List.forall_mem_singleton.mpr hr⟩

section Iterations

variable {bs : List (Binding Code)} {body : Code}
  (hbs : ∀ b ∈ bs, ∀ p ∈ b.domain.placed, p.2.Guarded pool p.1) (hbody : body.Guarded pool none)
include hbs hbody

theorem placed_of_bindings :
    ∀ p ∈ bs.flatMap (·.domain.placed) ++ [(none, body)], p.2.Guarded pool p.1 := by
  refine List.forall_mem_append.mpr ⟨fun p hp => ?_, List.forall_mem_singleton.mpr hbody⟩
  obtain ⟨b, hb, hmem⟩ := List.mem_flatMap.mp hp
  exact hbs b hb p hmem

theorem forIn : (Code.forIn bs body).Guarded pool cursor :=
  .intro nofun nofun (placed_of_bindings hbs hbody)

theorem quantified (every : Bool) : (Code.quantified every bs body).Guarded pool cursor :=
  .intro nofun nofun (placed_of_bindings hbs hbody)

end Iterations

end Guarded

end Code

end Feel
