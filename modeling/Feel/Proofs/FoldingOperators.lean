import Feel.Fragment.OfTerm
import Feel.Proofs.ClosedLowering
import Feel.Proofs.ClosedRuns
import Feel.Proofs.LoweringPairs
import Feel.Proofs.PortableCode

/-!
# Operators with and without folding

The same expression is lowered twice, with and without folding, over two pools that grow side by
side. What is known of the two results is stated over every pool that comes later, and in frames
of closed values in the strict reading: there are no closures in sight, and every value is the
same as itself.

Without folding an operator is always code. With folding it is a known value where its operands
are known, or where one of them decides, or where both are the same code; and it is code over the
operands with folding otherwise. Code without closures gives the same value wherever it stands, so
that operands that follow one code have one value.

* `Frames.closed`: frames of closed values.
* `Machine.Over`: a machine that runs code over a pool.
* `Draft.Linked`: two drafts that were made side by side.
* `Code.WellMarked`, `Code.Foldable`: what is promised of the code without and with folding.
* `Fragment.Tracks`: the code with folding follows the code without.
* `Code.Follows.both`, `Code.Follows.logic`, `Code.Follows.arith`: code follows code where its
  parts do.
* `Code.Settles.both`, `Code.Settles.logic`: the value of code whose parts have one.
* `Code.Agree`: code whose values are equal.
* `Code.Portable.value_eq`, `Code.Follows.agree`: one code gives one value.
* `Outcome.Follows`: what a rule makes of an operator without and with folding.
* `Fragment.pairs_binary`: the fragments of an operator.
-/

namespace Feel

/-! ## Frames of closed values -/

/-- Frames of closed values. -/
@[reducible] def Frames.closed [Strictness] : Frames where
  Has := Frame.Closed
  Holds := Datum.Closed
  bind name hframe hv := hframe.bind name hv
  withTest hframe hv := hframe.withTest hv
  itemFrame hframe hv := hframe.itemFrame hv
  elements hv h := (Domain.elements_ends hv).holds h
  null := .null

attribute [local instance] Strictness.exact Frames.closed

/-- In a frame without closures nothing is renamed. -/
theorem Frame.Closed.rename_eq {frame : Frame} (h : frame.Closed) (R : Renaming) :
    frame.rename R = frame := by
  obtain ⟨input, testInput, locals⟩ := frame
  have htest : testInput.map (Datum.rename R) = testInput := by
    cases testInput with
    | none => rfl
    | some v => exact congrArg some ((h.testInput v rfl).rename_eq trivial R)
  have hlocals : Entries.rename R locals = locals := by
    rw [Entries.rename, List.map_congr_left fun e he => ?_, List.map_id']
    exact congrArg (Prod.mk e.1) ((h.locals e he).rename_eq trivial R)
  rw [Frame.rename, h.input.rename_eq trivial R, htest, hlocals]

/-! ## Lowering twice -/

/-- The same scope, with folding or without. -/
def Scope.withFolding (S : Scope) (folding : Bool) : Scope :=
  { S with options := S.options.withFolding folding }

/-- What a run is given beside a pool: the functions of a host, and the significant digits of
quotients. -/
structure Runtime where
  natives : Natives
  precision : Nat

/-- A machine with a pool that begins with `pool`. -/
structure Machine.Over (rt : Runtime) (pool : List Value) (m : Machine) : Prop where
  constants : pool <+: m.constants
  precision : m.precision = rt.precision
  call : m.call = Machine.invoke rt.natives rt.precision Machine.callLimit

namespace Machine.Over

variable {rt : Runtime} {pool pool' : List Value} {m n : Machine}

theorem similar (h : m.Over rt pool) (h' : n.Over rt pool') : m.Similar n :=
  ⟨h.precision.trans h'.precision.symm, h.call.trans h'.call.symm⟩

theorem shrink (h : m.Over rt pool') (hpool : pool <+: pool') : m.Over rt pool :=
  ⟨hpool.trans h.constants, h.precision, h.call⟩

theorem ofPool (rt : Runtime) (pool : List Value) :
    (Machine.ofPool rt.natives pool rt.precision).Over rt pool :=
  ⟨List.prefix_refl _, rfl, rfl⟩

end Machine.Over

/-! ### Drafts -/

/-- Two drafts that were made side by side, of values that are pooled. -/
structure Draft.Linked (K : Value → Prop) (d e : Draft) : Prop where
  locals : d.locals = e.locals
  left : ∀ v ∈ d.constants, Poolable K v
  right : ∀ v ∈ e.constants, Poolable K v

namespace Lowering.Pairs

variable {K : Value → Prop} {p q : List Value}

/-- Fresh locals have one name on both sides. -/
theorem fresh {name : String} {R : Relation String}
    (h : ∀ cursor p' q', p <+: p' → q <+: q' → R cursor cursor p' q') :
    Pairs (Draft.Linked K) p q (Lowering.fresh name) (Lowering.fresh name) Free R := by
  intro d e a d' b e' hlink hp hq hx hy
  cases hx
  cases hy
  refine ⟨List.prefix_refl _, List.prefix_refl _, fun _ => ⟨⟨?_, hlink.left, hlink.right⟩, ?_⟩⟩
  · exact congrArg (· + 1) hlink.locals
  · rw [hlink.locals]
    exact h _ _ _ hp hq

end Lowering.Pairs

/-! ### Code over a pool -/

namespace Code

/-- What is promised of arithmetic without a check: what is on the left is never null. The steps
of a domain need no promise, since their cursor is never null. -/
def NullCheckSound (m : Machine) : Code → Prop
  | arith _ _ (.local _) _ false => True
  | arith _ _ l _ false => ∀ site frame v, l.denote m site frame = .ok v → v ≠ .null
  | _ => True

/-- Code without closures, on a machine without closures, in which short-circuit is marked only on
booleans. -/
structure WellMarked (m : Machine) (c : Code) : Prop where
  machine : m.Closed
  closed : c.Closed m.constants.length
  marks : c.Everywhere (ShortCircuitSound m)

/-- Such code gives only values without closures. -/
theorem WellMarked.keeps {m : Machine} {c : Code} (h : c.WellMarked m) : (c.denote m).Keeps :=
  fun site frame _ hframe hv => (h.closed.denote h.machine site frame hframe).holds hv

/-- Code in which short-circuit is marked only on booleans, and null is left unchecked only where
there is none. -/
def Foldable (m : Machine) (c : Code) : Prop :=
  c.Everywhere fun c => ShortCircuitSound m c ∧ NullCheckSound m c

variable {rt : Runtime} {p q p' q' pool pool' : List Value} {c d : Code} {v : Value}

/-- The code gives a value, whatever it runs in. -/
def Loads (rt : Runtime) (pool : List Value) (c : Code) (v : Value) : Prop :=
  ∀ m : Machine, m.Over rt pool → ∀ site frame, c.denote m site frame = .ok v

/-- Whenever the code gives a value, it is `v`. -/
def Settles (rt : Runtime) (pool : List Value) (c : Code) (v : Value) : Prop :=
  ∀ m : Machine, m.Over rt pool → c.WellMarked m →
    ∀ site frame w, frame.Closed → c.denote m site frame = .ok w → w = v

/-- The second code succeeds wherever the first does, with the same value. -/
def Follows (rt : Runtime) (p q : List Value) (c d : Code) : Prop :=
  ∀ m n : Machine, m.Over rt p → n.Over rt q → c.WellMarked m → d.Foldable n →
    Code.Refines m n c d

theorem Loads.settles (h : c.Loads rt pool v) : c.Settles rt pool v := by
  intro m hm _ site frame w _ hw
  rw [h m hm site frame, Except.ok.injEq] at hw
  exact hw.symm

theorem Settles.extend (h : c.Settles rt pool v) (hpool : pool <+: pool') :
    c.Settles rt pool' v :=
  fun m hm => h m (hm.shrink hpool)

theorem Follows.extend (h : Follows rt p q c d) (hp : p <+: p') (hq : q <+: q') :
    Follows rt p' q' c d :=
  fun m n hm hn => h m n (hm.shrink hp) (hn.shrink hq)

/-- Code that loads a value follows code that gives no other. -/
theorem Loads.follows (h : d.Loads rt q v) (hc : c.Settles rt p v) : Follows rt p q c d := by
  intro m n hm hn hmarked _ site frame w hframe hw
  rw [hc m hm hmarked site frame w hframe hw]
  exact h n hn site frame

end Code

/-- An entry of the pool is loaded from every pool that comes later. -/
theorem Code.loads_constRef {rt : Runtime} {pool : List Value} {i : Nat} {v : Value}
    (h : pool[i]? = some v) : (Code.constRef i).Loads rt pool v := by
  intro m hm site frame
  obtain ⟨hlt, -⟩ := List.getElem?_eq_some_iff.mp h
  obtain ⟨more, hmore⟩ := hm.constants
  apply Code.denote_of_valueIn?
  rw [Code.valueIn?, ← hmore, List.getElem?_append_left hlt]
  exact h

/-- What the code of a constant does, over a pool of values that are told apart. -/
theorem Draft.constantCode_spec {K : Value → Prop} (hK : ApartInPool K) {d : Draft}
    (hd : ∀ v ∈ d.constants, Poolable K v) {v : Value}
    (hv : Draft.isInline v = false → Poolable K v) (rt : Runtime) :
    (d.constantCode v).2.locals = d.locals ∧
      (∀ w ∈ (d.constantCode v).2.constants, Poolable K w) ∧
      (d.constantCode v).1.Loads rt (d.constantCode v).2.constants v := by
  unfold Draft.constantCode
  split
  · exact ⟨rfl, hd, fun _ _ _ _ => rfl⟩
  · next hinline =>
    rw [Bool.not_eq_true] at hinline
    obtain ⟨-, hlocals, hpool, hplace⟩ := Draft.intern_spec hK hd (hv hinline)
    exact ⟨hlocals, hpool, Code.loads_constRef hplace⟩

/-- The code of a constant is no local. -/
theorem Draft.constantCode_local (d : Draft) (v : Value) (name : String) :
    (d.constantCode v).1 ≠ .local name := by
  unfold Draft.constantCode
  split <;> exact nofun

/-! ### Fragments -/

namespace Fragment

/-- The fragment with folding follows the one without: its code gives the same values, and so
does its constant, where it has one. -/
structure Tracks (rt : Runtime) (p q : List Value) (f g : Fragment) : Prop where
  runs : f.code.Follows rt p q g.code
  known : ∀ v, g.constant = some v → f.code.Settles rt p v
  /-- A local may be null. -/
  locals : ∀ name, g.code = .local name → g.nullable = true

variable {rt : Runtime} {p q p' q' : List Value} {f g : Fragment}

@[simp] theorem code_withNullable (f : Fragment) (b : Bool) : (f.withNullable b).code = f.code := by
  cases b <;> rfl

namespace Tracks

theorem extend (h : Tracks rt p q f g) (hp : p <+: p') (hq : q <+: q') :
    Tracks rt p' q' f g :=
  ⟨h.runs.extend hp hq, fun v hv => (h.known v hv).extend hp, h.locals⟩

/-- Fragments that are computed on both sides. -/
theorem computed {c d : Code} {t : Ty} (hruns : c.Follows rt p q d) :
    Tracks rt p q (computed c t) (computed d t) :=
  ⟨hruns, fun _ hv => (nomatch hv), fun _ _ => rfl⟩

/-- What the fragment without folding is marked with makes no difference. -/
theorem left (h : Tracks rt p q f g) (b : Bool) :
    Tracks rt p q (f.withNullable b) g := by
  cases b <;> exact ⟨h.runs, h.known, h.locals⟩

theorem right (h : Tracks rt p q f g) (hlocal : ∀ name, g.code ≠ .local name) (b : Bool) :
    Tracks rt p q f (g.withNullable b) := by
  cases b <;> exact ⟨h.runs, h.known, fun name hname => absurd hname (hlocal name)⟩

theorem nonNull (h : Tracks rt p q f g) (hlocal : ∀ name, g.code ≠ .local name) :
    Tracks rt p q f.nonNull g.nonNull :=
  (h.left false).right hlocal false

end Tracks

section Constants

variable {K : Value → Prop} (hK : ApartInPool K)
include hK

/-- A known value in place of code that gives no other. -/
theorem pairs_constant {v : Value} {t : Ty} (hsettles : f.code.Settles rt p v) :
    Lowering.Pairs (Draft.Linked K) p q (pure f) (ofConstant v t) (Granted K)
      fun f g p' q' => Tracks rt p' q' f g := by
  intro d e a d' b e' hlink hp hq hx hy
  cases hx
  rw [ofConstant_eq] at hy
  cases hy
  refine ⟨List.prefix_refl _, Draft.prefix_constantCode e v, fun hG => ?_⟩
  obtain ⟨hlocals, hpool, hloads⟩ := Draft.constantCode_spec hK hlink.right
    (fun hinline => .inl (hG v rfl hinline)) rt
  have hlocal := Draft.constantCode_local e v
  have hsettles := hsettles.extend hp
  refine ⟨⟨hlink.locals.trans hlocals.symm, hlink.left, hpool⟩, hloads.follows hsettles,
    fun w hw => ?_, fun name h => absurd h (hlocal name)⟩
  cases hw
  exact hsettles

/-- A value that is known on both sides. -/
theorem pairs_literal (v : Value) (t : Ty) :
    Lowering.Pairs (Draft.Linked K) p q (ofConstant v t) (ofConstant v t) (Granted K)
      fun f g p' q' => Tracks rt p' q' f g := by
  intro d e a d' b e' hlink hp hq hx hy
  rw [ofConstant_eq] at hx hy
  cases hx
  cases hy
  refine ⟨Draft.prefix_constantCode d v, Draft.prefix_constantCode e v, fun hG => ?_⟩
  have hv : Draft.isInline v = false → Poolable K v := fun hinline => .inl (hG v rfl hinline)
  obtain ⟨hlocals, hpool, hloads⟩ := Draft.constantCode_spec hK hlink.left hv rt
  obtain ⟨hlocals', hpool', hloads'⟩ := Draft.constantCode_spec hK hlink.right hv rt
  have hlocal := Draft.constantCode_local e v
  refine ⟨⟨hlocals.trans (hlink.locals.trans hlocals'.symm), hpool, hpool'⟩,
    hloads'.follows hloads.settles, fun w hw => ?_, fun name h => absurd h (hlocal name)⟩
  cases hw
  exact hloads.settles

end Constants

end Fragment

/-! ## Operators -/

namespace Code

/-! ### Forms with two parts -/

/-- The form runs two parts in order and combines their values. -/
structure IsBoth (mk : Code → Code → Code) (f : Machine → Value → Value → Value) : Prop where
  denote : ∀ m l r, (mk l r).denote m = Action.both (f m) (l.denote m) (r.denote m)
  children : ∀ l r, (mk l r).children = [l, r]

/-- The form runs one part and changes its value. -/
structure IsMap (mk : Code → Code) (f : Value → Value) : Prop where
  denote : ∀ m c, (mk c).denote m = Action.map f (c.denote m)
  children : ∀ c, (mk c).children = [c]

variable {rt : Runtime} {p q : List Value} {l r l' r' c d : Code} {a b v : Value}

theorem WellMarked.part {m : Machine} (h : c.WellMarked m) (hd : d ∈ c.children) :
    d.WellMarked m :=
  ⟨h.machine, h.closed.part hd, h.marks.part hd⟩

theorem Foldable.part {m : Machine} (h : c.Foldable m) (hd : d ∈ c.children) : d.Foldable m :=
  Everywhere.part h hd

/-- Two forms that combine values in one way; they may differ in what was known of them. -/
theorem Follows.both {mk mk' : Code → Code → Code} {f : Machine → Value → Value → Value}
    (h : IsBoth mk f) (h' : IsBoth mk' f) (hf : ∀ m n : Machine, m.Similar n → f m = f n)
    (hl : Follows rt p q l l') (hr : Follows rt p q r r') :
    Follows rt p q (mk l r) (mk' l' r') := by
  intro m n hm hn hmarked hfold
  have hl' := hl m n hm hn (hmarked.part (by simp [h.children]))
    (hfold.part (by simp [h'.children]))
  have hr' := hr m n hm hn (hmarked.part (by simp [h.children]))
    (hfold.part (by simp [h'.children]))
  rw [Code.Refines, h.denote, h'.denote, hf m n (hm.similar hn)]
  exact .both _ hl' hr'

theorem Settles.both {mk : Code → Code → Code} {f : Machine → Value → Value → Value}
    (h : IsBoth mk f) (hf : ∀ m : Machine, m.Over rt p → f m a b = v)
    (hl : l.Settles rt p a) (hr : r.Settles rt p b) : (mk l r).Settles rt p v := by
  intro m hm hmarked site frame w hframe hw
  rw [h.denote] at hw
  obtain ⟨x, hx, hw⟩ := bind_eq_ok.mp hw
  obtain ⟨y, hy, hw⟩ := bind_eq_ok.mp hw
  rw [← pure_eq_ok.mp hw, hl m hm (hmarked.part (by simp [h.children])) _ _ x hframe hx,
    hr m hm (hmarked.part (by simp [h.children])) _ _ y hframe hy]
  exact hf m hm

theorem Follows.map {mk : Code → Code} {f : Value → Value} (h : IsMap mk f)
    (hc : Follows rt p q c d) : Follows rt p q (mk c) (mk d) := by
  intro m n hm hn hmarked hfold
  rw [Code.Refines, h.denote, h.denote]
  exact .map _ (hc m n hm hn (hmarked.part (by simp [h.children]))
    (hfold.part (by simp [h.children])))

theorem Settles.map {mk : Code → Code} {f : Value → Value} (h : IsMap mk f)
    (hc : c.Settles rt p a) : (mk c).Settles rt p (f a) := by
  intro m hm hmarked site frame w hframe hw
  rw [h.denote] at hw
  obtain ⟨x, hx, hw⟩ := bind_eq_ok.mp hw
  rw [← pure_eq_ok.mp hw, hc m hm (hmarked.part (by simp [h.children])) _ _ x hframe hx]

theorem isBoth_concat : IsBoth concat fun _ => Datum.concat := ⟨fun _ _ _ => rfl, fun _ _ => rfl⟩

theorem isBoth_temporal (op : Operator) : IsBoth (temporal op) fun _ => Datum.temporal op :=
  ⟨fun _ _ _ => rfl, fun _ _ => rfl⟩

theorem isBoth_compare (op : Operator) (mode : CompareMode) :
    IsBoth (compare op mode) fun _ => Datum.compareAs op mode :=
  ⟨fun _ _ _ => rfl, fun _ _ => rfl⟩

theorem isBoth_equal (mode : EqualMode) (negated : Bool) :
    IsBoth (equal mode negated) fun _ a b => a.equality b negated :=
  ⟨fun _ _ _ => rfl, fun _ _ => rfl⟩

theorem isBoth_dynamic (op : Operator) :
    IsBoth (dynamic op) fun m => Action.dynamicValue m.precision op :=
  ⟨fun _ _ _ => rfl, fun _ _ => rfl⟩

/-! ### Logic -/

/-- The operands of a connective whose mark holds are booleans where it is marked. -/
theorem WellMarked.logic {m : Machine} {op : Operator} {shortCircuit : Bool}
    (h : ShortCircuitSound m (logic op shortCircuit l r)) :
    shortCircuit = true → ∀ act ∈ [l.denote m, r.denote m], ∀ site frame v,
      act site frame = .ok v → ∃ b, v = .boolean b := by
  rintro rfl
  obtain ⟨hl, hr⟩ : l.YieldsBoolean m ∧ r.YieldsBoolean m := h
  intro act hact
  rcases List.mem_pair.mp hact with rfl | rfl
  · exact hl
  · exact hr

/-- Connectives follow each other where their operands do, however they are marked. -/
theorem Follows.logic {op : Operator} {s s' : Bool} (hl : Follows rt p q l l')
    (hr : Follows rt p q r r') : Follows rt p q (logic op s l r) (logic op s' l' r') := by
  intro m n hm hn hmarked hfold site frame v hframe hv
  have hl' := hl m n hm hn (hmarked.part (by simp [children])) (hfold.part (by simp [children]))
  have hr' := hr m n hm hn (hmarked.part (by simp [children])) (hfold.part (by simp [children]))
  have hmark := WellMarked.logic hmarked.marks.here
  have hmark' := WellMarked.logic hfold.here.1
  obtain ⟨x, hx, hcases⟩ := logic_eq_ok hmark hv
  have hx' := hl' _ _ _ hframe hx
  -- the connective on the other side has a value, which is the one of the table
  rcases hcases with ⟨hdom, rfl⟩ | ⟨y, hy, rfl⟩
  · refine bind_eq_ok.mpr ⟨x, hx', ?_⟩
    rw [if_pos hdom, isBool_iff.mp hdom]
    rfl
  · have hy' := hr' _ _ _ hframe hy
    by_cases hdom : x.isBool (op == .or) = true
    · refine bind_eq_ok.mpr ⟨x, hx', ?_⟩
      rw [if_pos hdom, logic_of_dominant op x y (.inl hdom), isBool_iff.mp hdom]
      rfl
    · have hrun : (Code.logic op s' l' r').denote n site frame =
          .ok (if s' = true then y else Datum.logic op x y) := by
        refine bind_eq_ok.mpr ⟨x, hx', ?_⟩
        rw [if_neg hdom]
        exact bind_eq_ok.mpr ⟨y, hy', rfl⟩
      obtain ⟨x'', hx'', ⟨hd, -⟩ | ⟨y'', hy'', heq⟩⟩ := logic_eq_ok hmark' hrun
      · rw [hx', Except.ok.injEq] at hx''
        exact absurd (hx'' ▸ hd) hdom
      · rw [hx', Except.ok.injEq] at hx''
        rw [hy', Except.ok.injEq] at hy''
        rw [hrun, heq, ← hx'', ← hy'']

theorem Settles.logic {op : Operator} {s : Bool} (hl : l.Settles rt p a)
    (hr : r.Settles rt p b) : (logic op s l r).Settles rt p (Datum.logic op a b) := by
  intro m hm hmarked site frame w hframe hw
  obtain ⟨x, hx, hcases⟩ := logic_eq_ok (WellMarked.logic hmarked.marks.here) hw
  have hxa := hl m hm (hmarked.part (by simp [children])) _ _ x hframe hx
  subst hxa
  rcases hcases with ⟨hdom, rfl⟩ | ⟨y, hy, rfl⟩
  · rw [logic_of_dominant op x b (.inl hdom)]
  · rw [hr m hm (hmarked.part (by simp [children])) _ _ y hframe hy]

/-- An operand that is known to decide a connective settles it. -/
theorem Settles.dominated {op : Operator} {s : Bool}
    (h : l.Settles rt p (.boolean (op == .or)) ∨ r.Settles rt p (.boolean (op == .or))) :
    (Code.logic op s l r).Settles rt p (.boolean (op == .or)) := by
  intro m hm hmarked site frame w hframe hw
  obtain ⟨x, hx, ⟨-, rfl⟩ | ⟨y, hy, rfl⟩⟩ := logic_eq_ok (WellMarked.logic hmarked.marks.here) hw
  · rfl
  · apply logic_of_dominant
    rw [isBool_iff, isBool_iff]
    exact h.imp (fun h => h m hm (hmarked.part (by simp [children])) _ _ x hframe hx)
      fun h => h m hm (hmarked.part (by simp [children])) _ _ y hframe hy

/-! ### Arithmetic -/

/-- Null on the left gives null. -/
theorem arith_null (op : Operator) (y : Value) (mode : NumericMode) (precision : Nat) :
    Datum.arith op .null y mode precision = .null := rfl

theorem isNull_iff {v : Value} : v.isNull = true ↔ v = .null := by
  cases v <;> simp [Datum.isNull]

theorem Settles.arith {op : Operator} {mode : NumericMode} {check : Bool}
    (hl : l.Settles rt p a) (hr : r.Settles rt p b) :
    (arith op mode l r check).Settles rt p (a.arith op b mode rt.precision) := by
  intro m hm hmarked site frame w hframe hw
  obtain ⟨x, hx, hw⟩ := bind_eq_ok.mp hw
  have hxa := hl m hm (hmarked.part (by simp [children])) _ _ x hframe hx
  subst hxa
  split at hw
  · next hnull =>
    have hxnull : x = .null := isNull_iff.mp ((Bool.and_eq_true _ _).mp hnull).2
    rw [← pure_eq_ok.mp hw, hxnull, arith_null]
  · obtain ⟨y, hy, hw⟩ := bind_eq_ok.mp hw
    rw [← pure_eq_ok.mp hw, hr m hm (hmarked.part (by simp [children])) _ _ y hframe hy, hm.precision]

/-- Arithmetic follows arithmetic, if null on the left is checked or excluded. -/
theorem Follows.arith {op : Operator} {mode : NumericMode} {check check' : Bool}
    (hlocal : check' = false → ∀ name, l' ≠ .local name) (hl : Follows rt p q l l')
    (hr : Follows rt p q r r') :
    Follows rt p q (arith op mode l r check) (arith op mode l' r' check') := by
  intro m n hm hn hmarked hfold site frame v hframe hv
  have hl' := hl m n hm hn (hmarked.part (by simp [children])) (hfold.part (by simp [children]))
  have hr' := hr m n hm hn (hmarked.part (by simp [children])) (hfold.part (by simp [children]))
  obtain ⟨x, hx, hv⟩ := bind_eq_ok.mp hv
  have hx' := hl' _ _ _ hframe hx
  refine bind_eq_ok.mpr ⟨x, hx', ?_⟩
  by_cases hnull : x = .null
  · -- what is null on the left gives null on both sides, and the check is there to see it
    have hchecked : check' = true := by
      by_contra hcheck
      rw [Bool.not_eq_true] at hcheck
      subst hcheck
      have hsound : NullCheckSound n (.arith op mode l' r' false) := hfold.here.2
      cases l' with
      | «local» name => exact absurd rfl (hlocal rfl name)
      | _ => exact hsound _ _ _ hx' hnull
    subst hnull hchecked
    change pure Datum.null = Except.ok v
    split at hv
    · exact hv
    · obtain ⟨y, -, hv⟩ := bind_eq_ok.mp hv
      exact hv
  · have hnot : ∀ c : Bool, (c && x.isNull) ≠ true := by
      intro c hc
      exact hnull (isNull_iff.mp ((Bool.and_eq_true _ _).mp hc).2)
    rw [if_neg (hnot check)] at hv
    rw [if_neg (hnot check')]
    obtain ⟨y, hy, hv⟩ := bind_eq_ok.mp hv
    refine bind_eq_ok.mpr ⟨y, hr' _ _ _ hframe hy, ?_⟩
    rw [hn.precision, ← hm.precision]
    exact hv

/-! ### Code that is the same -/

/-- Two operands have equal values wherever both have one. -/
def Agree (rt : Runtime) (pool : List Value) (l r : Code) : Prop :=
  ∀ m : Machine, m.Over rt pool → l.WellMarked m → r.WellMarked m → ∀ site frame a b,
    frame.Closed → l.denote m (0 :: site) frame = .ok a →
      r.denote m (1 :: site) frame = .ok b → a.equal b = true

theorem Agree.settles {mode : EqualMode} {negated : Bool} (h : Agree rt p l r) :
    (equal mode negated l r).Settles rt p (.boolean !negated) := by
  intro m hm hmarked site frame w hframe hw
  obtain ⟨x, hx, hw⟩ := bind_eq_ok.mp hw
  obtain ⟨y, hy, hw⟩ := bind_eq_ok.mp hw
  rw [← pure_eq_ok.mp hw]
  change Datum.boolean (x.equal y != negated) = _
  rw [h m hm (hmarked.part (by simp [children])) (hmarked.part (by simp [children])) site frame x y
    hframe hx hy, Bool.true_bne]

/-- **Code without closures gives one value**, wherever it stands. -/
theorem Portable.value_eq {natives : Natives} (hnatives : natives.Uniform) {pool : List Value}
    (hpool : AllClosed pool) {precision : Nat} (hc : c.Portable) (hclosed : c.Closed pool.length)
    {frame : Frame} (hframe : frame.Closed) {site site' : Site}
    (ha : c.denote (.ofPool natives pool precision) site frame = .ok a)
    (hb : c.denote (.ofPool natives pool precision) site' frame = .ok b) : a = b := by
  have hmachine := Machine.ofPool_closed natives hpool precision
  -- one of the places is moved to the other, which changes neither the code nor the values
  have hmoved : ∀ (R : Renaming) {s t : Site} {v : Value}, (∀ x, R.cursor x = x) →
      R.Carries s t → c.denote (.ofPool natives pool precision) s frame = .ok v →
        (c.rename R).denote (.ofPool natives pool precision) t frame = .ok v := by
    intro R s t v hR hcarries hv
    have hfollows := (c.denote_follows (Machine.ofPool_follows hnatives R pool precision)) hcarries
      frame
    rw [hframe.rename_eq, hv, List.map_congr_left fun v hv => (hpool v hv).rename_eq trivial R,
      List.map_id'] at hfollows
    rw [hfollows]
    exact congrArg Except.ok
      (((hclosed.denote hmachine s frame hframe).holds hv).rename_eq trivial R)
  have hsame : ∀ R R' : Renaming, (∀ x, R.cursor x = x) → (∀ x, R'.cursor x = x) →
      c.rename R = c.rename R' := by
    intro R R' hR hR'
    exact hc.rename_congr (funext fun x => by rw [hR, hR'])
  have hcarried : ∀ (R : Renaming) {s t : Site} {v w : Value}, (∀ x, R.cursor x = x) →
      R.Carries s t → c.denote (.ofPool natives pool precision) s frame = .ok v →
        c.denote (.ofPool natives pool precision) t frame = .ok w → v = w := by
    intro R s t v w hR hcarries hv hw
    let I : Renaming := ⟨id, id, Function.injective_id⟩
    have hv := hmoved R hR hcarries hv
    rw [hsame R I hR fun _ => rfl, hmoved I (fun _ => rfl) (fun _ => rfl) hw] at hv
    exact (Except.ok.inj hv).symm
  obtain ⟨R, hR, hcarries | hcarries⟩ := Renaming.exists_carries site site'
  · exact hcarried R hR.cursor hcarries ha hb
  · exact (hcarried R hR.cursor hcarries hb ha).symm

/-- **Operands that follow one code have equal values.** -/
theorem Follows.agree (hnatives : rt.natives.Uniform) (hq : AllClosed q) (hc : c.Portable)
    (hclosed : c.Closed q.length) (hfold : c.Foldable (.ofPool rt.natives q rt.precision))
    (hl : Follows rt p q l c) (hr : Follows rt p q r c) : Agree rt p l r := by
  intro m hm hlm hrm site frame a b hframe ha hb
  have ha' := hl m _ hm (.ofPool rt q) hlm hfold _ _ _ hframe ha
  have hb' := hr m _ hm (.ofPool rt q) hrm hfold _ _ _ hframe hb
  obtain rfl := hc.value_eq hnatives hq hclosed hframe ha' hb'
  have hself := (hlm.keeps _ _ _ hframe ha).same_self trivial
  cases a <;> exact hself

end Code

/-! ### What a rule makes of an operator -/

/-- Operators whose rule depends on the types of the operands. -/
def Operator.looksAtTypes (op : Operator) : Bool := op.isArithmetic || op.isOrdering

/-- Equality and logic are the operators on operands of any type. -/
theorem Operator.looksAtTypes_eq (op : Operator) :
    op.looksAtTypes = !(op.isEquality || op.isLogic) := by
  cases op <;> rfl

namespace Outcome

variable {rt : Runtime} {p q : List Value} {f : Fragment} {y : Outcome}

/-- With folding a rule makes the value of a fragment, or a fragment that follows it. -/
def Tracks (rt : Runtime) (p q : List Value) (f : Fragment) : Outcome → Prop
  | value v _ => f.code.Settles rt p v
  | fragment g => Fragment.Tracks rt p q f g

/-- What the fragment without folding is marked with makes no difference. -/
theorem Tracks.left (h : y.Tracks rt p q f) (nullable : Bool) :
    y.Tracks rt p q (f.withNullable nullable) := by
  cases y with
  | value v t => cases nullable <;> exact h
  | fragment g => exact Fragment.Tracks.left h nullable

/-- Without folding a rule makes code, which is followed with folding. -/
def Follows (rt : Runtime) (p q : List Value) (x y : Outcome) : Prop :=
  ∃ f, x = .fragment f ∧ y.Tracks rt p q f

theorem Follows.emit {K : Value → Prop} (hK : ApartInPool K) {x : Outcome}
    (h : Follows rt p q x y) :
    Lowering.Pairs (Draft.Linked K) p q x.emit y.emit (Fragment.Granted K)
      fun f g p' q' => Fragment.Tracks rt p' q' f g := by
  obtain ⟨f, rfl, hy⟩ := h
  cases y with
  | value v t => exact Fragment.pairs_constant hK hy
  | fragment g => exact .pure fun p' q' hp hq _ => hy.extend hp hq

/-- Of values that are loaded without the pool nothing has to be granted. -/
theorem Follows.emit_inline {K : Value → Prop} (hK : ApartInPool K) {x : Outcome}
    (h : Follows rt p q x y) (hy : y.Inline) :
    Lowering.Pairs (Draft.Linked K) p q x.emit y.emit Lowering.Free
      fun f g p' q' => Fragment.Tracks rt p' q' f g :=
  hy.pairs (h.emit hK)

end Outcome

namespace Fragment

variable {rt : Runtime} {p q : List Value} {o : Options} {l r l' r' f : Fragment} {a b v : Value}

/-! ### Rules -/

/-- A fragment that is marked where a condition holds. -/
theorem ite_nonNull_computed (b : Bool) (code : Code) (type : Ty) :
    (if b then (computed code type).nonNull else computed code type) =
      (computed code type).withNullable !b := by
  cases b <;> rfl

/-- A connective of which nothing is known. -/
theorem connective_of_unknown {op : Operator} (hknown : operands? o l r = none)
    (hl : isDominant o op l = false) (hr : isDominant o op r = false) :
    connective o op l r =
      .fragment ((computed (.logic op (isProvenBoolean l && isProvenBoolean r) l.code r.code)
        .boolean).withNullable !(isProvenBoolean l && isProvenBoolean r)) := by
  rw [connective, hknown, ← ite_nonNull_computed]
  simp only [hl, hr, Bool.or_self, Bool.false_eq_true, if_false]

section Rules

variable (hl : Tracks rt p q l l') (hr : Tracks rt p q r r')
include hl hr

theorem equality_follows (op : Operator)
    (hsame : l'.code.same r'.code = true → l.code.Agree rt p r.code) :
    Outcome.Follows rt p q (equality (o.withFolding false) op l r)
      (equality (o.withFolding true) op l' r') := by
  refine ⟨_, rfl, .left ?_ false⟩
  unfold equality
  extract_lets negated
  split
  · next hfold => exact (hsame ((Bool.and_eq_true _ _).mp hfold).2).settles
  · split
    · next a b hknown =>
      obtain ⟨ha, hb⟩ := constants_of_operands? hknown
      exact .both (Code.isBoth_equal _ _) (fun _ _ => rfl) (hl.known a ha) (hr.known b hb)
    · have hruns := Code.Follows.both (Code.isBoth_equal (equalMode l r) negated)
        (Code.isBoth_equal (equalMode l' r') negated) (fun _ _ _ => rfl) hl.runs hr.runs
      exact (Tracks.computed hruns).right nofun false

/-- A connective looks at no types of its operands. -/
theorem connective_follows (op : Operator) :
    Outcome.Follows rt p q (connective (o.withFolding false) op l r)
      (connective (o.withFolding true) op l' r') := by
  have hdominant : ∀ {f g : Fragment}, Tracks rt p q f g →
      isDominant (o.withFolding true) op g = true →
      f.code.Settles rt p (.boolean (op == .or)) := by
    intro f g h hdom
    unfold isDominant at hdom
    cases hv : g.value? (o.withFolding true) with
    | none =>
      rw [hv] at hdom
      cases hdom
    | some v =>
      rw [hv] at hdom
      rw [← Code.isBool_iff.mp hdom]
      exact h.known v (constant_of_value? hv)
  refine ⟨_, connective_of_unknown rfl rfl rfl, .left ?_ _⟩
  unfold connective
  split
  · next a b hknown =>
    obtain ⟨ha, hb⟩ := constants_of_operands? hknown
    exact .logic (hl.known a ha) (hr.known b hb)
  · next hknown =>
    split
    · next hdom =>
      refine .dominated ?_
      exact ((Bool.or_eq_true _ _).mp hdom).imp (hdominant hl) (hdominant hr)
    · extract_lets shortCircuit whole
      have hwhole : Tracks rt p q
          (computed (.logic op (isProvenBoolean l && isProvenBoolean r) l.code r.code) .boolean)
          whole := .computed (.logic hl.runs hr.runs)
      split
      · exact hwhole.right nofun false
      · exact hwhole

theorem concatenation_follows :
    Outcome.Follows rt p q (concatenation (o.withFolding false) l r)
      (concatenation (o.withFolding true) l' r') := by
  refine ⟨_, rfl, .left ?_ _⟩
  unfold concatenation
  split
  · next a b hknown =>
    obtain ⟨ha, hb⟩ := constants_of_operands? hknown
    exact .both Code.isBoth_concat (fun _ _ => rfl) (hl.known a ha) (hr.known b hb)
  · have hruns := Code.Follows.both Code.isBoth_concat Code.isBoth_concat (fun _ _ _ => rfl)
      hl.runs hr.runs
    exact (Tracks.computed hruns).right nofun _

variable (htl : l'.type = l.type) (htr : r'.type = r.type)
include htl htr

theorem comparison_follows (op : Operator) :
    Outcome.Follows rt p q (comparison (o.withFolding false) op l r)
      (comparison (o.withFolding true) op l' r') := by
  refine ⟨_, congrArg Outcome.fragment (ite_nonNull_computed _ _ _), .left ?_ _⟩
  unfold comparison
  rw [htl, htr]
  extract_lets mode whole
  split
  · next a b hknown =>
    obtain ⟨ha, hb⟩ := constants_of_operands? hknown
    exact .both (Code.isBoth_compare _ _) (fun _ _ => rfl) (hl.known a ha) (hr.known b hb)
  · have hruns := Code.Follows.both (Code.isBoth_compare op mode) (Code.isBoth_compare op mode)
      (fun _ _ _ => rfl) hl.runs hr.runs
    rw [ite_nonNull_computed]
    exact (Tracks.computed hruns).right nofun _

theorem arithmetic_follows (op : Operator) (hprecision : o.precision = rt.precision) :
    Outcome.Follows rt p q (arithmetic (o.withFolding false) op l r)
      (arithmetic (o.withFolding true) op l' r') := by
  refine ⟨_, rfl, .left ?_ _⟩
  unfold arithmetic
  rw [htl, htr]
  extract_lets result mode check nullable
  split
  · next a b hknown =>
    obtain ⟨ha, hb⟩ := constants_of_operands? hknown
    have hsettles : (Code.arith op mode l.code r.code (l.nullable || r.nullable)).Settles rt p
        (a.arith op b mode rt.precision) := .arith (hl.known a ha) (hr.known b hb)
    rw [← hprecision] at hsettles
    exact hsettles
  · -- a local on the left may be null, so that it is checked
    have hlocal : check = false → ∀ name, l'.code ≠ .local name := by
      intro hcheck name hname
      rw [Bool.or_eq_false_iff] at hcheck
      rw [hl.locals name hname] at hcheck
      cases hcheck.1
    exact (Tracks.computed (.arith hlocal hl.runs hr.runs)).right nofun _

theorem temporal_follows (op : Operator) :
    Outcome.Follows rt p q (temporal (o.withFolding false) op l r)
      (temporal (o.withFolding true) op l' r') := by
  refine ⟨_, rfl, ?_⟩
  unfold temporal
  rw [htl, htr]
  extract_lets result
  split
  · next a b hknown =>
    obtain ⟨ha, hb⟩ := constants_of_operands? hknown
    exact .both (Code.isBoth_temporal op) (fun _ _ => rfl) (hl.known a ha) (hr.known b hb)
  · exact .computed (.both (Code.isBoth_temporal op) (Code.isBoth_temporal op) (fun _ _ _ => rfl)
      hl.runs hr.runs)

end Rules

/-! ### All operators -/

/-- Null is known on both sides. -/
theorem tracks_null : Tracks rt p q null null := by
  have hloads : ∀ pool, (Code.null).Loads rt pool .null := fun _ _ _ _ _ => rfl
  refine ⟨(hloads q).follows (hloads p).settles, fun v hv => ?_, nofun⟩
  cases hv
  exact (hloads p).settles

section Binary

variable (hl : Tracks rt p q l l') (hr : Tracks rt p q r r') (op : Operator)
  (htypes : op.looksAtTypes = true → l'.type = l.type ∧ r'.type = r.type)
  (hsame : op.isEquality = true → l'.code.same r'.code = true → l.code.Agree rt p r.code)
  (hprecision : o.precision = rt.precision)
include hl hr htypes hsame hprecision

/-- The rule is chosen by the operator and the types of the operands, so it is the same without
folding and with it. -/
theorem outcome?_follows :
    Option.Rel (Outcome.Follows rt p q) (outcome? (o.withFolding false) op l r)
      (outcome? (o.withFolding true) op l' r') := by
  by_cases hequality : op.isEquality = true
  · simp only [outcome?, hequality, if_true]
    exact .some (equality_follows hl hr op (hsame hequality))
  · by_cases hlogic : op.isLogic = true
    · simp only [outcome?, hequality, hlogic, if_true]
      exact .some (connective_follows hl hr op)
    · rw [Bool.not_eq_true] at hequality hlogic
      obtain ⟨htl, htr⟩ := htypes (by rw [op.looksAtTypes_eq, hequality, hlogic]; rfl)
      simp only [outcome?, hequality, hlogic, htl, htr, Bool.false_eq_true, if_false]
      split
      · split
        · exact .some (comparison_follows hl hr htl htr op)
        · exact .none
      · split
        · exact .some (arithmetic_follows hl hr htl htr op hprecision)
        · split
          · exact .some (concatenation_follows hl hr)
          · split
            · exact .some (temporal_follows hl hr htl htr op)
            · exact .none

/-- An operator is lowered to fragments of which one follows the other. -/
theorem pairs_binary {K : Value → Prop} (hK : ApartInPool K) (span : Span) :
    Lowering.Pairs (Draft.Linked K) p q (binary (o.withFolding false) span op l r)
      (binary (o.withFolding true) span op l' r') (Granted K)
      fun f g p' q' => Tracks rt p' q' f g := by
  unfold binary
  obtain ⟨hx, hy⟩ | ⟨x, y, hx, hy, hxy⟩ := Option.Rel.cases
    (outcome?_follows (o := o) hl hr op htypes hsame hprecision)
  · rw [hx, hy]
    dsimp only
    -- only an operator that looks at types has no rule
    have hlooks : op.looksAtTypes = true := by
      cases op with
      | eq | ne | and | or => cases hx
      | _ => rfl
    obtain ⟨htl, htr⟩ := htypes hlooks
    rw [htl, htr]
    split
    · refine .pure fun p' q' hp hq _ => .computed ?_
      have hruns := Code.Follows.both (Code.isBoth_dynamic op) (Code.isBoth_dynamic op)
        (fun m n h => by rw [h.precision]) hl.runs hr.runs
      exact hruns.extend hp hq
    · split
      · exact .pure fun p' q' _ _ _ => tracks_null
      · exact .throw
  · rw [hx, hy]
    exact hxy.emit hK

end Binary

/-! ### Operators that are always lowered -/

/-- A disjunction asks nothing of the types of its operands. -/
theorem pairs_or {K : Value → Prop} (hK : ApartInPool K) (hl : Tracks rt p q l l')
    (hr : Tracks rt p q r r') (span : Span) :
    Lowering.Pairs (Draft.Linked K) p q (binary (o.withFolding false) span .or l r)
      (binary (o.withFolding true) span .or l' r') Lowering.Free
      fun f g p' q' => Tracks rt p' q' f g :=
  (connective_follows hl hr .or).emit_inline hK (connective_inline .or l' r')

/-- An equality asks nothing of the types of its operands. -/
theorem pairs_eq {K : Value → Prop} (hK : ApartInPool K) (hl : Tracks rt p q l l')
    (hr : Tracks rt p q r r')
    (hsame : l'.code.same r'.code = true → l.code.Agree rt p r.code) (span : Span) :
    Lowering.Pairs (Draft.Linked K) p q (binary (o.withFolding false) span .eq l r)
      (binary (o.withFolding true) span .eq l' r') Lowering.Free
      fun f g p' q' => Tracks rt p' q' f g :=
  (equality_follows hl hr .eq hsame).emit_inline hK (equality_inline .eq l' r')

end Fragment

end Feel
