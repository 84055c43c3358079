import Feel.Proofs.LoweringPairs
import Feel.Proofs.MovedCode
import Feel.Proofs.TypedTerms

/-!
# Expressions that are lowered in other programs

An expression is lowered in the same way whatever was lowered before it: over another pool it
becomes the same code, moved, and what is known of it does not change. Left out are expressions
that make functions or call function values, and values that another one can take the place of in
the pool.

* `ToldApart`: values that share a place with nothing but themselves.
* `Draft.Moved`: two drafts that gathered such values.
* `Fragment.Moved`: one fragment, over two pools.
* `Fragment.pairs_binaryMoved`: an operator on moved fragments is lowered to moved fragments.
-/

namespace Feel

/-! ### Drafts -/

/-- Values of a kind that share a place with themselves and with nothing else. -/
structure ToldApart (K : Value → Prop) : Prop where
  apart : ApartInPool K
  refl : ∀ v, K v → Draft.sharesPlace v v = true

theorem ToldApart.sharesPlace_self {K : Value → Prop} (hK : ToldApart K) {v : Value}
    (h : Poolable K v) : Draft.sharesPlace v v = true := by
  rcases h with h | ⟨f, rfl⟩
  · exact hK.refl v h
  · simp [Draft.sharesPlace, Datum.same, Function.same, Builtin.functionValue]

namespace Draft

/-- A draft that holds each of its values once. -/
structure Faithful (K : Value → Prop) (d : Draft) : Prop where
  poolable : ∀ v ∈ d.constants, Poolable K v
  nodup : d.constants.Nodup

/-- Two drafts of values that are told apart, whose cursors have numbers `shift` apart. -/
structure Moved (K : Value → Prop) (shift : Nat) (d e : Draft) : Prop where
  locals : e.locals = d.locals + shift
  left : d.Faithful K
  right : e.Faithful K

/-- A value is pooled once. -/
theorem Faithful.intern {K : Value → Prop} (hK : ToldApart K) {d : Draft} (hd : d.Faithful K)
    {v : Value} (hv : Poolable K v) :
    (d.intern v).2.Faithful K ∧ (d.intern v).2.locals = d.locals ∧
      (d.intern v).2.constants[(d.intern v).1]? = some v := by
  obtain ⟨-, hlocals, hpoolable, hplace⟩ := intern_spec hK.apart hd.poolable hv
  refine ⟨⟨hpoolable, ?_⟩, hlocals, hplace⟩
  unfold Draft.intern
  split
  · exact hd.nodup
  · next hnone =>
    refine List.nodup_append.mpr ⟨hd.nodup, List.pairwise_singleton _ v, fun w hw u hu heq => ?_⟩
    rw [List.mem_singleton] at hu
    subst hu heq
    have hshare := List.findIdx?_eq_none_iff.mp hnone w hw
    rw [hK.sharesPlace_self hv] at hshare
    cases hshare

/-- The code of a constant has the constant as its value. -/
theorem Faithful.constantCode {K : Value → Prop} (hK : ToldApart K) {d : Draft}
    (hd : d.Faithful K) {v : Value} (hv : isInline v = false → Poolable K v) :
    (d.constantCode v).2.Faithful K ∧ (d.constantCode v).2.locals = d.locals ∧
      (d.constantCode v).1.valueIn? (d.constantCode v).2.constants = some v := by
  unfold Draft.constantCode
  split
  · exact ⟨hd, rfl, rfl⟩
  · next hinline =>
    rw [Bool.not_eq_true] at hinline
    exact hd.intern hK (hv hinline)

/-- The code of a constant is moved code wherever it is made. -/
theorem constantCode_moved {d e : Draft} {v : Value} (shift : Nat)
    (hd : (d.constantCode v).1.valueIn? (d.constantCode v).2.constants = some v)
    (he : (e.constantCode v).1.valueIn? (e.constantCode v).2.constants = some v) :
    Code.Moved (d.constantCode v).2.constants (e.constantCode v).2.constants shift
      (d.constantCode v).1 (e.constantCode v).1 := by
  unfold Draft.constantCode at hd he ⊢
  split
  · exact .const v
  · next hinline =>
    simp only [hinline] at hd he
    exact .constRef hd he

end Draft

/-! ### Fragments -/

/-- A constant keeps its value as the pool grows. -/
theorem Code.valueIn?_extend {pool pool' : List Value} (h : pool <+: pool') {c : Code} {v : Value}
    (hc : c.valueIn? pool = some v) : c.valueIn? pool' = some v := by
  obtain ⟨more, rfl⟩ := h
  cases c with
  | constRef i =>
    obtain ⟨hlt, -⟩ := List.getElem?_eq_some_iff.mp hc
    have hget : (pool ++ more)[i]? = pool[i]? := List.getElem?_append_left hlt
    exact hget.trans hc
  | _ => exact hc

namespace Fragment

/-- One fragment over two pools: its code is moved, and what is known of it is the same. -/
structure Moved (p q : List Value) (shift : Nat) (f g : Fragment) : Prop where
  code : Code.Moved p q shift f.code g.code
  type : g.type = f.type
  constant : g.constant = f.constant
  nullable : g.nullable = f.nullable
  primitive : g.primitive = f.primitive
  /-- What is known is what the code loads. -/
  known : ∀ v, f.constant = some v → f.code.valueIn? p = some v

variable {p q p' q' : List Value} {shift : Nat} {f g : Fragment} {o : Options}

namespace Moved

theorem extend (h : Moved p q shift f g) (hp : p <+: p') (hq : q <+: q') :
    Moved p' q' shift f g :=
  ⟨h.code.extend hp hq, h.type, h.constant, h.nullable, h.primitive,
    fun v hv => Code.valueIn?_extend hp (h.known v hv)⟩

theorem computed {c d : Code} (h : Code.Moved p q shift c d) (t : Ty) :
    Moved p q shift (computed c t) (computed d t) :=
  ⟨h, rfl, rfl, rfl, rfl, nofun⟩

theorem nonNull (h : Moved p q shift f g) : Moved p q shift f.nonNull g.nonNull :=
  ⟨h.code, h.type, h.constant, rfl, congrArg isMachineType h.type, h.known⟩

theorem withNullable (h : Moved p q shift f g) (b : Bool) :
    Moved p q shift (f.withNullable b) (g.withNullable b) := by
  cases b with
  | true => exact ⟨h.code, h.type, h.constant, rfl, rfl, h.known⟩
  | false => exact h.nonNull

theorem withType (h : Moved p q shift f g) (t : Ty) :
    Moved p q shift { f with type := t } { g with type := t } :=
  ⟨h.code, rfl, h.constant, h.nullable, h.primitive, h.known⟩

theorem value?_eq (h : Moved p q shift f g) : g.value? o = f.value? o := by
  rw [value?, value?, h.constant]

theorem operands?_eq {l r l' r' : Fragment} (hl : Moved p q shift l l')
    (hr : Moved p q shift r r') : operands? o l' r' = operands? o l r := by
  rw [operands?, operands?, hl.value?_eq, hr.value?_eq]

theorem values?_eq {fs gs : List Fragment} (h : List.Forall₂ (Moved p q shift) fs gs) :
    values? o gs = values? o fs := by
  have hconstants : gs.mapM (·.constant) = fs.mapM (·.constant) := by
    induction h with
    | nil => rfl
    | cons hfg _ ih => rw [List.mapM_cons, List.mapM_cons, hfg.constant, ih]
  rw [values?, values?, hconstants]

theorem codes {fs gs : List Fragment} (h : List.Forall₂ (Moved p q shift) fs gs) :
    List.Forall₂ (Code.Moved p q shift) (fs.map (·.code)) (gs.map (·.code)) := by
  induction h with
  | nil => exact .nil
  | cons hfg _ ih => exact .cons hfg.code ih

theorem null : Moved p q shift .null .null := by
  refine ⟨.const _, rfl, rfl, rfl, rfl, fun v hv => ?_⟩
  cases hv
  rfl

end Moved

/-- A known value is lowered to moved code. -/
theorem pairs_ofConstant {K : Value → Prop} (hK : ToldApart K) (v : Value) (t : Ty) :
    Lowering.Pairs (Draft.Moved K shift) p q (ofConstant v t) (ofConstant v t) (Granted K)
      fun f g p' q' => Moved p' q' shift f g := by
  intro d e f d' g e' hlink _ _ hf hg
  rw [ofConstant_eq] at hf hg
  cases hf
  cases hg
  refine ⟨Draft.prefix_constantCode d v, Draft.prefix_constantCode e v, fun hG => ?_⟩
  have hv : Draft.isInline v = false → Poolable K v := fun hinline => .inl (hG v rfl hinline)
  obtain ⟨hleft, hlocals, hvalue⟩ := hlink.left.constantCode hK hv
  obtain ⟨hright, hlocals', hvalue'⟩ := hlink.right.constantCode hK hv
  refine ⟨⟨by rw [hlocals', hlocals, hlink.locals], hleft, hright⟩,
    Draft.constantCode_moved shift hvalue hvalue', rfl, rfl, rfl, rfl, fun w hw => ?_⟩
  cases hw
  exact hvalue

/-! ### Operators -/

/-- One outcome over two pools. -/
inductive OutcomeMoved (p q : List Value) (shift : Nat) : Outcome → Outcome → Prop
  | value (v : Value) (t : Ty) : OutcomeMoved p q shift (.value v t) (.value v t)
  | fragment {f g : Fragment} : Moved p q shift f g →
      OutcomeMoved p q shift (.fragment f) (.fragment g)

theorem OutcomeMoved.emit {K : Value → Prop} (hK : ToldApart K) {x y : Outcome}
    (h : OutcomeMoved p q shift x y) :
    Lowering.Pairs (Draft.Moved K shift) p q x.emit y.emit (Granted K)
      fun f g p' q' => Moved p' q' shift f g := by
  cases h with
  | value v t => exact pairs_ofConstant hK v t
  | fragment h => exact .pure fun _ _ hp hq _ => h.extend hp hq

section Rules

variable {l r l' r' : Fragment} (hl : Moved p q shift l l') (hr : Moved p q shift r r')
  (op : Operator)
include hl hr

theorem equality_moved (hp : p.Nodup) (hq : q.Nodup) :
    OutcomeMoved p q shift (equality o op l r) (equality o op l' r') := by
  have hmode : equalMode l' r' = equalMode l r := by
    rw [equalMode, equalMode, hl.type, hr.type, hl.primitive, hr.primitive]
  simp only [equality, hmode, hl.operands?_eq hr, ← hl.code.same_eq hp hq _ _ hr.code]
  split
  · exact .value _ _
  · split
    · exact .value _ _
    · exact .fragment (.nonNull (.computed (.equal _ _ hl.code hr.code) _))

theorem connective_moved :
    OutcomeMoved p q shift (connective o op l r) (connective o op l' r') := by
  have hdominant : ∀ {f g : Fragment}, Moved p q shift f g →
      isDominant o op g = isDominant o op f := fun h => by
    rw [isDominant, isDominant, h.value?_eq]
  have hproven : ∀ {f g : Fragment}, Moved p q shift f g →
      isProvenBoolean g = isProvenBoolean f := fun h => by
    rw [isProvenBoolean, isProvenBoolean, h.type, h.nullable]
  have hwhole : ∀ s, Moved p q shift (computed (.logic op s l.code r.code) .boolean)
      (computed (.logic op s l'.code r'.code) .boolean) :=
    fun s => .computed (.logic op s hl.code hr.code) _
  simp only [connective, hl.operands?_eq hr, hdominant hl, hdominant hr, hproven hl, hproven hr]
  split
  · exact .value _ _
  · split
    · exact .value _ _
    · split
      · exact .fragment (hwhole _).nonNull
      · exact .fragment (hwhole _)

theorem comparison_moved :
    OutcomeMoved p q shift (comparison o op l r) (comparison o op l' r') := by
  have hwhole : ∀ mode, Moved p q shift (computed (.compare op mode l.code r.code) .boolean)
      (computed (.compare op mode l'.code r'.code) .boolean) :=
    fun mode => .computed (.compare op mode hl.code hr.code) _
  simp only [comparison, hl.operands?_eq hr, hl.type, hr.type, hl.primitive, hr.primitive]
  split
  · exact .value _ _
  · split
    · exact .fragment (hwhole _).nonNull
    · exact .fragment (hwhole _)

theorem arithmetic_moved :
    OutcomeMoved p q shift (arithmetic o op l r) (arithmetic o op l' r') := by
  simp only [arithmetic, hl.operands?_eq hr, hl.type, hr.type, hl.nullable, hr.nullable]
  split
  · exact .value _ _
  · exact .fragment (.withNullable (.computed (.arith op _ _ hl.code hr.code) _) _)

theorem concatenation_moved :
    OutcomeMoved p q shift (concatenation o l r) (concatenation o l' r') := by
  simp only [concatenation, hl.operands?_eq hr, hl.nullable, hr.nullable]
  split
  · exact .value _ _
  · exact .fragment (.withNullable (.computed (.concat hl.code hr.code) _) _)

theorem temporal_moved : OutcomeMoved p q shift (temporal o op l r) (temporal o op l' r') := by
  simp only [temporal, hl.operands?_eq hr, hl.type, hr.type]
  split
  · exact .value _ _
  · exact .fragment (.computed (.temporal op hl.code hr.code) _)

/-- The rule is chosen by the operator and the types of the operands. -/
theorem outcome?_moved (hp : p.Nodup) (hq : q.Nodup) :
    Option.Rel (OutcomeMoved p q shift) (outcome? o op l r) (outcome? o op l' r') := by
  simp only [outcome?, hl.type, hr.type]
  split
  · exact .some (equality_moved hl hr op hp hq)
  · split
    · exact .some (connective_moved hl hr op)
    · split
      · split
        · exact .some (comparison_moved hl hr op)
        · exact .none
      · split
        · exact .some (arithmetic_moved hl hr op)
        · split
          · exact .some (concatenation_moved hl hr)
          · split
            · exact .some (temporal_moved hl hr op)
            · exact .none

/-- An operator on moved fragments is lowered to moved fragments. -/
theorem pairs_binaryMoved {K : Value → Prop} (hK : ToldApart K) (hp : p.Nodup) (hq : q.Nodup)
    (span : Span) :
    Lowering.Pairs (Draft.Moved K shift) p q (binary o span op l r) (binary o span op l' r')
      (Granted K) fun f g p' q' => Moved p' q' shift f g := by
  unfold binary
  obtain ⟨hx, hy⟩ | ⟨x, y, hx, hy, hxy⟩ := Option.Rel.cases
    (outcome?_moved (o := o) hl hr op hp hq)
  · rw [hx, hy]
    dsimp only
    rw [hl.type, hr.type]
    split
    · refine .pure fun p' q' hp' hq' _ => ?_
      exact (Moved.computed (.dynamic op hl.code hr.code) _).extend hp' hq'
    · split
      · exact .pure fun _ _ _ _ _ => .null
      · exact .throw
  · rw [hx, hy]
    exact hxy.emit hK

/-- A disjunction of moved fragments. -/
theorem pairs_orMoved {K : Value → Prop} (hK : ToldApart K) (span : Span) :
    Lowering.Pairs (Draft.Moved K shift) p q (binary o span .or l r) (binary o span .or l' r')
      Lowering.Free fun f g p' q' => Moved p' q' shift f g :=
  (connective_inline .or l' r').pairs ((connective_moved hl hr .or).emit hK)

/-- An equality of moved fragments. -/
theorem pairs_eqMoved {K : Value → Prop} (hK : ToldApart K) (hp : p.Nodup) (hq : q.Nodup)
    (span : Span) :
    Lowering.Pairs (Draft.Moved K shift) p q (binary o span .eq l r) (binary o span .eq l' r')
      Lowering.Free fun f g p' q' => Moved p' q' shift f g :=
  (equality_inline .eq l' r').pairs ((equality_moved hl hr .eq hp hq).emit hK)

end Rules

end Fragment

end Feel
