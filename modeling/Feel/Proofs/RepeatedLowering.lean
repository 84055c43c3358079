import Feel.Fragment.OfTable
import Feel.Proofs.Growth
import Feel.Proofs.MovedLowering
import Feel.Proofs.PortableCode
import Feel.Proofs.SteadyValues
import Feel.Proofs.TypedTerms

/-!
# Lowering once more

An expression that is lowered once more, over a pool in which all its constants are, finds each of
them at its place, so that it gets the same code but for the numbers of its cursors. This rests on
what is known of fragments: a value that is pooled is the same as itself. Literals that were read
from a text are, so that it holds of the terms of all parse trees, whatever functions their names
refer to.

* `Draft.intern_again`: a value that is pooled once more is found at its place.
* `Lowering.Again`: what a step leaves, and what the same step leaves in a later draft, with one
  law for each kind of step.
* `Fragment.Portable`: portable code, and a known value that the code loads.
* `Fragment.again_binary`: operators on renamed fragments.
* `Lower.Repeats`: a part that gives the same once more.
* `Lower.repeats_list` and the laws beside it: one for each form.
* `Term.SteadyLiteral`, `Term.Everywhere.repeats`: terms whose literals are the same as themselves.
* `Lowering.Extending`: steps that only add to a draft, and no closures.
* `Fragment.extending_ofExpression` and the laws beside it: texts and the parts of tables.
-/

namespace Feel

/-! ### Pools -/

/-- A value without closures: no renaming changes it. -/
def Datum.Unplaced (v : Value) : Prop := ∀ R : Renaming, v.rename R = v

theorem Datum.Plain.unplaced {v : Value} (h : v.Plain) : v.Unplaced := fun R => h.rename R

namespace Draft

theorem sharesPlace_self {v : Value} (h : v.same v = true) : sharesPlace v v = true := by
  rw [sharesPlace, h, beq_self_eq_true]
  rfl

/-- A value that was pooled shares its place with what is there. -/
theorem exists_sharesPlace {d : Draft} {v : Value} (h : v.same v = true) :
    ∃ w, (d.intern v).2.constants[(d.intern v).1]? = some w ∧ sharesPlace w v = true := by
  unfold intern
  split
  · next i hi =>
    obtain ⟨hlt, hshare, -⟩ := List.findIdx?_eq_some_iff_getElem.mp hi
    exact ⟨_, List.getElem?_eq_getElem hlt, hshare⟩
  · exact ⟨v, by simp, sharesPlace_self h⟩

/-- A value that is pooled once more is found at its place. -/
theorem intern_again {d e : Draft} {v : Value} (h : v.same v = true)
    (hpool : (d.intern v).2.constants <+: e.constants) : e.intern v = ((d.intern v).1, e) := by
  obtain ⟨more, hmore⟩ := hpool
  unfold intern at hmore ⊢
  cases hfound : d.constants.findIdx? (sharesPlace · v) with
  | some i =>
    rw [hfound] at hmore
    dsimp only at hmore ⊢
    rw [← hmore, List.findIdx?_append, hfound, Option.some_or]
  | none =>
    rw [hfound] at hmore
    dsimp only at hmore ⊢
    rw [← hmore, List.append_assoc, List.findIdx?_append, hfound, Option.none_or,
      List.singleton_append, List.findIdx?_cons, sharesPlace_self h]
    simp

/-- A draft that comes later: constants were added at the end, none of them with closures, and
cursors got numbers. -/
structure Extends (d d' : Draft) : Prop where
  constants : d.constants <+: d'.constants
  unplaced : ∀ v ∈ d'.constants, v ∈ d.constants ∨ v.Unplaced
  locals : d.locals ≤ d'.locals

namespace Extends

variable {d d' d'' : Draft}

theorem refl (d : Draft) : d.Extends d :=
  ⟨List.prefix_refl _, fun _ hv => .inl hv, Nat.le_refl _⟩

theorem trans (h : d.Extends d') (h' : d'.Extends d'') : d.Extends d'' :=
  ⟨h.constants.trans h'.constants, fun v hv => (h'.unplaced v hv).elim (h.unplaced v) .inr,
    Nat.le_trans h.locals h'.locals⟩

theorem intern (d : Draft) {v : Value} (hv : v.Unplaced) : d.Extends (d.intern v).2 := by
  unfold Draft.intern
  split
  · exact .refl d
  · refine ⟨List.prefix_append _ _, fun w hw => ?_, Nat.le_refl _⟩
    refine (List.mem_append.mp hw).imp_right fun hw => ?_
    rwa [List.mem_singleton.mp hw]

end Extends

end Draft

/-! ### Cursors -/

/-- The numbers of cursors become `k` higher. -/
structure Renaming.Shifts (R : Renaming) (k : Nat) : Prop where
  injective : Function.Injective R.cursor
  cursor : ∀ n, R.cursor (Draft.cursor n) = Draft.cursor (n + k)

theorem Renaming.exists_shifts (k : Nat) : ∃ R : Renaming, R.Shifts k := by
  classical
  let shift (s : String) : String :=
    if h : ∃ n, s = Draft.cursor n then Draft.cursor (h.choose + k) else s
  have hcursor (n : Nat) : shift (Draft.cursor n) = Draft.cursor (n + k) := by
    have h : ∃ m, Draft.cursor n = Draft.cursor m := ⟨n, rfl⟩
    show (if h : ∃ m, Draft.cursor n = Draft.cursor m then _ else _) = _
    rw [dif_pos h, ← Draft.cursor_injective h.choose_spec]
  have hother {s : String} (h : ¬ ∃ n, s = Draft.cursor n) : shift s = s := dif_neg h
  refine ⟨⟨id, shift, Function.injective_id⟩, fun s t heq => ?_, hcursor⟩
  have heq : shift s = shift t := heq
  by_cases hs : ∃ n, s = Draft.cursor n <;> by_cases ht : ∃ n, t = Draft.cursor n
  · obtain ⟨m, rfl⟩ := hs
    obtain ⟨n, rfl⟩ := ht
    rw [hcursor, hcursor] at heq
    rw [Nat.add_right_cancel (Draft.cursor_injective heq)]
  · obtain ⟨m, rfl⟩ := hs
    rw [hcursor, hother ht] at heq
    exact absurd ⟨_, heq.symm⟩ ht
  · obtain ⟨n, rfl⟩ := ht
    rw [hcursor, hother hs] at heq
    exact absurd ⟨_, heq⟩ hs
  · rwa [hother hs, hother ht] at heq

/-! ### Steps of lowering -/

namespace Lowering

variable {α α' β β' : Type}

/-- From a pool of which `pool` is the beginning a step leads to a later draft. What it gives has a
property over the pool that it leaves, and in every draft after it, whose cursors have numbers that
are `k` higher, another step pools nothing and gives the same, changed by `r`. -/
def Again (k : Nat) (pool : List Value) (x : Lowering α) (y : Lowering α') (r : α → α')
    (P : α → List Value → Prop) : Prop :=
  ∀ d a d', pool <+: d.constants → x d = .ok (a, d') → d.Extends d' ∧ P a d'.constants ∧
    ∀ e : Draft, d'.constants <+: e.constants → e.locals = d.locals + k →
      ∃ e', y e = .ok (r a, e') ∧ e'.constants = e.constants ∧ e'.locals = d'.locals + k

namespace Again

variable {k : Nat} {pool : List Value} {x : Lowering α} {y : Lowering α'} {r : α → α'}
  {P : α → List Value → Prop}

theorem pure {a : α} {b : α'} (hb : b = r a) (h : ∀ pool', pool <+: pool' → P a pool') :
    Again k pool (Pure.pure a) (Pure.pure b) r P := by
  intro d c d' hd hx
  cases hx
  subst hb
  exact ⟨.refl d, h _ hd, fun e _ hlocals => ⟨e, rfl, rfl, hlocals⟩⟩

theorem throw {e : CompileError} : Again k pool (throw e) y r P := by
  intro d a d' _ hx
  cases hx

theorem bind {r' : β → β'} {P' : β → List Value → Prop} {f : α → Lowering β}
    {g : α' → Lowering β'} (hx : Again k pool x y r P)
    (hf : ∀ a pool', pool <+: pool' → P a pool' → Again k pool' (f a) (g (r a)) r' P') :
    Again k pool (x >>= f) (y >>= g) r' P' := by
  intro d c d' hd hc
  obtain ⟨⟨a, mid⟩, ha, hc⟩ := bind_eq_ok.mp hc
  obtain ⟨hmid, hP, hagain⟩ := hx d a mid hd ha
  obtain ⟨hlast, hP', hagain'⟩ := hf a mid.constants (hd.trans hmid.constants) hP mid c d'
    (List.prefix_refl _) hc
  refine ⟨hmid.trans hlast, hP', fun e he hlocals => ?_⟩
  obtain ⟨e₁, he₁, hsame₁, hlocals₁⟩ := hagain e (hlast.constants.trans he) hlocals
  obtain ⟨e₂, he₂, hsame₂, hlocals₂⟩ := hagain' e₁ (hsame₁ ▸ he) hlocals₁
  exact ⟨e₂, bind_eq_ok.mpr ⟨_, he₁, he₂⟩, hsame₂.trans hsame₁, hlocals₂⟩

/-- Cursors get new numbers. -/
theorem fresh {R : Renaming} (hR : R.Shifts k) :
    Again k pool (Lowering.fresh "cursor") (Lowering.fresh "cursor") R.cursor fun _ _ => True := by
  intro d c d' _ hx
  cases hx
  refine ⟨⟨List.prefix_refl _, fun _ hv => .inl hv, Nat.le_succ _⟩, .intro, fun e _ hlocals => ?_⟩
  have hnumber : e.locals + 1 = d.locals + 1 + k := by omega
  have hcursor : R.cursor (Draft.cursor (d.locals + 1)) = Draft.cursor (e.locals + 1) := by
    rw [hR.cursor, hnumber]
  refine ⟨{ e with locals := e.locals + 1 }, ?_, rfl, hnumber⟩
  exact congrArg (fun c => Except.ok (c, { e with locals := e.locals + 1 })) hcursor.symm

/-- What is pooled is found again. -/
theorem intern {v : Value} (hsame : v.same v = true) (hv : v.Unplaced) :
    Again k pool (Lowering.intern v) (Lowering.intern v) id fun i pool' =>
      ∃ w, pool'[i]? = some w ∧ Draft.sharesPlace w v = true := by
  intro d i d' _ hx
  have hstep : d.intern v = (i, d') := Except.ok.inj hx
  obtain rfl : (d.intern v).1 = i := congrArg Prod.fst hstep
  obtain rfl : (d.intern v).2 = d' := congrArg Prod.snd hstep
  have hlocals : (d.intern v).2.locals = d.locals := by
    unfold Draft.intern
    split <;> rfl
  refine ⟨.intern d hv, Draft.exists_sharesPlace hsame, fun e he hlocals' => ⟨e, ?_, rfl, ?_⟩⟩
  · exact congrArg Except.ok (Draft.intern_again hsame he)
  · rw [hlocals', hlocals]

/-- The code of a constant is found again, and loads what shares its place. -/
theorem constantCode {R : Renaming} {v : Value} (hv : v.Steady) :
    Again k pool (Lowering.constantCode v) (Lowering.constantCode v) (Code.rename R) fun c pool' =>
      c.Portable ∧ ∃ w, c.valueIn? pool' = some w ∧ Draft.sharesPlace w v = true := by
  cases hinline : Draft.isInline v with
  | true =>
    have hstep : Lowering.constantCode v = Pure.pure (.const v) := by
      funext d
      show Except.ok (d.constantCode v) = _
      rw [Draft.constantCode, if_pos hinline]
      rfl
    rw [hstep]
    refine .pure ?_ fun pool' _ => ⟨Code.portable_iff.mpr ⟨hv.plain, ?_⟩, v, rfl, ?_⟩
    · exact congrArg Code.const (hv.plain.rename R).symm
    · exact List.forall_mem_nil _
    · exact Draft.sharesPlace_self hv.same_self
  | false =>
    have hstep : Lowering.constantCode v =
        (do let i ← Lowering.intern v; return Code.constRef i : Lowering Code) := by
      funext d
      show Except.ok (d.constantCode v) = _
      rw [Draft.constantCode, if_neg (by rw [hinline]; exact Bool.false_ne_true)]
      rfl
    rw [hstep]
    refine .bind (intern hv.same_self hv.plain.unplaced) fun i pool' _ hplace => ?_
    obtain ⟨w, hw, hshare⟩ := hplace
    refine .pure rfl fun pool'' hpool => ⟨Code.portable_iff.mpr ⟨trivial, ?_⟩, w, ?_, hshare⟩
    · exact List.forall_mem_nil _
    · exact Code.valueIn?_extend (c := .constRef i) hpool hw

end Again

end Lowering

/-! ### Fragments -/

namespace Fragment

open Lowering (Again)

/-- A fragment with the cursors of its code renamed. -/
def rename (S : Renaming) (f : Fragment) : Fragment := { f with code := f.code.rename S }

/-- Portable code, and a known value that is the same as itself and shares its place with what the
code loads. -/
structure Portable (pool : List Value) (f : Fragment) : Prop where
  code : f.code.Portable
  steady : ∀ v, f.constant = some v → v.Steady
  known : ∀ v, f.constant = some v →
    ∃ w, f.code.valueIn? pool = some w ∧ Draft.sharesPlace w v = true

variable {S : Renaming} {k : Nat} {pool pool' : List Value} {f l r : Fragment} {o : Options}

namespace Portable

theorem extend (h : f.Portable pool) (hpool : pool <+: pool') : f.Portable pool' := by
  refine ⟨h.code, h.steady, fun v hv => ?_⟩
  obtain ⟨w, hw, hshare⟩ := h.known v hv
  exact ⟨w, Code.valueIn?_extend hpool hw, hshare⟩

theorem computed {c : Code} (h : c.Portable) (t : Ty) : (Fragment.computed c t).Portable pool :=
  ⟨h, nofun, nofun⟩

theorem nonNull (h : f.Portable pool) : f.nonNull.Portable pool := ⟨h.code, h.steady, h.known⟩

theorem withNullable (h : f.Portable pool) (b : Bool) : (f.withNullable b).Portable pool := by
  cases b <;> exact ⟨h.code, h.steady, h.known⟩

theorem withType (h : f.Portable pool) (t : Ty) : Portable pool { f with type := t } :=
  ⟨h.code, h.steady, h.known⟩

theorem null : Fragment.null.Portable pool := by
  refine ⟨Code.portable_iff.mpr ⟨.null, fun _ hc => absurd hc List.not_mem_nil⟩, fun v hv => ?_,
    fun v hv => ?_⟩
  · cases hv
    exact .null
  · cases hv
    exact ⟨.null, rfl, Draft.sharesPlace_self Datum.Steady.null.same_self⟩

end Portable

theorem values?_rename (fs : List Fragment) :
    values? o (fs.map (rename S)) = values? o fs := by
  have hconstants : (fs.map (rename S)).mapM (·.constant) = fs.mapM (·.constant) := by
    induction fs with
    | nil => rfl
    | cons f fs ih =>
      rw [List.map_cons, List.mapM_cons, List.mapM_cons, ih]
      rfl
  rw [values?, values?, hconstants]

theorem steady_of_values? {fs : List Fragment} (h : ∀ f ∈ fs, f.Portable pool) {vs : List Value}
    (hvs : values? o fs = some vs) : ∀ v ∈ vs, v.Steady := by
  unfold values? at hvs
  split at hvs
  · induction fs generalizing vs with
    | nil =>
      cases hvs
      exact fun _ hv => absurd hv List.not_mem_nil
    | cons f fs ih =>
      rw [List.forall_mem_cons] at h
      rw [List.mapM_cons] at hvs
      obtain ⟨v, hv, hvs⟩ := Option.bind_eq_some_iff.mp hvs
      obtain ⟨ws, hws, hvs⟩ := Option.bind_eq_some_iff.mp hvs
      cases hvs
      exact List.forall_mem_cons.mpr ⟨h.1.steady v hv, ih h.2 hws⟩
  · cases hvs

/-- A known value is lowered once more to what it was lowered to. -/
theorem again_ofConstant {v : Value} (hv : v.Steady) (t : Ty) :
    Again k pool (ofConstant v t) (ofConstant v t) (rename S) fun f pool' => f.Portable pool' := by
  refine .bind (.constantCode hv) fun c pool' _ hc => .pure rfl fun pool'' hpool => ?_
  refine Portable.extend ⟨hc.1, fun w hw => ?_, fun w hw => ?_⟩ hpool
  · cases hw
    exact hv
  · cases hw
    exact hc.2

/-! ### Operators -/

end Fragment

namespace Outcome

/-- An outcome with the cursors of its code renamed. -/
def rename (S : Renaming) : Outcome → Outcome
  | value v t => value v t
  | fragment f => fragment (f.rename S)

/-- A value that is the same as itself, or a portable fragment. -/
def Portable (pool : List Value) : Outcome → Prop
  | value v _ => v.Steady
  | fragment f => f.Portable pool

theorem Portable.again {S : Renaming} {k : Nat} {pool : List Value} {x : Outcome}
    (h : x.Portable pool) :
    Lowering.Again k pool x.emit (x.rename S).emit (Fragment.rename S) fun f pool' =>
      f.Portable pool' := by
  cases x with
  | value v t => exact Fragment.again_ofConstant h t
  | fragment f => exact .pure rfl fun _ hpool => Fragment.Portable.extend h hpool

end Outcome

namespace Fragment

open Lowering (Again)

variable {S : Renaming} {k : Nat} {pool : List Value} {l r : Fragment} {o : Options}

section Rules

variable (hl : l.Portable pool) (hr : r.Portable pool) (op : Operator)
include hl hr

theorem equality_again (hS : Function.Injective S.cursor) :
    (equality o op l r).Portable pool ∧
      equality o op (l.rename S) (r.rename S) = (equality o op l r).rename S := by
  have hsame : (l.rename S).code.same (r.rename S).code = l.code.same r.code :=
    Code.Portable.same_rename hS hl.code hr.code
  have hoperands : operands? o (l.rename S) (r.rename S) = operands? o l r := rfl
  have hmode : equalMode (l.rename S) (r.rename S) = equalMode l r := rfl
  simp only [equality, hsame, hoperands, hmode]
  split
  · exact ⟨.boolean _, rfl⟩
  · split
    · exact ⟨.boolean _, rfl⟩
    · exact ⟨.nonNull (.computed (.two hl.code hr.code rfl (by trivial)) _), rfl⟩

theorem connective_again :
    (connective o op l r).Portable pool ∧
      connective o op (l.rename S) (r.rename S) = (connective o op l r).rename S := by
  have hoperands : operands? o (l.rename S) (r.rename S) = operands? o l r := rfl
  have hdominant : ∀ f : Fragment, isDominant o op (f.rename S) = isDominant o op f := fun _ => rfl
  have hproven : ∀ f : Fragment, isProvenBoolean (f.rename S) = isProvenBoolean f := fun _ => rfl
  have hwhole : ∀ s, (computed (.logic op s l.code r.code) .boolean).Portable pool := fun s =>
    .computed (.two hl.code hr.code rfl (by trivial)) _
  simp only [connective, hoperands, hdominant, hproven]
  split
  · exact ⟨.of_cases (logic_cases op _ _), rfl⟩
  · split
    · exact ⟨.boolean _, rfl⟩
    · split
      · exact ⟨(hwhole _).nonNull, rfl⟩
      · exact ⟨hwhole _, rfl⟩

theorem comparison_again :
    (comparison o op l r).Portable pool ∧
      comparison o op (l.rename S) (r.rename S) = (comparison o op l r).rename S := by
  have hoperands : operands? o (l.rename S) (r.rename S) = operands? o l r := rfl
  have hwhole : ∀ mode, (computed (.compare op mode l.code r.code) .boolean).Portable pool :=
    fun mode => .computed (.two hl.code hr.code rfl (by trivial)) _
  simp only [comparison, hoperands]
  split
  · exact ⟨.of_cases (compareAs_cases op _ _ _), rfl⟩
  · show (Outcome.fragment (if l.primitive && r.primitive then _ else _)).Portable pool ∧
      Outcome.fragment (if l.primitive && r.primitive then _ else _) =
        (Outcome.fragment (if l.primitive && r.primitive then _ else _)).rename S
    split
    · exact ⟨(hwhole _).nonNull, rfl⟩
    · exact ⟨hwhole _, rfl⟩

theorem arithmetic_again :
    (arithmetic o op l r).Portable pool ∧
      arithmetic o op (l.rename S) (r.rename S) = (arithmetic o op l r).rename S := by
  have hoperands : operands? o (l.rename S) (r.rename S) = operands? o l r := rfl
  have hnullable : ∀ f : Fragment, (f.rename S).nullable = f.nullable := fun _ => rfl
  simp only [arithmetic, hoperands, hnullable]
  split
  · exact ⟨.arith _ _ op _ _, rfl⟩
  · refine ⟨.withNullable (.computed (.two hl.code hr.code rfl (by trivial)) _) _, ?_⟩
    generalize (l.nullable || r.nullable || op == .div || op == .pow) = nullable
    cases nullable <;> rfl

theorem concatenation_again :
    (concatenation o l r).Portable pool ∧
      concatenation o (l.rename S) (r.rename S) = (concatenation o l r).rename S := by
  have hoperands : operands? o (l.rename S) (r.rename S) = operands? o l r := rfl
  have hnullable : ∀ f : Fragment, (f.rename S).nullable = f.nullable := fun _ => rfl
  simp only [concatenation, hoperands, hnullable]
  split
  · exact ⟨.concat _ _, rfl⟩
  · refine ⟨.withNullable (.computed (.two hl.code hr.code rfl (by trivial)) _) _, ?_⟩
    generalize (l.nullable || r.nullable) = nullable
    cases nullable <;> rfl

theorem temporal_again :
    (temporal o op l r).Portable pool ∧
      temporal o op (l.rename S) (r.rename S) = (temporal o op l r).rename S := by
  have hoperands : operands? o (l.rename S) (r.rename S) = operands? o l r := rfl
  simp only [temporal, hoperands]
  split
  · exact ⟨.temporal op _ _, rfl⟩
  · exact ⟨.computed (.two hl.code hr.code rfl (by trivial)) _, rfl⟩

/-- The rule is chosen by the operator and the types of the operands. -/
theorem outcome?_again (hS : Function.Injective S.cursor) :
    (∀ x ∈ outcome? o op l r, x.Portable pool) ∧
      outcome? o op (l.rename S) (r.rename S) = (outcome? o op l r).map (Outcome.rename S) := by
  have hsome : ∀ {x y : Outcome}, x.Portable pool ∧ y = x.rename S →
      (∀ z ∈ some x, z.Portable pool) ∧ some y = (some x).map (Outcome.rename S) := by
    rintro x y ⟨hx, rfl⟩
    refine ⟨fun z hz => ?_, rfl⟩
    cases hz
    exact hx
  have htype : ∀ f : Fragment, (f.rename S).type = f.type := fun _ => rfl
  simp only [outcome?, htype]
  split
  · exact hsome (equality_again hl hr op hS)
  · split
    · exact hsome (connective_again hl hr op)
    · split
      · split
        · exact hsome (comparison_again hl hr op)
        · exact ⟨by rintro z ⟨⟩, rfl⟩
      · split
        · exact hsome (arithmetic_again hl hr op)
        · split
          · exact hsome (concatenation_again hl hr)
          · split
            · exact hsome (temporal_again hl hr op)
            · exact ⟨by rintro z ⟨⟩, rfl⟩

/-- **Operators on renamed fragments** are lowered as they were. -/
theorem again_binary (hS : Function.Injective S.cursor) (span : Span) :
    Again k pool (binary o span op l r) (binary o span op (l.rename S) (r.rename S)) (rename S)
      fun f pool' => f.Portable pool' := by
  obtain ⟨hportable, hrename⟩ := outcome?_again (o := o) hl hr op hS
  unfold binary
  rw [hrename]
  cases houtcome : outcome? o op l r with
  | some x => exact (hportable x houtcome).again
  | none =>
    show Again k pool (if _ then _ else if _ then _ else _) (if _ then _ else if _ then _ else _)
      (rename S) _
    have htype : ∀ f : Fragment, (f.rename S).type = f.type := fun _ => rfl
    rw [htype, htype]
    split
    · exact .pure rfl fun pool' hpool =>
        .extend (.computed (.two hl.code hr.code rfl (by trivial)) _) (List.prefix_refl _)
    · split
      · exact .pure rfl fun _ _ => .null
      · exact .throw

end Rules

end Fragment

open Lowering (Again)

/-! ### Renamed fragments -/

namespace Fragment

variable {R : Renaming} {k : Nat} {pool : List Value} {f : Fragment} {fs : List Fragment}

theorem again_pure {g : Fragment} (h : f.Portable pool) (hg : g = f.rename R) :
    Again k pool (pure f) (pure g) (rename R) fun f pool' => f.Portable pool' :=
  .pure hg fun _ hpool => h.extend hpool

theorem codes_portable (h : ∀ f ∈ fs, f.Portable pool) : ∀ c ∈ fs.map (·.code), c.Portable :=
  List.forall_mem_map.mpr fun f hf => (h f hf).code

variable (R) in
theorem codes_rename (fs : List Fragment) :
    (fs.map (rename R)).map (·.code) = Code.renameList R (fs.map (·.code)) := by
  rw [Code.renameList_eq, List.map_map, List.map_map]
  rfl

theorem computed_rename (c : Code) (t : Ty) (b : Bool) :
    ((computed c t).withNullable b).rename R = (computed (c.rename R) t).withNullable b := by
  cases b <;> rfl

theorem convertTo_rename (param : Ty) :
    (f.rename R).convertTo param = (f.convertTo param).rename R := by
  have htype : (f.rename R).type = f.type := rfl
  unfold convertTo
  rw [htype]
  cases f.type.compat param with
  | convertible | lossy => exact (apply_ite (rename R) (widens f.type param = true) f
      (computed (.convert f.code param) param)).symm
  | _ => rfl

theorem convertAll_rename (fs : List Fragment) (signature : Ty) :
    convertAll (fs.map (rename R)) signature = (convertAll fs signature).map (rename R) := by
  unfold convertAll
  split
  · rw [List.zip_map_left, List.map_map, List.map_map]
    exact List.map_congr_left fun x _ => convertTo_rename x.2
  · rfl

theorem Portable.convertTo (h : f.Portable pool) (param : Ty) :
    (f.convertTo param).Portable pool := by
  have hconverted : (Fragment.computed (.convert f.code param) param).Portable pool :=
    .computed (.one h.code rfl (by trivial)) param
  unfold Fragment.convertTo
  repeat' split
  all_goals first | exact h | exact hconverted

theorem convertAll_portable (h : ∀ f ∈ fs, f.Portable pool) (signature : Ty) :
    ∀ f ∈ convertAll fs signature, f.Portable pool := by
  unfold convertAll
  split
  · intro f hf
    obtain ⟨pair, hpair, rfl⟩ := List.mem_map.mp hf
    exact (h _ (List.of_mem_zip hpair).1).convertTo _
  · exact h

end Fragment

/-! ### Forms -/

namespace Lower

open Fragment (again_pure again_ofConstant again_binary)

/-- A part that is lowered once more, with cursors whose numbers are `k` higher, gives the same. -/
def Repeats (R : Renaming) (k : Nat) (l : Lower) : Prop :=
  ∀ S pool, Again k pool (l S) (l S) (Fragment.rename R) fun f pool' => f.Portable pool'

variable {R : Renaming} {k : Nat} {S : Scope} {pool : List Value}

theorem again_all {ls : List Lower} (h : ∀ l ∈ ls, Repeats R k l) (S : Scope) (pool : List Value) :
    Again k pool (all S ls) (all S ls) (List.map (Fragment.rename R)) fun fs pool' =>
      ∀ f ∈ fs, f.Portable pool' := by
  induction ls generalizing pool with
  | nil => exact .pure rfl fun _ _ => List.forall_mem_nil _
  | cons l ls ih =>
    rw [List.forall_mem_cons] at h
    refine .bind (h.1 S pool) fun f p₁ _ hf => .bind (ih h.2 p₁) fun fs p₂ hp₂ hfs => ?_
    refine .pure rfl fun p₃ hp₃ => List.forall_mem_cons.mpr ⟨hf.extend (hp₂.trans hp₃), ?_⟩
    exact fun g hg => (hfs g hg).extend hp₃

/-! ### Structures -/

theorem repeats_list {items : List Lower} (h : ∀ l ∈ items, Repeats R k l) (type : Ty) :
    Repeats R k (list items type) := by
  refine fun S pool => .bind (again_all h S pool) fun fs p₁ _ hfs => ?_
  rw [Fragment.values?_rename]
  split
  · next vs hvs => exact again_ofConstant (.list (Fragment.steady_of_values? hfs hvs)) type
  · refine again_pure (.nonNull (.computed ?_ type)) ?_
    · exact Code.portable_iff.mpr ⟨by trivial, Fragment.codes_portable hfs⟩
    · rw [Fragment.codes_rename]
      rfl

theorem repeats_context {entries : List (String × Lower)} (h : ∀ e ∈ entries, Repeats R k e.2)
    (type : Ty) : Repeats R k (context entries type) := by
  refine fun S pool => .bind (again_all (List.forall_mem_map.mpr h) S pool) fun fs p₁ _ hfs => ?_
  rw [Fragment.values?_rename]
  split
  · next vs hvs =>
    refine again_ofConstant (.ofList fun e he => ?_) type
    exact Fragment.steady_of_values? hfs hvs _ (List.of_mem_zip he).2
  · refine again_pure
      (.nonNull (.computed (Code.portable_iff.mpr ⟨by trivial, fun c hc => ?_⟩) type)) ?_
    · obtain ⟨e, he, rfl⟩ := List.mem_map.mp hc
      exact Fragment.codes_portable hfs _ (List.of_mem_zip he).2
    · rw [Fragment.codes_rename, Code.renameList_eq, List.zip_map_right]
      show _ = Fragment.nonNull (Fragment.computed (.context (Code.renameEntries R _)) type)
      rw [Code.renameEntries_eq]
      rfl

theorem repeats_range {start finish : Lower} (hs : Repeats R k start) (hf : Repeats R k finish)
    (si ei : Bool) (type : Ty) : Repeats R k (range start finish si ei type) := by
  refine fun S pool => .bind (hs S pool) fun s p₁ _ hs' => .bind (hf S p₁) fun f p₂ hp₂ hf' => ?_
  have hs' := hs'.extend hp₂
  have hoperands : Fragment.operands? S.options (s.rename R) (f.rename R) =
      Fragment.operands? S.options s f := rfl
  rw [hoperands]
  split
  · next a b hab =>
    obtain ⟨ha, hb⟩ := Fragment.constants_of_operands? hab
    exact again_ofConstant (.range (fun v hv => Option.some.inj hv ▸ hs'.steady a ha)
      fun v hv => Option.some.inj hv ▸ hf'.steady b hb) type
  · exact again_pure
      (.nonNull (.computed (.two hs'.code hf'.code rfl (by trivial)) type)) rfl

/-! ### Operators -/

theorem repeats_binary (hR : R.Shifts k) (op : Operator) {left right : Lower}
    (hl : Repeats R k left) (hr : Repeats R k right) (span : Span) :
    Repeats R k (binary op left right span) := fun S pool =>
  .bind (hl S pool) fun _ p₁ _ hl' => .bind (hr S p₁) fun _ _ hp₂ hr' =>
    again_binary (hl'.extend hp₂) hr' op hR.injective span

theorem repeats_negation {operand : Lower} (h : Repeats R k operand) (type : Ty) :
    Repeats R k (negation operand type) := by
  refine fun S pool => .bind (h S pool) fun f p₁ _ hf => ?_
  have hvalue : (f.rename R).value? S.options = f.value? S.options := rfl
  rw [hvalue]
  split
  · next v hv => exact again_ofConstant (hf.steady v (Fragment.constant_of_value? hv)).negate type
  · exact again_pure (.withNullable (.computed (.one hf.code rfl (by trivial)) type) _)
      (Fragment.computed_rename (.negate f.code) type f.nullable).symm

theorem repeats_between {value low high : Lower} (hv : Repeats R k value) (hl : Repeats R k low)
    (hh : Repeats R k high) : Repeats R k (between value low high) := by
  refine fun S pool => .bind (hv S pool) fun v p₁ _ hv' => .bind (hl S p₁) fun l p₂ hp₂ hl' => ?_
  refine .bind (hh S p₂) fun u p₃ hp₃ hu' => ?_
  exact again_pure (.computed (.three hv'.code hl'.code hu'.code rfl (by trivial)) .boolean) rfl

theorem repeats_isIn {value tests : Lower} (hv : Repeats R k value) (ht : Repeats R k tests) :
    Repeats R k (isIn value tests) := fun S pool =>
  .bind (hv S pool) fun v p₁ _ hv' => .bind (ht (S.withTest v.type) p₁) fun _ _ hp₂ ht' =>
    again_pure
      (.computed (.two (hv'.extend hp₂).code ht'.code rfl (by trivial)) .boolean) rfl

theorem repeats_instanceOf {value : Lower} (h : Repeats R k value) (target : Ty) :
    Repeats R k (instanceOf value target) := by
  refine fun S pool => .bind (h S pool) fun f p₁ _ hf => ?_
  have hvalue : (f.rename R).value? S.options = f.value? S.options := rfl
  rw [hvalue]
  split
  · exact again_ofConstant (.boolean _) .boolean
  · exact again_pure (.nonNull (.computed (.one hf.code rfl (by trivial)) .boolean)) rfl

/-! ### Control -/

theorem repeats_ite {condition yes no : Lower} (hc : Repeats R k condition) (hy : Repeats R k yes)
    (hn : Repeats R k no) (type : Ty) : Repeats R k (ite condition yes no type) := by
  refine fun S pool => .bind (hc S pool) fun c p₁ _ hc' => .bind (hy S p₁) fun y p₂ hp₂ hy' => ?_
  refine .bind (hn S p₂) fun n p₃ hp₃ hn' => ?_
  have hy' := hy'.extend hp₃
  have hvalue : (c.rename R).value? S.options = c.value? S.options := rfl
  rw [hvalue]
  split
  · next v _ =>
    refine again_pure (.withType (f := if v.isBool true then y else n) ?_ type) ?_
    · split
      · exact hy'
      · exact hn'
    · rw [← apply_ite (Fragment.rename R)]
      rfl
  · exact again_pure
      (.withNullable (.computed (.three hc'.code hy'.code hn'.code rfl (by trivial)) type) _)
      (Fragment.computed_rename (.ite c.code y.code n.code) type (y.nullable || n.nullable)).symm

/-- What a binding runs over gives the same once more. -/
structure DomainRepeats (R : Renaming) (k : Nat) (part : DomainPart) : Prop where
  whole : Repeats R k part.whole
  bounds : ∀ b, part.bounds = some b → Repeats R k b.start ∧ Repeats R k b.finish

/-- Steps that go on from their cursor, and portable code. -/
structure DomainPortable (d : Domain Code) : Prop where
  stepping : d.Stepping
  cells : ∀ c ∈ d.cells, c.Portable

theorem isStep_stepCode (element : Ty) (cursor : String) (offset : Int) :
    (stepCode element cursor offset).isStep cursor = true := by
  unfold stepCode
  split <;> exact beq_self_eq_true cursor

theorem stepCode_portable (element : Ty) (cursor : String) (offset : Int) :
    (stepCode element cursor offset).Portable := by
  have hlocal : (Code.local cursor).Portable := .leaf rfl trivial
  have hoffset : (Code.const (.int offset)).Portable := .leaf rfl (.number _)
  have hdays : (Code.const (.dayTimeDuration (offset * dayNanos))).Portable :=
    .leaf rfl (.dayTimeDuration _)
  unfold stepCode
  split
  · exact Code.portable_iff.mpr ⟨by trivial, List.forall_mem_cons.mpr
      ⟨hlocal, List.forall_mem_singleton.mpr hoffset⟩⟩
  · exact Code.portable_iff.mpr ⟨by trivial, List.forall_mem_cons.mpr
      ⟨hlocal, List.forall_mem_singleton.mpr hdays⟩⟩

/-- A step from a cursor becomes the step from the new one. -/
theorem stepCode_rename (element : Ty) (cursor cursor' : String) (offset : Int) :
    ((stepCode element cursor offset).rename R).rebase cursor cursor' =
      stepCode element cursor' offset := by
  unfold stepCode
  split
  · exact Code.rebase_rename_arith ..
  · exact Code.rebase_rename_temporal ..

theorem again_domain (hR : R.Shifts k) {part : DomainPart} (h : DomainRepeats R k part) (S : Scope)
    (pool : List Value) : Again k pool (domain part S) (domain part S) (Code.renameDomain R)
      fun d _ => DomainPortable d := by
  have hvalues : ∀ pool, Again k pool (do return Domain.values (← part.whole S).code)
      (do return Domain.values (← part.whole S).code) (Code.renameDomain R)
        fun d _ => DomainPortable d := fun pool =>
    .bind (h.whole S pool) fun f _ _ hf => .pure rfl fun _ _ =>
      ⟨trivial, List.forall_mem_singleton.mpr hf.code⟩
  unfold domain
  split
  · exact hvalues pool
  · next b hb =>
    obtain ⟨hs, hf⟩ := h.bounds b hb
    refine .bind (hs S pool) fun s p₁ _ hs' => .bind (hf S p₁) fun f p₂ _ hf' => ?_
    split
    · refine .bind (.fresh hR) fun cursor p₃ _ _ => .pure ?_ fun _ _ => ⟨⟨?_, ?_⟩, ?_⟩
      · rw [Code.renameDomain_steps (isStep_stepCode _ _ _) (isStep_stepCode _ _ _),
          stepCode_rename, stepCode_rename]
        rfl
      · exact isStep_stepCode _ _ _
      · exact isStep_stepCode _ _ _
      · simp only [Domain.cells, List.forall_mem_cons]
        exact ⟨hs'.code, hf'.code, stepCode_portable _ _ _, stepCode_portable _ _ _,
          List.forall_mem_nil _⟩
    · exact hvalues p₂

theorem again_bindings (hR : R.Shifts k) {parts : List DomainPart}
    (h : ∀ part ∈ parts, DomainRepeats R k part) (S : Scope) (pool : List Value) :
    Again k pool (bindings S parts) (bindings S parts) (Code.renameBindings R)
      fun bs _ => ∀ b ∈ bs, DomainPortable b.domain := by
  induction parts generalizing pool with
  | nil => exact .pure rfl fun _ _ => List.forall_mem_nil _
  | cons part parts ih =>
    rw [List.forall_mem_cons] at h
    refine .bind (again_domain hR h.1 S pool) fun d p₁ _ hd =>
      .bind (ih h.2 p₁) fun bs _ _ hbs => ?_
    exact .pure rfl fun _ _ => List.forall_mem_cons.mpr ⟨hd, hbs⟩

theorem iteration_portable {bs : List (Binding Code)} {body : Code} {whole : Code}
    (hbs : ∀ b ∈ bs, DomainPortable b.domain) (hbody : body.Portable)
    (hown : (∀ b ∈ bs, b.domain.Stepping) → whole.ownPortable)
    (hchildren : whole.children = bs.flatMap (·.domain.cells) ++ [body]) : whole.Portable := by
  refine Code.portable_iff.mpr ⟨hown fun b hb => (hbs b hb).stepping, ?_⟩
  rw [hchildren, List.forall_mem_append]
  refine ⟨fun c hc => ?_, List.forall_mem_singleton.mpr hbody⟩
  obtain ⟨b, hb, hc⟩ := List.mem_flatMap.mp hc
  exact (hbs b hb).cells c hc

theorem repeats_forIn (hR : R.Shifts k) {parts : List DomainPart}
    (h : ∀ part ∈ parts, DomainRepeats R k part) {body : Lower} (hb : Repeats R k body)
    (type : Ty) : Repeats R k (forIn parts body type) := by
  refine fun S pool => .bind (again_bindings hR h S pool) fun bs p₁ _ hbs =>
    .bind (hb S p₁) fun f _ _ hf => ?_
  exact again_pure (.nonNull (.computed (iteration_portable hbs hf.code id rfl) type)) rfl

theorem repeats_quantified (hR : R.Shifts k) (every : Bool) {parts : List DomainPart}
    (h : ∀ part ∈ parts, DomainRepeats R k part) {condition : Lower} (hc : Repeats R k condition) :
    Repeats R k (quantified every parts condition) := by
  refine fun S pool => .bind (again_bindings hR h S pool) fun bs p₁ _ hbs =>
    .bind (hc S p₁) fun f _ _ hf => ?_
  exact again_pure (.computed (iteration_portable hbs hf.code id rfl) .boolean) rfl

theorem repeats_filter {source filter : Lower} (hs : Repeats R k source)
    (hf : Repeats R k filter) (kind : FilterKind) (type : Ty) :
    Repeats R k (Lower.filter source filter kind type) := fun S pool =>
  .bind (hs S pool) fun _ p₁ _ hs' => .bind (hf S p₁) fun _ _ hp₂ hf' =>
    again_pure (.computed (.two (hs'.extend hp₂).code hf'.code rfl (by trivial)) type) rfl

theorem repeats_path {source : Lower} (h : Repeats R k source) (member : String) (span : Span) :
    Repeats R k (path source member span) := by
  refine fun S pool => .bind (h S pool) fun f p₁ _ hf => ?_
  have htype : (f.rename R).type = f.type := rfl
  rw [htype]
  split
  · exact again_pure (.computed (.one hf.code rfl (by trivial)) _) rfl
  · exact .throw

/-! ### Functions and names -/

theorem repeats_function (params : List (String × Ty)) {body : Lower} (h : Repeats R k body)
    (type : Ty) : Repeats R k (function params body type) := fun S pool =>
  .bind (h S pool) fun _ _ _ hf =>
    again_pure (.nonNull (.computed (.one hf.code rfl (by trivial)) type)) rfl

/-- The place of a function that is no closure is found again. -/
theorem again_function {f : FunctionValue} (hf : f.same f = true)
    (hplace : (Datum.function f : Value).Unplaced) {g g' : Nat → Lowering Fragment}
    (hg : ∀ i pool', pool <+: pool' →
      Again k pool' (g i) (g' i) (Fragment.rename R) fun f p => f.Portable p) :
    Again k pool (Lowering.intern (.function f) >>= g) (Lowering.intern (.function f) >>= g')
      (Fragment.rename R) fun f p => f.Portable p := by
  have hsame : (Datum.function f : Value).same (.function f) = true := by rw [Datum.same, hf]
  exact .bind (.intern hsame hplace) fun i p₁ hp₁ _ => hg i p₁ hp₁

/-- The functions of libraries are no closures. -/
theorem library_function {l : Library} {name : String} {f : FunctionValue}
    (h : l.value? name = some f) :
    f.same f = true ∧ (Datum.function f : Value).Unplaced := by
  cases l with
  | host functions =>
    obtain ⟨g, -, rfl⟩ := Option.map_eq_some_iff.mp h
    exact ⟨beq_self_eq_true g.id, fun _ => rfl⟩
  | builtins =>
    obtain ⟨b, -, rfl⟩ := Option.map_eq_some_iff.mp h
    exact ⟨beq_self_eq_true b.name, fun _ => rfl⟩

theorem again_libraryCall (l : Library) (name : String) {args : List Fragment}
    (hargs : ∀ f ∈ args, f.Portable pool) :
    Option.Rel (fun x y => Again k pool x y (Fragment.rename R) fun f pool' => f.Portable pool')
      (l.lower? name args) (l.lower? name (args.map (Fragment.rename R))) := by
  have htypes : (args.map (Fragment.rename R)).map (·.type) = args.map (·.type) := by
    rw [List.map_map]
    rfl
  have hcodes := Fragment.codes_portable hargs
  unfold Library.lower?
  rw [htypes, Fragment.codes_rename]
  generalize args.map (·.type) = types
  generalize args.map (·.code) = codes at hcodes
  cases l with
  | host functions =>
    dsimp only
    cases Library.find? functions name with
    | none => exact .none
    | some f =>
      dsimp only [Option.bind_eq_bind, Option.bind_some]
      cases (Ty.resolve? [f.type] types).bind (·.result?) with
      | none => exact .none
      | some result =>
        have hsame : (Function.native f.id f.name f.type : FunctionValue).same
            (.native f.id f.name f.type) = true := beq_self_eq_true f.id
        refine .some (again_function hsame (fun _ => rfl) fun i p _ => ?_)
        refine again_pure (.computed (Code.portable_iff.mpr ⟨by trivial, ?_⟩) result) rfl
        exact List.forall_mem_cons.mpr ⟨.leaf rfl trivial, hcodes⟩
  | builtins =>
    dsimp only
    cases Builtin.ofName? name with
    | none => exact .none
    | some f =>
      dsimp only [Option.bind_eq_bind, Option.bind_some]
      generalize ((f.signature? types).bind (·.result?)).getD .any = result
      have hcall : Again k pool
          (pure (Fragment.computed (.call (.builtin name) codes none) result))
          (pure (Fragment.computed (.call (.builtin name) (Code.renameList R codes) none) result))
          (Fragment.rename R) fun f pool' => f.Portable pool' :=
        again_pure
          (.computed (c := .call (.builtin name) codes none)
            (Code.portable_iff.mpr ⟨by trivial, hcodes⟩) result) rfl
      cases f with
      | not =>
        match codes, hcodes, hcall with
        | [c], hc, _ =>
          have hc := List.forall_mem_singleton.mp hc
          exact .some (again_pure (.computed (.one hc rfl (by trivial)) .boolean) rfl)
        | [], _, hcall => exact .some hcall
        | _ :: _ :: _, _, hcall => exact .some hcall
      | _ => exact .some hcall

theorem again_call (libraries : Libraries) (name : String) {args : List Fragment}
    (hargs : ∀ f ∈ args, f.Portable pool) :
    Option.Rel (fun x y => Again k pool x y (Fragment.rename R) fun f pool' => f.Portable pool')
      (libraries.lower? name args) (libraries.lower? name (args.map (Fragment.rename R))) := by
  induction libraries with
  | nil => exact .none
  | cons l ls ih =>
    rw [Libraries.lower?, Libraries.lower?, List.findSome?_cons, List.findSome?_cons]
    obtain ⟨hx, hy⟩ | ⟨x, y, hx, hy, hxy⟩ :=
      Option.Rel.cases (again_libraryCall (R := R) (k := k) l name hargs)
    · rw [hx, hy]
      exact ih
    · rw [hx, hy]
      exact .some hxy

theorem repeats_named {args : List Lower} (h : ∀ l ∈ args, Repeats R k l) (name : String)
    (signature : Ty) (names : Option (List String)) (type : Ty) (span : Span) :
    Repeats R k (invocation (.named name signature) args names type span) := by
  refine fun S pool => .bind (again_all h S pool) fun fs p₁ _ hfs => ?_
  dsimp only
  rw [Fragment.convertAll_rename]
  obtain ⟨hx, hy⟩ | ⟨x, y, hx, hy, hxy⟩ := Option.Rel.cases
    (again_call (R := R) (k := k) S.libraries name (Fragment.convertAll_portable hfs signature))
  · rw [hx, hy]
    exact .throw
  · rw [hx, hy]
    refine .bind hxy fun f p₂ _ hf => ?_
    have htype : (f.rename R).type = f.type := rfl
    rw [htype]
    split
    · exact again_pure (hf.withType type) rfl
    · exact again_pure hf rfl

theorem repeats_value {callee : Lower} (hc : Repeats R k callee) {args : List Lower}
    (h : ∀ l ∈ args, Repeats R k l) (names : Option (List String)) (type : Ty) (span : Span) :
    Repeats R k (invocation (.value callee) args names type span) := by
  refine fun S pool => .bind (again_all h S pool) fun fs p₁ _ hfs =>
    .bind (hc S p₁) fun f _ _ hf => ?_
  refine again_pure (.computed (Code.portable_iff.mpr ⟨by trivial, ?_⟩) type) ?_
  · exact List.forall_mem_cons.mpr ⟨hf.code, Fragment.codes_portable hfs⟩
  · rw [Fragment.codes_rename]
    rfl

theorem repeats_name (name : String) (origin : Origin) (type : Ty) (span : Span) :
    Repeats R k (Lower.name name origin type span) := by
  intro S pool
  have hleaf : ∀ {c : Code}, c.children = [] → c.ownPortable → c.rename R = c →
      Again k pool (pure (Fragment.computed c type)) (pure (Fragment.computed c type))
        (Fragment.rename R) fun f pool' => f.Portable pool' := by
    intro c hchildren hown hrename
    refine again_pure (.computed (.leaf hchildren hown) type) ?_
    show _ = ({ Fragment.computed c type with code := c.rename R } : Fragment)
    rw [hrename]
    rfl
  cases origin with
  | bound => exact hleaf rfl trivial rfl
  | input => exact hleaf rfl trivial rfl
  | dynamic => exact hleaf rfl trivial rfl
  | function =>
    unfold Lower.name
    dsimp only
    split
    · exact .throw
    · next f hf =>
      obtain ⟨l, -, hl⟩ := List.exists_of_findSome?_eq_some hf
      obtain ⟨hsame, hplace⟩ := library_function hl
      exact again_function hsame hplace fun i p _ =>
        again_pure (.nonNull (.computed (.leaf rfl (by trivial)) type)) rfl

/-! ### Unary tests -/

section Tests

variable (hR : R.Shifts k)
include hR

theorem repeats_comparison (op : Operator) {value : Lower} (h : Repeats R k value) (span : Span) :
    Repeats R k (comparison op value span) := fun S pool =>
  .bind (h S pool) fun _ _ _ hf =>
    again_binary (.computed (.leaf rfl (by trivial)) (subjectType S)) hf op hR.injective span

theorem again_matching (o : Options) (span : Span) (subject : Ty) {f : Fragment}
    (hf : f.Portable pool) :
    Again k pool (matching o span subject f) (matching o span subject (f.rename R))
      (Fragment.rename R) fun f pool' => f.Portable pool' := by
  have htest : (Fragment.computed .testInput subject).Portable pool :=
    .computed (.leaf rfl (by trivial)) subject
  have hequal := again_binary (o := o) (k := k) htest hf .eq hR.injective span
  have hwhole : ∀ {c : Code}, c.Portable → Again k pool (pure (Fragment.computed c .boolean))
      (pure (Fragment.computed (c.rename R) .boolean)) (Fragment.rename R)
        fun f pool' => f.Portable pool' := fun hc => again_pure (.computed hc .boolean) rfl
  have htype : (f.rename R).type = f.type := rfl
  unfold matching
  dsimp only
  rw [htype]
  split
  · split
    · exact hequal
    · exact hwhole (.two hf.code htest.code rfl (by trivial))
  · exact hwhole (.two hf.code htest.code rfl (by trivial))
  · split
    · exact hwhole (.one hf.code rfl (by trivial))
    · split
      · exact hequal
      · exact again_pure hf rfl
  · exact hwhole (.one hf.code rfl (by trivial))
  · exact hequal

theorem again_test {part : TestPart} (h : Repeats R k part.lower) (S : Scope)
    (pool : List Value) : Again k pool (test S part) (test S part) (Fragment.rename R)
      fun f pool' => f.Portable pool' := by
  refine .bind (h S pool) fun f p₁ _ hf => ?_
  split
  · exact again_pure hf rfl
  · exact again_matching hR _ _ _ hf

theorem again_anyOf {parts : List TestPart} (h : ∀ part ∈ parts, Repeats R k part.lower)
    (S : Scope) (span : Span) {f : Fragment} (hf : f.Portable pool) :
    Again k pool (anyOf S span f parts) (anyOf S span (f.rename R) parts) (Fragment.rename R)
      fun f pool' => f.Portable pool' := by
  induction parts generalizing f pool with
  | nil => exact again_pure hf rfl
  | cons part parts ih =>
    rw [List.forall_mem_cons] at h
    refine .bind (again_test hR h.1 S pool) fun g p₁ hp₁ hg => ?_
    exact .bind (again_binary (hf.extend hp₁) hg .or hR.injective span) fun b _ _ hb => ih h.2 hb

theorem repeats_tests (negated : Bool) {parts : List TestPart}
    (h : ∀ part ∈ parts, Repeats R k part.lower) (span : Span) :
    Repeats R k (tests negated parts span) := by
  intro S pool
  have hdisjunction : Again k pool (disjunction S span parts) (disjunction S span parts)
      (Fragment.rename R) fun f pool' => f.Portable pool' := by
    cases parts with
    | nil => exact again_ofConstant (.boolean _) .boolean
    | cons part parts =>
      rw [List.forall_mem_cons] at h
      exact .bind (again_test hR h.1 S pool) fun f _ _ hf => again_anyOf hR h.2 S span hf
  refine .bind hdisjunction fun f p₁ _ hf => ?_
  have hvalue : (f.rename R).value? S.options = f.value? S.options := rfl
  rw [hvalue]
  split
  · exact again_pure hf rfl
  · split
    · exact again_ofConstant (.ofBool? _) _
    · exact again_pure (.computed (.one hf.code rfl (by trivial)) .boolean) rfl

end Tests

end Lower

/-! ### Terms -/

namespace Term

open Lower (DomainRepeats)

/-- A literal is the same as itself. -/
def SteadyLiteral (t : Term) : Prop :=
  match t.shape with
  | .number n => n.equal n = true
  | .temporal v => v.Steady
  | _ => True

/-- Literals that were read from a text are the same as themselves, in any scope. -/
theorem steadyLiteral_nodeLaw : NodeLaw (fun _ => True) SteadyLiteral where
  congr := by
    rintro ⟨shape, _⟩ ⟨_, _⟩ rfl _ h
    exact h
  made := by
    rintro ⟨shape, _⟩ htyped _
    cases shape with
    | number n =>
      obtain ⟨-, text, hn⟩ := htyped
      exact Number.equal_self_of_literal? hn
    | temporal v =>
      obtain ⟨-, text, hv⟩ := htyped
      exact .of_parseTemporal? hv
    | _ => trivial
  name _ _ _ := trivial
  call _ _ := trivial
  push _ _ := trivial
  declare _ _ _ := trivial
  withTest _ _ := trivial

/-- A term that is lowered once more gives the same, and so do its bounds, if it is written as a
range. -/
structure Repeats (R : Renaming) (k : Nat) (t : Term) : Prop where
  whole : Lower.Repeats R k (Fragment.ofTerm t)
  bounds : ∀ b, Fragment.ofBounds t = some b →
    Lower.Repeats R k b.start ∧ Lower.Repeats R k b.finish

variable {R : Renaming} {k : Nat}

theorem Repeats.domain {its : List (Iteration Term)}
    (h : ∀ t ∈ its.map (·.domain), t.Repeats R k) :
    ∀ part ∈ Fragment.ofIterations its, DomainRepeats R k part := by
  intro part hpart
  obtain ⟨t, ht, hwhole, hbounds⟩ := Fragment.mem_ofIterations hpart
  refine ⟨hwhole ▸ (h t ht).whole, fun b hb => ?_⟩
  rw [hbounds] at hb
  exact (h t ht).bounds b hb

theorem Repeats.list {ts : List Term} (h : ∀ t ∈ ts, t.Repeats R k) :
    ∀ l ∈ Fragment.ofList ts, Lower.Repeats R k l := by
  intro l hl
  obtain ⟨t, ht, rfl⟩ := Fragment.mem_ofList hl
  exact (h t ht).whole

theorem Repeats.tests {ts : List Term} (h : ∀ t ∈ ts, t.Repeats R k) :
    ∀ part ∈ Fragment.ofTests ts, Lower.Repeats R k part.lower := by
  intro part hpart
  obtain ⟨t, ht, rfl⟩ := Fragment.mem_ofTests hpart
  exact (h t ht).whole

theorem repeats_of_parts (hR : R.Shifts k) (shape : Shape Term) {type : Ty} {span : Span}
    {comments warnings : List String}
    (hliteral : (node shape type span comments warnings).SteadyLiteral)
    (h : ∀ s ∈ (node shape type span comments warnings).parts, s.Repeats R k) :
    Lower.Repeats R k (Fragment.ofShape type span shape) := by
  cases shape with
  | null => exact fun _ _ => Fragment.again_pure .null rfl
  | boolean b => exact fun _ _ => Fragment.again_ofConstant (.boolean b) _
  | number n => exact fun _ _ => Fragment.again_ofConstant (.number hliteral) _
  | string s => exact fun _ _ => Fragment.again_ofConstant (.string s) _
  | temporal v => exact fun _ _ => Fragment.again_ofConstant hliteral _
  | dash => exact fun _ _ => Fragment.again_ofConstant (.boolean true) _
  | testInput =>
    exact fun _ _ => Fragment.again_pure (.computed (.leaf rfl (by trivial)) type) rfl
  | name name origin => exact Lower.repeats_name name origin type span
  | list items => exact Lower.repeats_list (Repeats.list h) type
  | context entries =>
    refine Lower.repeats_context (fun e he => ?_) type
    obtain ⟨t, ht, heq⟩ := Fragment.mem_ofEntries he
    rw [heq]
    exact (h t ht).whole
  | range start finish si ei =>
    have hs := h start (by simp [parts, Term.shape])
    have hf := h finish (by simp [parts, Term.shape])
    exact Lower.repeats_range hs.whole hf.whole si ei type
  | binary op left right =>
    have hl := h left (by simp [parts, Term.shape])
    have hr := h right (by simp [parts, Term.shape])
    exact Lower.repeats_binary hR op hl.whole hr.whole span
  | negation operand =>
    exact Lower.repeats_negation (h operand (by simp [parts, Term.shape])).whole type
  | between value low high =>
    have hv := h value (by simp [parts, Term.shape])
    have hl := h low (by simp [parts, Term.shape])
    have hh := h high (by simp [parts, Term.shape])
    exact Lower.repeats_between hv.whole hl.whole hh.whole
  | isIn value tests =>
    have hv := h value (by simp [parts, Term.shape])
    have ht := h tests (by simp [parts, Term.shape])
    exact Lower.repeats_isIn hv.whole ht.whole
  | instanceOf value target =>
    exact Lower.repeats_instanceOf (h value (by simp [parts, Term.shape])).whole target
  | ite condition yes no =>
    have hc := h condition (by simp [parts, Term.shape])
    have hy := h yes (by simp [parts, Term.shape])
    have hn := h no (by simp [parts, Term.shape])
    exact Lower.repeats_ite hc.whole hy.whole hn.whole type
  | forIn its body =>
    have hits := Repeats.domain fun t ht => h t (List.mem_append_left _ ht)
    exact Lower.repeats_forIn hR hits (h body (by simp [parts, Term.shape])).whole type
  | quantified every its condition =>
    have hits := Repeats.domain fun t ht => h t (List.mem_append_left _ ht)
    have hc := h condition (by simp [parts, Term.shape])
    exact Lower.repeats_quantified hR every hits hc.whole
  | filter source filter kind =>
    have hs := h source (by simp [parts, Term.shape])
    have hf := h filter (by simp [parts, Term.shape])
    exact Lower.repeats_filter hs.whole hf.whole kind type
  | function params body =>
    exact Lower.repeats_function params (h body (by simp [parts, Term.shape])).whole type
  | invocation callee args names =>
    cases callee with
    | named name signature =>
      exact Lower.repeats_named (Repeats.list h) name signature names type span
    | value callee =>
      have hc := h callee (by simp [parts, Term.shape])
      have hargs := Repeats.list fun t ht => h t (List.mem_cons_of_mem _ ht)
      exact Lower.repeats_value hc.whole hargs names type span
  | path source member =>
    exact Lower.repeats_path (h source (by simp [parts, Term.shape])).whole member span
  | tests negated tests => exact Lower.repeats_tests hR negated (Repeats.tests h) span
  | comparison op value =>
    exact Lower.repeats_comparison hR op (h value (by simp [parts, Term.shape])).whole span

/-- **A term whose literals are the same as themselves** is lowered once more to what it was
lowered to. -/
theorem Everywhere.repeats (hR : R.Shifts k) {t : Term} (h : t.Everywhere SteadyLiteral) :
    t.Repeats R k := by
  induction h with
  | @intro t hliteral _ ih =>
    obtain ⟨shape, type, span, comments, warnings⟩ := t
    refine ⟨repeats_of_parts hR shape hliteral ih, fun b hb => ?_⟩
    cases shape with
    | range start finish si ei =>
      cases hb
      exact ⟨(ih start (by simp [parts, Term.shape])).whole,
        (ih finish (by simp [parts, Term.shape])).whole⟩
    | _ => cases hb

end Term

/-! ### Later drafts -/

namespace Lowering

variable {α α' β γ : Type} {x : Lowering α}

/-- A step that leads to later drafts: it adds constants at the end, none of them with closures. -/
def Extending (x : Lowering α) : Prop := ∀ d a d', x d = .ok (a, d') → d.Extends d'

theorem Again.extending {k : Nat} {y : Lowering α'} {r : α → α'} {P : α → List Value → Prop}
    (h : ∀ pool, Again k pool x y r P) : x.Extending := fun d a d' hx =>
  (h d.constants d a d' (List.prefix_refl _) hx).1

namespace Extending

theorem pure (a : α) : Extending (Pure.pure a) := by
  intro d b d' h
  cases h
  exact .refl d

theorem bind {f : α → Lowering β} (hx : x.Extending) (hf : ∀ a, (f a).Extending) :
    (x >>= f).Extending := by
  intro d b d' h
  obtain ⟨⟨a, mid⟩, ha, h⟩ := bind_eq_ok.mp h
  exact (hx d a mid ha).trans (hf a mid b d' h)

/-- Steps that fail or go on from a value. -/
theorem lift {y : Except CompileError α} {f : α → Lowering β}
    (hf : ∀ a, y = .ok a → (f a).Extending) : Extending (liftM y >>= f) := by
  intro d b d' h
  obtain ⟨⟨a, e⟩, ha, h⟩ := bind_eq_ok.mp h
  obtain ⟨a', ha', heq⟩ := bind_eq_ok.mp ha
  cases heq
  exact hf a ha' d b d' h

theorem warn (more : List String) : Extending (Lowering.warn more) := by
  intro d a d' h
  cases h
  exact ⟨List.prefix_refl _, fun _ hv => .inl hv, Nat.le_refl _⟩

theorem optional {a : Option β} {f : β → Lowering γ} (hf : ∀ b, (f b).Extending) :
    Extending (a.mapM f) := by
  cases a with
  | none => exact .pure _
  | some b => exact .bind (hf b) fun _ => .pure _

/-- Steps that are done one by one, each before a draft that comes no later than the last. -/
theorem forall₂_mapM {f : β → Lowering γ} (hf : ∀ b, (f b).Extending) {bs : List β}
    {cs : List γ} {d d' : Draft} (h : bs.mapM f d = .ok (cs, d')) :
    d.Extends d' ∧
      List.Forall₂ (fun b c => ∃ e e', f b e = .ok (c, e') ∧ e'.Extends d') bs cs := by
  induction bs generalizing cs d with
  | nil =>
    cases h
    exact ⟨.refl _, .nil⟩
  | cons b bs ih =>
    rw [List.mapM_cons] at h
    obtain ⟨⟨c, e₁⟩, hc, h⟩ := bind_eq_ok.mp h
    obtain ⟨⟨cs, e₂⟩, hcs, h⟩ := bind_eq_ok.mp h
    cases h
    obtain ⟨hmore, hrest⟩ := ih hcs
    exact ⟨(hf b d c e₁ hc).trans hmore, .cons ⟨d, e₁, hc, hmore⟩ hrest⟩

theorem mapM {f : β → Lowering γ} (hf : ∀ b, (f b).Extending) (bs : List β) :
    Extending (bs.mapM f) := fun _ _ _ h => (forall₂_mapM hf h).1

end Extending

end Lowering

/-! ### Texts -/

namespace Fragment

open Lowering (Again Extending)

variable {R : Renaming} {k : Nat} {S : Scope} {pool : List Value}

theorem extending_ofTerm {t : Term} (h : t.Everywhere Term.SteadyLiteral) (S : Scope) :
    (ofTerm t S).Extending := by
  obtain ⟨R, hR⟩ := Renaming.exists_shifts 0
  exact Again.extending fun pool => (h.repeats hR).whole S pool

theorem extending_ofWarnedTerm {t : Term} (h : t.Everywhere Term.SteadyLiteral) (S : Scope) :
    (ofWarnedTerm t S).Extending :=
  .bind (.warn _) fun _ => extending_ofTerm h S

theorem extending_ofExpression (source : String) (S : Scope) :
    (ofExpression source S).Extending :=
  .lift fun tree _ => .lift fun term hterm => extending_ofWarnedTerm
    (Term.ofSurface_makes source Term.steadyLiteral_nodeLaw tree S term .intro hterm) S

theorem extending_ofTestsTree (source : String) (tree : Surface) (S : Scope) :
    (ofTestsTree source tree S).Extending :=
  .lift fun term hterm => extending_ofWarnedTerm
    (Term.ofTests_makes source Term.steadyLiteral_nodeLaw tree S term .intro hterm) S

theorem extending_ofTestsText (source : String) (S : Scope) :
    (ofTestsText source S).Extending :=
  .lift fun tree _ => extending_ofTestsTree source tree S

theorem extending_testsOn (subject : Ty) (source : String) (S : Scope) :
    (testsOn subject source S).Extending :=
  .bind (extending_ofTestsText source _) fun _ => .pure _

/-! ### Tables -/

theorem extending_inputColumn (S : Scope) (clause : InputClause) :
    (inputColumn S clause).Extending :=
  .bind (extending_ofExpression _ S) fun _ =>
    .bind (.optional fun text => extending_testsOn _ text S) fun _ => .pure _

theorem extending_cell (S : Scope) (column : InputColumn) (entry : String) :
    (cell S column entry).Extending := by
  unfold cell
  split
  · exact .pure _
  · exact extending_testsOn _ entry S

theorem extending_rule (S : Scope) (columns : List InputColumn) (r : RuleDefinition) :
    (rule S columns r).Extending := by
  refine .bind (.mapM (fun x => ?_) _) fun _ => ?_
  · exact extending_cell S x.1 x.2
  · exact .bind (.mapM (fun text => extending_ofExpression text S) _) fun _ => .pure _

theorem extending_priorities (source : String) (S : Scope) :
    (priorities source S).Extending := by
  refine .lift fun tree _ => ?_
  split
  · exact .mapM (fun test => .bind (extending_ofTestsTree _ _ _) fun _ => .pure _) _
  · exact .pure _

/-- What comes behind the check and the priorities of an output column. -/
theorem extending_fallback (S : Scope) (clause : OutputClause) (check : Option Code)
    (priorities : List Code) : Lowering.Extending (do
      let fallback ← clause.defaultEntry.mapM fun entry => do
        return (← ofExpression entry S).code
      return (⟨clause.name, check, priorities, fallback⟩ : MatrixOutput Code)) :=
  .bind (.optional fun text => .bind (extending_ofExpression text S) fun _ => .pure _)
    fun _ => .pure _

theorem extending_outputColumn (S : Scope) (clause : OutputClause) :
    (outputColumn S clause).Extending := by
  refine .bind (.optional fun text => extending_testsOn .any text S) fun check => ?_
  dsimp only
  split
  · exact .bind (extending_priorities _ S) (extending_fallback S clause check)
  · exact .bind (.pure _) (extending_fallback S clause check)

end Fragment

end Feel
