import Feel.Fragment.OfTable
import Feel.Proofs.ClosedValues
import Feel.Proofs.Growth

/-!
# Lowering to closed code

Where the only functions are the built-in ones, expressions, tests and tables are lowered to code
that is closed over the pool that they leave, whatever the options are. The pool only grows while
parts are lowered one after the other, so that the code of a part stays closed over the pools
after it. Known values hold no function; a built-in function that is named as a value is pooled
and never known.

* `Lowering.Yields`: what a step leaves over a closed pool, with one law for each kind of step.
* `Fragment.Closed`: closed code and a known value without functions.
* `Lower.Closes`, `Lower.closes_list` and the laws beside it: one for each form.
* `Term.closes`: terms that are typed as they are made are lowered to closed code.
* `Fragment.yields_ofExpression`, `Fragment.yields_ofTestsText`, `Fragment.yields_ofTable`: texts
  and tables.
-/

namespace Feel

/-! ### Scopes and types -/

/-- The same options, with folding or without. -/
def Options.withFolding (o : Options) (folding : Bool) : Options := { o with folding := folding }

namespace Scope

/-- The scope in which a part is lowered, with folding or without. Only the type of the value
under test changes from part to part. -/
def lowering (S : Scope) (test : Option Ty) (folding : Bool) : Scope :=
  { S with testType := test, options := S.options.withFolding folding }

/-- The parts of what is lowered in the one scope are lowered in the other, and the only functions
are the built-in ones. -/
structure Reaches (S L : Scope) : Prop where
  builtins : L.OnlyBuiltins
  lowering : ∃ test folding, L = S.lowering test folding

namespace Reaches

variable {S L : Scope}

theorem refl (h : S.OnlyBuiltins) : S.Reaches S := ⟨h, S.testType, S.options.folding, rfl⟩

theorem libraries (h : S.Reaches L) : L.libraries = [.builtins] := h.builtins.libraries

theorem withTest (h : S.Reaches L) (type : Ty) : S.Reaches (L.withTest type) := by
  obtain ⟨hbuiltins, test, folding, rfl⟩ := h
  exact ⟨hbuiltins.withTest type, some type, folding, rfl⟩

end Reaches

end Scope

namespace Lower

variable {S L : Scope}

/-- Whatever it is lowered in, a part has a type. -/
def HasType (S : Scope) (l : Lower) (type : Ty) : Prop :=
  ∀ test folding d f d', l (S.lowering test folding) d = .ok (f, d') → f.type = type

theorem types_of_all {ls : List Lower} {types : List Ty} (h : List.Forall₂ (HasType S) ls types)
    (hL : S.Reaches L) {d d' : Draft} {fs : List Fragment} (hrun : all L ls d = .ok (fs, d')) :
    fs.map (·.type) = types := by
  obtain ⟨test, folding, rfl⟩ := hL.lowering
  induction h generalizing d d' fs with
  | nil =>
    cases hrun
    rfl
  | cons hl _ ih =>
    obtain ⟨⟨f, d₁⟩, hf, hrun⟩ := bind_eq_ok.mp hrun
    obtain ⟨⟨gs, d₂⟩, hgs, hrun⟩ := bind_eq_ok.mp hrun
    cases hrun
    rw [List.map_cons, hl _ _ _ _ _ hf, ih hgs]

end Lower

theorem Term.hasTypes_ofList {ts : List Term}
    (h : ∀ t ∈ ts, Lower.HasType S (Fragment.ofTerm t) t.type) :
    List.Forall₂ (Lower.HasType S) (Fragment.ofList ts) (ts.map (·.type)) := by
  induction ts with
  | nil => exact .nil
  | cons t ts ih =>
    rw [List.forall_mem_cons] at h
    exact .cons h.1 (ih h.2)

section Strict

variable [Strictness]

open Strictness (strict)

/-! ### Steps of lowering -/

namespace Lowering

variable {α β : Type}

/-- From a closed pool of at least `size` values a step leads to a closed pool that is no
smaller, and what it gives has a property over the size of that pool. -/
def Yields (size : Nat) (x : Lowering α) (P : Nat → α → Prop) : Prop :=
  ∀ d a d', size ≤ d.constants.length → (∀ v ∈ d.constants, v.Closed) → x d = .ok (a, d') →
    d.constants.length ≤ d'.constants.length ∧ (∀ v ∈ d'.constants, v.Closed) ∧
      P d'.constants.length a

namespace Yields

variable {size : Nat} {x : Lowering α} {P : Nat → α → Prop}

theorem pure {a : α} (h : ∀ size', size ≤ size' → P size' a) : Yields size (Pure.pure a) P := by
  intro d b d' hsize hd hx
  cases hx
  exact ⟨Nat.le_refl _, hd, h _ hsize⟩

theorem throw {e : CompileError} : Yields size (throw e : Lowering α) P := by
  intro d a d' _ _ hx
  cases hx

theorem bind {f : α → Lowering β} {R : Nat → β → Prop} (hx : Yields size x P)
    (hf : ∀ a size', size ≤ size' → P size' a → Yields size' (f a) R) :
    Yields size (x >>= f) R := by
  intro d b d' hsize hd hb
  obtain ⟨⟨a, mid⟩, ha, hb⟩ := bind_eq_ok.mp hb
  obtain ⟨hgrow, hmid, hPa⟩ := hx d a mid hsize hd ha
  obtain ⟨hmore, hd', hRb⟩ :=
    hf a mid.constants.length (Nat.le_trans hsize hgrow) hPa mid b d' (Nat.le_refl _) hmid hb
  exact ⟨Nat.le_trans hgrow hmore, hd', hRb⟩

/-- Steps that fail or pass on a value. -/
theorem lift {y : Except CompileError α} (h : ∀ a size', y = .ok a → P size' a) :
    Yields size (liftM y) P := by
  intro d a d' _ hd hx
  obtain ⟨b, hb, heq⟩ := bind_eq_ok.mp hx
  cases heq
  exact ⟨Nat.le_refl _, hd, h _ _ hb⟩

theorem warn (more : List String) : Yields size (Lowering.warn more) fun _ _ => True := by
  intro d a d' _ hd hx
  cases hx
  exact ⟨Nat.le_refl _, hd, .intro⟩

theorem fresh (name : String) : Yields size (Lowering.fresh name) fun _ _ => True := by
  intro d a d' _ hd hx
  cases hx
  exact ⟨Nat.le_refl _, hd, .intro⟩

/-- A closed value that is pooled is in the pool. -/
theorem intern {v : Value} (hv : v.Closed) :
    Yields size (Lowering.intern v) fun size' i => i < size' := by
  intro d i d' _ hd hx
  have hstep : d.intern v = (i, d') := Except.ok.inj hx
  have hlt := d.intern_lt v
  rw [hstep] at hlt
  unfold Draft.intern at hstep
  split at hstep
  · cases hstep
    exact ⟨Nat.le_refl _, hd, hlt⟩
  · cases hstep
    refine ⟨by simp, List.forall_mem_append.mpr ⟨hd, List.forall_mem_singleton.mpr hv⟩, hlt⟩

/-- The code of a value without functions is closed. -/
theorem constantCode {v : Value} (hv : v.Steady) :
    Yields size (Lowering.constantCode v) fun size' c => c.Closed size' := by
  intro d c d' hsize hd hx
  have hstep : d.constantCode v = (c, d') := Except.ok.inj hx
  unfold Draft.constantCode at hstep
  split at hstep
  · cases hstep
    exact ⟨Nat.le_refl _, hd, .const hv⟩
  · obtain ⟨hgrow, hd', hlt⟩ :=
      intern (.steady hv) d (d.intern v).1 (d.intern v).2 hsize hd rfl
    cases hstep
    exact ⟨hgrow, hd', .of_parts hlt nofun⟩

/-- Steps over a list, one for each member: what holds of a member holds over all later pools. -/
theorem mapM {as : List α} {f : α → Lowering β} {R : Nat → β → Prop}
    (hf : ∀ a ∈ as, ∀ size', size ≤ size' → Yields size' (f a) R)
    (hmono : ∀ n n' b, R n b → n ≤ n' → R n' b) :
    Yields size (as.mapM f) fun size' bs => ∀ b ∈ bs, R size' b := by
  induction as generalizing size with
  | nil => exact .pure fun _ _ _ hb => absurd hb List.not_mem_nil
  | cons a as ih =>
    rw [List.forall_mem_cons] at hf
    rw [List.mapM_cons]
    refine .bind (hf.1 size (Nat.le_refl _)) fun b size' hle hb => ?_
    refine .bind (ih fun a ha n hn => hf.2 a ha n (Nat.le_trans hle hn))
      fun bs size'' hle' hbs => ?_
    refine .pure fun n hn =>
      List.forall_mem_cons.mpr ⟨hmono _ _ b hb (Nat.le_trans hle' hn), ?_⟩
    exact fun b hb => hmono _ _ b (hbs b hb) hn

theorem optional {o : Option α} {f : α → Lowering β} {R : Nat → β → Prop}
    (hf : ∀ a, Yields size (f a) R) (hmono : ∀ n n' b, R n b → n ≤ n' → R n' b) :
    Yields size (o.mapM f) fun size' out => ∀ b, out = some b → R size' b := by
  cases o with
  | none => exact .pure fun _ _ => nofun
  | some a =>
    refine .bind (hf a) fun b size' _ hb => .pure fun n hn c hc => ?_
    cases hc
    exact hmono _ _ b hb hn

end Yields

end Lowering

open Lowering (Yields)

/-! ### Closed forms -/

namespace Fragment

/-- Code that is closed over a pool of some size, and a known value without functions that is the
same as itself. -/
structure Closed (size : Nat) (f : Fragment) : Prop where
  code : f.code.Closed size
  known : ∀ v, f.constant = some v → v.Steady

variable {size size' : Nat} {f l r : Fragment}

namespace Closed

theorem mono (h : f.Closed size) (hsize : size ≤ size') : f.Closed size' :=
  ⟨h.code.mono hsize, h.known⟩

theorem computed {c : Code} {type : Ty} (h : c.Closed size) : (computed c type).Closed size :=
  ⟨h, nofun⟩

theorem nonNull (h : f.Closed size) : f.nonNull.Closed size := ⟨h.code, h.known⟩

theorem withNullable {nullable : Bool} (h : f.Closed size) :
    (f.withNullable nullable).Closed size := by
  cases nullable with
  | true => exact ⟨h.code, h.known⟩
  | false => exact h.nonNull

theorem nonNullIf {p : Prop} [Decidable p] (h : f.Closed size) :
    (if p then f.nonNull else f).Closed size := by
  split
  · exact h.nonNull
  · exact h

theorem withType (h : f.Closed size) (type : Ty) :
    ({ f with type := type } : Fragment).Closed size :=
  ⟨h.code, h.known⟩

theorem null : Fragment.null.Closed size :=
  ⟨.const .null, fun _ hv => Option.some.inj hv ▸ .null⟩

theorem value? {options : Options} {v : Value} (h : f.Closed size)
    (hv : f.value? options = some v) : v.Steady :=
  h.known v (constant_of_value? hv)

/-- An argument is brought to the type of a parameter, which is no binary64 number in the strict
reading, unless the argument is of that type. -/
theorem convertTo {param : Ty} (h : f.Closed size)
    (hparam : strict → param.makesDouble = false ∨ f.type = param) :
    (f.convertTo param).Closed size := by
  have hconverted : f.type.compat param ≠ .equal →
      (Fragment.computed (.convert f.code param) param).Closed size := fun hcompat => by
    refine computed (.one h.code rfl fun hstrict => ?_)
    rcases hparam hstrict with hkind | htype
    · exact hkind
    · cases hkind : param.makesDouble with
      | false => rfl
      | true => exact absurd (Ty.compat_self_of_makesDouble hkind) (htype ▸ hcompat)
  unfold Fragment.convertTo
  split
  · next hcompat =>
    split
    · exact h
    · exact hconverted (by rw [hcompat]; exact nofun)
  · next hcompat =>
    split
    · exact h
    · exact hconverted (by rw [hcompat]; exact nofun)
  · exact h

end Closed

theorem convertAll_closed {args : List Fragment} {signature : Ty}
    (h : ∀ f ∈ args, f.Closed size)
    (hsignature : strict → signature.KeepsDoubles (args.map (·.type))) :
    ∀ f ∈ convertAll args signature, f.Closed size := by
  unfold convertAll
  split
  · next params _ _ =>
    intro f hf
    obtain ⟨pair, hpair, rfl⟩ := List.mem_map.mp hf
    refine (h _ (List.of_mem_zip hpair).1).convertTo fun hstrict => ?_
    refine hsignature hstrict _ _ _ rfl (pair.1.type, pair.2) ?_
    rw [List.zip_map_left]
    exact List.mem_map.mpr ⟨pair, hpair, rfl⟩
  · exact h

theorem values?_steady {options : Options} {fs : List Fragment} {vs : List Value}
    (h : ∀ f ∈ fs, f.Closed size) (hvs : values? options fs = some vs) : ∀ v ∈ vs, v.Steady := by
  unfold values? at hvs
  split at hvs
  · induction fs generalizing vs with
    | nil =>
      cases hvs
      exact nofun
    | cons f fs ih =>
      rw [List.forall_mem_cons] at h
      rw [List.mapM_cons] at hvs
      obtain ⟨v, hv, hvs⟩ := Option.bind_eq_some_iff.mp hvs
      obtain ⟨rest, hrest, hvs⟩ := Option.bind_eq_some_iff.mp hvs
      cases hvs
      exact List.forall_mem_cons.mpr ⟨h.1.known v hv, ih h.2 hrest⟩
  · cases hvs

theorem yields_ofConstant {v : Value} (hv : v.Steady) (type : Ty) :
    Yields size (ofConstant v type) Closed :=
  .bind (.constantCode hv) fun _ _ _ hc => .pure fun _ hn =>
    ⟨hc.mono hn, fun _ hw => Option.some.inj hw ▸ hv⟩

/-! ### Operators -/

/-- A known value without functions that is the same as itself, or a closed fragment. -/
def OutcomeClosed (size : Nat) : Outcome → Prop
  | .value v _ => v.Steady
  | .fragment f => f.Closed size

theorem yields_emit {outcome : Outcome} (h : OutcomeClosed size outcome) :
    Yields size outcome.emit Closed := by
  cases outcome with
  | value v type => exact yields_ofConstant h type
  | fragment f => exact .pure fun _ hn => Closed.mono h hn

section

variable (options : Options) (op : Operator) (hl : l.Closed size) (hr : r.Closed size)
include hl hr

theorem equality_closed : OutcomeClosed size (equality options op l r) := by
  unfold equality
  dsimp only
  split
  · exact .boolean _
  · split
    · exact .equality ..
    · exact .nonNull (.computed (.two hl.code hr.code rfl trivial))

theorem connective_closed : OutcomeClosed size (connective options op l r) := by
  unfold connective
  split
  · exact .logic ..
  · split
    · exact .boolean _
    · exact .nonNullIf (.computed (.two hl.code hr.code rfl trivial))

theorem comparison_closed : OutcomeClosed size (comparison options op l r) := by
  unfold comparison
  dsimp only
  split
  · exact .compareAs ..
  · exact .nonNullIf (.computed (.two hl.code hr.code rfl trivial))

theorem arithmetic_closed : OutcomeClosed size (arithmetic options op l r) := by
  unfold arithmetic
  dsimp only
  split
  · exact .arith ..
  · exact .withNullable (.computed (.two hl.code hr.code rfl trivial))

theorem concatenation_closed : OutcomeClosed size (concatenation options l r) := by
  unfold concatenation
  split
  · exact .concat ..
  · exact .withNullable (.computed (.two hl.code hr.code rfl trivial))

theorem temporal_closed : OutcomeClosed size (temporal options op l r) := by
  unfold temporal
  dsimp only
  split
  · exact .temporal ..
  · exact .computed (.two hl.code hr.code rfl trivial)

/-- Whatever rule covers an operator. -/
theorem outcome?_closed {outcome : Outcome} (h : outcome? options op l r = some outcome) :
    OutcomeClosed size outcome := by
  cases rule_of_outcome? h with
  | equality _ => exact equality_closed options op hl hr
  | connective _ => exact connective_closed options op hl hr
  | comparison _ _ => exact comparison_closed options op hl hr
  | arithmetic _ _ _ _ => exact arithmetic_closed options op hl hr
  | concatenation _ _ => exact concatenation_closed options hl hr
  | temporal _ => exact temporal_closed options op hl hr

theorem yields_binary (span : Span) : Yields size (binary options span op l r) Closed := by
  unfold binary
  split
  · next outcome houtcome => exact yields_emit (outcome?_closed options op hl hr houtcome)
  · dsimp only
    split
    · exact .pure fun _ hn => .mono (.computed (.two hl.code hr.code rfl trivial)) hn
    · split
      · exact .pure fun _ _ => .null
      · exact .throw

end

end Fragment

/-! ### Parts -/

namespace Lower

open Fragment (yields_ofConstant yields_binary)

/-- Where the only functions are the built-in ones a part is lowered to closed code. -/
def Closes (S : Scope) (l : Lower) : Prop :=
  ∀ (L : Scope) (size : Nat), S.Reaches L → Yields size (l L) Fragment.Closed

variable {S L : Scope} {size : Nat}

theorem yields_all {ls : List Lower} (h : ∀ l ∈ ls, Closes S l) (hL : S.Reaches L) (size : Nat) :
    Yields size (all L ls) fun n fs => ∀ f ∈ fs, f.Closed n := by
  induction ls generalizing size with
  | nil => exact .pure fun _ _ _ hf => absurd hf List.not_mem_nil
  | cons l ls ih =>
    rw [List.forall_mem_cons] at h
    refine .bind (h.1 L size hL) fun f n _ hf => .bind (ih h.2 n) fun fs n' hle hfs => ?_
    refine .pure fun n'' hle' => List.forall_mem_cons.mpr ⟨hf.mono (Nat.le_trans hle hle'), ?_⟩
    exact fun g hg => (hfs g hg).mono hle'

/-- Parts of known types, where these matter. -/
theorem yields_typedAll {ls : List Lower} {types : List Ty} (h : ∀ l ∈ ls, Closes S l)
    (htypes : strict → List.Forall₂ (HasType S) ls types) (hL : S.Reaches L) (size : Nat) :
    Yields size (all L ls) fun n fs =>
      (∀ f ∈ fs, f.Closed n) ∧ (strict → fs.map (·.type) = types) := by
  intro d fs d' hsize hd hrun
  obtain ⟨hgrow, hd', hfs⟩ := yields_all h hL size d fs d' hsize hd hrun
  exact ⟨hgrow, hd', hfs, fun hstrict => types_of_all (htypes hstrict) hL hrun⟩

theorem codes_closed {fs : List Fragment} (h : ∀ f ∈ fs, f.Closed size) :
    ∀ c ∈ fs.map (·.code), c.Closed size := by
  intro c hc
  obtain ⟨f, hf, rfl⟩ := List.mem_map.mp hc
  exact (h f hf).code

/-! ### Structures -/

theorem closes_list {items : List Lower} (h : ∀ l ∈ items, Closes S l) (type : Ty) :
    Closes S (list items type) := by
  intro L size hL
  refine .bind (yields_all h hL size) fun fs n _ hfs => ?_
  split
  · next vs hvs => exact yields_ofConstant (.list (Fragment.values?_steady hfs hvs)) _
  · refine .pure fun n' hle => .mono (.nonNull (.computed ?_)) hle
    exact .of_parts trivial (codes_closed hfs)

theorem closes_context {entries : List (String × Lower)} (h : ∀ e ∈ entries, Closes S e.2)
    (type : Ty) : Closes S (context entries type) := by
  intro L size hL
  refine .bind (yields_all (List.forall_mem_map.mpr h) hL size) fun fs n _ hfs => ?_
  split
  · next vs hvs =>
    refine yields_ofConstant (.ofList fun e he => ?_) _
    exact Fragment.values?_steady hfs hvs _ (List.of_mem_zip he).2
  · refine .pure fun n' hle => .mono (.nonNull (.computed ?_)) hle
    refine .of_parts trivial fun c hc => ?_
    obtain ⟨e, he, rfl⟩ := List.mem_map.mp hc
    exact codes_closed hfs _ (List.of_mem_zip he).2

theorem operands?_steady {options : Options} {l r : Fragment} {a b : Value}
    (hl : l.Closed size) (hr : r.Closed size)
    (h : Fragment.operands? options l r = some (a, b)) : a.Steady ∧ b.Steady := by
  obtain ⟨ha, hb⟩ := Fragment.constants_of_operands? h
  exact ⟨hl.known a ha, hr.known b hb⟩

theorem closes_range {start finish : Lower} (hs : Closes S start) (hf : Closes S finish)
    (si ei : Bool) (type : Ty) : Closes S (range start finish si ei type) := by
  intro L size hL
  refine .bind (hs L size hL) fun s n _ hs' => .bind (hf L n hL) fun f n' hle hf' => ?_
  have hs' := hs'.mono hle
  split
  · next a b hab =>
    obtain ⟨ha, hb⟩ := operands?_steady hs' hf' hab
    exact yields_ofConstant (.range (fun _ hv => Option.some.inj hv ▸ ha)
      fun _ hv => Option.some.inj hv ▸ hb) _
  · exact .pure fun _ hle' =>
      .mono (.nonNull (.computed (.two hs'.code hf'.code rfl trivial))) hle'

/-! ### Operators -/

theorem closes_binary (op : Operator) {left right : Lower} (hl : Closes S left)
    (hr : Closes S right) (span : Span) : Closes S (binary op left right span) := fun L size hL =>
  .bind (hl L size hL) fun _ n _ hl' => .bind (hr L n hL) fun _ _ hle hr' =>
    yields_binary _ op (hl'.mono hle) hr' span

theorem closes_negation {operand : Lower} (h : Closes S operand) (type : Ty) :
    Closes S (negation operand type) := by
  intro L size hL
  refine .bind (h L size hL) fun f n _ hf => ?_
  split
  · next v hv => exact yields_ofConstant (hf.value? hv).negate _
  · exact .pure fun _ hle =>
      .mono (.withNullable (.computed (.one hf.code rfl trivial))) hle

theorem closes_between {value low high : Lower} (hv : Closes S value) (hl : Closes S low)
    (hh : Closes S high) : Closes S (between value low high) := by
  intro L size hL
  refine .bind (hv L size hL) fun v n _ hv' => .bind (hl L n hL) fun l n' hle hl' => ?_
  refine .bind (hh L n' hL) fun u n'' hle' hu' => .pure fun _ hle'' => ?_
  have hv' := hv'.mono (Nat.le_trans hle hle')
  exact .mono (.computed (.three hv'.code (hl'.mono hle').code hu'.code rfl trivial)) hle''

theorem closes_isIn {value tests : Lower} (hv : Closes S value) (ht : Closes S tests) :
    Closes S (isIn value tests) := fun L size hL =>
  .bind (hv L size hL) fun v n _ hv' => .bind (ht _ n (hL.withTest v.type)) fun _ _ hle ht' =>
    .pure fun _ hle' => .mono (.computed (.two (hv'.mono hle).code ht'.code rfl trivial)) hle'

theorem closes_instanceOf {value : Lower} (h : Closes S value) (target : Ty) :
    Closes S (instanceOf value target) := by
  intro L size hL
  refine .bind (h L size hL) fun f n _ hf => ?_
  split
  · exact yields_ofConstant (.boolean _) _
  · exact .pure fun _ hle => .mono (.nonNull (.computed (.one hf.code rfl trivial))) hle

/-! ### Control -/

theorem closes_ite {condition yes no : Lower} (hc : Closes S condition) (hy : Closes S yes)
    (hn : Closes S no) (type : Ty) : Closes S (ite condition yes no type) := by
  intro L size hL
  refine .bind (hc L size hL) fun c n _ hc' => .bind (hy L n hL) fun y n' hle hy' => ?_
  refine .bind (hn L n' hL) fun no n'' hle' hn' => ?_
  have hc' := hc'.mono (Nat.le_trans hle hle')
  have hy' := hy'.mono hle'
  split
  · refine .pure fun _ hle'' => Fragment.Closed.withType (Fragment.Closed.mono ?_ hle'') type
    split
    · exact hy'
    · exact hn'
  · exact .pure fun _ hle'' =>
      .mono (.withNullable (.computed (.three hc'.code hy'.code hn'.code rfl trivial))) hle''

/-- What a binding runs over is lowered to closed code. -/
structure DomainCloses (S : Scope) (part : DomainPart) : Prop where
  whole : Closes S part.whole
  bounds : ∀ b, part.bounds = some b → Closes S b.start ∧ Closes S b.finish

theorem stepCode_closed (element : Ty) (cursor : String) (offset : Int) :
    (stepCode element cursor offset).Closed size := by
  have hlocal : (Code.local cursor).Closed size := .of_parts trivial nofun
  have hoffset : (Code.const (.int offset)).Closed size := .const (.int _)
  have hdays : (Code.const (.dayTimeDuration (offset * dayNanos))).Closed size :=
    .const (.dayTimeDuration _)
  unfold stepCode
  split
  · exact .two hlocal hoffset rfl trivial
  · exact .two hlocal hdays rfl trivial

theorem yields_domain {part : DomainPart} (h : DomainCloses S part) (hL : S.Reaches L)
    (size : Nat) : Yields size (domain part L) fun n d => ∀ c ∈ d.cells, c.Closed n := by
  have hvalues : ∀ size, Yields size (do return Domain.values (← part.whole L).code)
      fun n d => ∀ c ∈ d.cells, c.Closed n := fun size =>
    .bind (h.whole L size hL) fun _ _ _ hf => .pure fun _ hle =>
      List.forall_mem_singleton.mpr (hf.mono hle).code
  unfold domain
  split
  · exact hvalues size
  · next b hb =>
    obtain ⟨hs, hf⟩ := h.bounds b hb
    refine .bind (hs L size hL) fun s n _ hs' => .bind (hf L n hL) fun f n' hle hf' => ?_
    split
    · refine .bind (.fresh _) fun cursor n'' hle' _ => .pure fun m hle'' => ?_
      have hsm := (hs'.mono (Nat.le_trans hle (Nat.le_trans hle' hle''))).code
      have hfm := (hf'.mono (Nat.le_trans hle' hle'')).code
      simp only [Domain.cells, List.forall_mem_cons]
      exact ⟨hsm, hfm, stepCode_closed _ _ _, stepCode_closed _ _ _, nofun⟩
    · exact hvalues n'

theorem yields_bindings {parts : List DomainPart} (h : ∀ part ∈ parts, DomainCloses S part)
    (hL : S.Reaches L) (size : Nat) : Yields size (bindings L parts)
      fun n bs => ∀ c ∈ bs.flatMap (·.domain.cells), c.Closed n := by
  induction parts generalizing size with
  | nil => exact .pure fun _ _ => nofun
  | cons part parts ih =>
    rw [List.forall_mem_cons] at h
    refine .bind (yields_domain h.1 hL size) fun d n _ hd => ?_
    refine .bind (ih h.2 n) fun bs n' hle hbs => ?_
    refine .pure fun n'' hle' => ?_
    rw [List.flatMap_cons, List.forall_mem_append]
    exact ⟨fun c hc => (hd c hc).mono (Nat.le_trans hle hle'), fun c hc => (hbs c hc).mono hle'⟩

theorem closes_forIn {parts : List DomainPart} (h : ∀ part ∈ parts, DomainCloses S part)
    {body : Lower} (hb : Closes S body) (type : Ty) : Closes S (forIn parts body type) := by
  intro L size hL
  refine .bind (yields_bindings h hL size) fun bs n _ hbs => .bind (hb L n hL) fun f n' hle hf => ?_
  refine .pure fun _ hle' => .mono (.nonNull (.computed (.of_parts ?_ ?_))) hle'
  · trivial
  · exact List.forall_mem_append.mpr ⟨fun c hc => (hbs c hc).mono hle,
      List.forall_mem_singleton.mpr hf.code⟩

theorem closes_quantified (every : Bool) {parts : List DomainPart}
    (h : ∀ part ∈ parts, DomainCloses S part) {condition : Lower} (hc : Closes S condition) :
    Closes S (quantified every parts condition) := by
  intro L size hL
  refine .bind (yields_bindings h hL size) fun bs n _ hbs => .bind (hc L n hL) fun f n' hle hf => ?_
  refine .pure fun _ hle' => .mono (.computed (.of_parts ?_ ?_)) hle'
  · trivial
  · exact List.forall_mem_append.mpr ⟨fun c hc => (hbs c hc).mono hle,
      List.forall_mem_singleton.mpr hf.code⟩

theorem closes_filter {source filter : Lower} (hs : Closes S source) (hf : Closes S filter)
    (kind : FilterKind) (type : Ty) : Closes S (Lower.filter source filter kind type) :=
  fun L size hL => .bind (hs L size hL) fun _ n _ hs' => .bind (hf L n hL) fun _ _ hle hf' =>
    .pure fun _ hle' => .mono (.computed (.two (hs'.mono hle).code hf'.code rfl trivial)) hle'

theorem closes_path {source : Lower} (h : Closes S source) (member : String) (span : Span) :
    Closes S (path source member span) := by
  intro L size hL
  refine .bind (h L size hL) fun f n _ hf => ?_
  split
  · exact .pure fun _ hle => .mono (.computed (.one hf.code rfl trivial)) hle
  · exact .throw

/-! ### Functions and names -/

theorem closes_function (hlax : ¬ strict) (params : List (String × Ty)) {body : Lower}
    (h : Closes S body) (type : Ty) : Closes S (function params body type) := fun L size hL =>
  .bind (h L size hL) fun _ _ _ hf => .pure fun _ hle =>
    .mono (.nonNull (.computed (.one hf.code rfl hlax))) hle

/-- Calls of built-in functions are closed. -/
theorem yields_lower? {name : String} {args : List Fragment} (h : ∀ f ∈ args, f.Closed size)
    {x : Lowering Fragment} (hx : Libraries.lower? [.builtins] name args = some x) :
    Yields size x Fragment.Closed := by
  rw [Libraries.lower?, List.findSome?_singleton] at hx
  obtain ⟨f, hf, hx⟩ := Option.bind_eq_some_iff.mp hx
  have hcodes := codes_closed h
  dsimp only at hx
  split at hx
  · next code hcode =>
    cases hx
    rw [hcode, List.forall_mem_singleton] at hcodes
    exact .pure fun _ hle => .mono (.computed (.one hcodes rfl trivial)) hle
  · cases hx
    refine .pure fun _ hle => .mono (.computed (.of_parts ?_ ?_)) hle
    · exact Option.isSome_iff_exists.mpr ⟨_, hf⟩
    · exact hcodes

theorem closes_named {args : List Lower} (h : ∀ l ∈ args, Closes S l) {types : List Ty}
    (htypes : strict → List.Forall₂ (HasType S) args types) (name : String) {signature : Ty}
    (hsignature : signature.KeepsDoubles types) (names : Option (List String)) (type : Ty)
    (span : Span) : Closes S (invocation (.named name signature) args names type span) := by
  intro L size hL
  refine .bind (yields_typedAll h htypes hL size) fun fs n _ ⟨hfs, htyped⟩ => ?_
  dsimp only
  split
  · exact .throw
  · next lowered hlowered =>
    rw [hL.libraries] at hlowered
    have hargs := Fragment.convertAll_closed hfs fun hstrict => (htyped hstrict).symm ▸ hsignature
    refine .bind (yields_lower? hargs hlowered) fun f n' _ hf => ?_
    split
    · exact .pure fun _ hle => (hf.withType type).mono hle
    · exact .pure fun _ hle => hf.mono hle

theorem closes_value {callee : Lower} (hc : Closes S callee) {args : List Lower}
    (h : ∀ l ∈ args, Closes S l) (names : Option (List String)) (type : Ty) (span : Span) :
    Closes S (invocation (.value callee) args names type span) := by
  intro L size hL
  refine .bind (yields_all h hL size) fun fs n _ hfs => .bind (hc L n hL) fun f n' hle hf => ?_
  refine .pure fun _ hle' => .mono (.computed (.of_parts ?_ ?_)) hle'
  · trivial
  · exact List.forall_mem_cons.mpr ⟨hf.code, codes_closed fun g hg => (hfs g hg).mono hle⟩

/-- Built-in functions that are named as values exist. -/
theorem value?_closed {name : String} {f : FunctionValue}
    (h : Libraries.value? [.builtins] name = some f) : Datum.Closed (.function f) := by
  rw [Libraries.value?, List.findSome?_singleton] at h
  obtain ⟨b, hb, rfl⟩ := Option.map_eq_some_iff.mp h
  have hmem : b ∈ Builtin.functions := List.mem_of_find?_eq_some hb
  exact .builtin (List.find?_isSome.mpr ⟨b, hmem, beq_self_eq_true b.name⟩)

theorem closes_name (name : String) (origin : Origin) (type : Ty) (span : Span) :
    Closes S (Lower.name name origin type span) := by
  intro L size hL
  have hleaf : ∀ {c : Code}, c.children = [] → c.OwnClosed size →
      Yields size (Pure.pure (Fragment.computed c type)) Fragment.Closed := fun hchildren hown =>
    .pure fun _ hle => .mono (.computed (.of_parts hown (by simp [hchildren]))) hle
  cases origin with
  | bound => exact hleaf rfl trivial
  | input => exact hleaf rfl trivial
  | dynamic => exact hleaf rfl trivial
  | function =>
    unfold Lower.name
    dsimp only
    split
    · exact .throw
    · next f hf =>
      rw [hL.libraries] at hf
      refine .bind (.intern (value?_closed hf)) fun i n _ hi => .pure fun _ hle => ?_
      have hcode : (Code.constRef i).Closed n := .of_parts hi nofun
      exact .mono (.nonNull (.computed hcode)) hle

/-! ### Unary tests -/

theorem testInput_closed (type : Ty) : (Fragment.computed .testInput type).Closed size := by
  have hcode : Code.testInput.Closed size := .of_parts trivial nofun
  exact .computed hcode

theorem closes_comparison (op : Operator) {value : Lower} (h : Closes S value) (span : Span) :
    Closes S (comparison op value span) := fun L size hL =>
  .bind (h L size hL) fun _ _ _ hf => yields_binary _ op (testInput_closed _) hf span

theorem yields_matching (options : Options) (span : Span) (subject : Ty) {f : Fragment}
    (h : f.Closed size) : Yields size (matching options span subject f) Fragment.Closed := by
  have hequal := yields_binary options .eq (testInput_closed subject) h span
  have htest : Code.testInput.Closed size := (testInput_closed subject).code
  have hwhole : ∀ {c : Code}, c.Closed size →
      Yields size (Pure.pure (Fragment.computed c .boolean)) Fragment.Closed := fun hc =>
    .pure fun _ hle => .mono (.computed hc) hle
  unfold matching
  dsimp only
  split
  · split
    · exact hequal
    · exact hwhole (.two h.code htest rfl trivial)
  · exact hwhole (.two h.code htest rfl trivial)
  · split
    · exact hwhole (.one h.code rfl trivial)
    · split
      · exact hequal
      · exact .pure fun _ hle => h.mono hle
  · exact hwhole (.one h.code rfl trivial)
  · exact hequal

theorem yields_test {part : TestPart} (h : Closes S part.lower) (hL : S.Reaches L) (size : Nat) :
    Yields size (test L part) Fragment.Closed := by
  refine .bind (h L size hL) fun f n _ hf => ?_
  split
  · exact .pure fun _ hle => hf.mono hle
  · exact yields_matching _ _ _ hf

theorem yields_anyOf {parts : List TestPart} (h : ∀ part ∈ parts, Closes S part.lower)
    (hL : S.Reaches L) (span : Span) {f : Fragment} (hf : f.Closed size) :
    Yields size (anyOf L span f parts) Fragment.Closed := by
  induction parts generalizing f size with
  | nil => exact .pure fun _ hle => hf.mono hle
  | cons part parts ih =>
    rw [List.forall_mem_cons] at h
    exact .bind (yields_test h.1 hL size) fun _ _ hle hg =>
      .bind (yields_binary _ .or (hf.mono hle) hg span) fun _ _ _ hboth => ih h.2 hboth

theorem closes_tests (negated : Bool) {parts : List TestPart}
    (h : ∀ part ∈ parts, Closes S part.lower) (span : Span) :
    Closes S (tests negated parts span) := by
  intro L size hL
  have hdisjunction : Yields size (disjunction L span parts) Fragment.Closed := by
    cases parts with
    | nil => exact yields_ofConstant (.boolean _) _
    | cons part parts =>
      rw [List.forall_mem_cons] at h
      exact .bind (yields_test h.1 hL size) fun f _ _ hf => yields_anyOf h.2 hL span hf
  refine .bind hdisjunction fun f n _ hf => ?_
  split
  · exact .pure fun _ hle => hf.mono hle
  · split
    · exact yields_ofConstant (.not _) _
    · exact .pure fun _ hle => .mono (.computed (.one hf.code rfl trivial)) hle

end Lower

/-! ### Terms -/

namespace Term

open Lower (DomainCloses)

/-- A term is lowered to closed code, and so are its bounds, if it is written as a range. -/
structure Closes (S : Scope) (t : Term) : Prop where
  whole : Lower.Closes S (Fragment.ofTerm t)
  bounds : ∀ b, Fragment.ofBounds t = some b → Lower.Closes S b.start ∧ Lower.Closes S b.finish

theorem Closes.domain {its : List (Iteration Term)} (h : ∀ t ∈ its.map (·.domain), t.Closes S) :
    ∀ part ∈ Fragment.ofIterations its, DomainCloses S part := by
  intro part hpart
  obtain ⟨t, ht, hwhole, hbounds⟩ := Fragment.mem_ofIterations hpart
  refine ⟨hwhole ▸ (h t ht).whole, fun b hb => ?_⟩
  rw [hbounds] at hb
  exact (h t ht).bounds b hb

theorem Closes.list {ts : List Term} (h : ∀ t ∈ ts, t.Closes S) :
    ∀ l ∈ Fragment.ofList ts, Lower.Closes S l := by
  intro l hl
  obtain ⟨t, ht, rfl⟩ := Fragment.mem_ofList hl
  exact (h t ht).whole

/-- A node that defines no function and, if it calls a function by name, has arguments that are
lowered at their types. -/
def OwnExact (S : Scope) (t : Term) : Prop :=
  match t.shape with
  | .function _ _ => False
  | .invocation (.named _ _) args _ => ∀ s ∈ args, Lower.HasType S (Fragment.ofTerm s) s.type
  | _ => True

theorem closes_of_parts (shape : Shape Term) {type : Ty} {span : Span}
    {comments warnings : List String}
    (htyped : (node shape type span comments warnings).TypedAsMade)
    (hexact : strict → (node shape type span comments warnings).OwnExact S)
    (h : ∀ s ∈ (node shape type span comments warnings).parts, s.Closes S) :
    Lower.Closes S (Fragment.ofShape type span shape) := by
  cases shape with
  | null => exact fun _ _ _ => .pure fun _ _ => .null
  | boolean b => exact fun _ _ _ => Fragment.yields_ofConstant (.boolean b) _
  | number n =>
    obtain ⟨-, text, hn⟩ := htyped
    exact fun _ _ _ => Fragment.yields_ofConstant (.number (Number.equal_self_of_literal? hn)) _
  | string s => exact fun _ _ _ => Fragment.yields_ofConstant (.string s) _
  | temporal v =>
    obtain ⟨-, text, hv⟩ := htyped
    exact fun _ _ _ => Fragment.yields_ofConstant (.of_parseTemporal? hv) _
  | dash => exact fun _ _ _ => Fragment.yields_ofConstant (.boolean true) _
  | testInput => exact fun _ _ _ => .pure fun _ _ => Lower.testInput_closed type
  | name name origin => exact Lower.closes_name name origin type span
  | list items => exact Lower.closes_list (Closes.list h) type
  | context entries =>
    refine Lower.closes_context (fun e he => ?_) type
    obtain ⟨t, ht, heq⟩ := Fragment.mem_ofEntries he
    rw [heq]
    exact (h t ht).whole
  | range start finish si ei =>
    have hs := h start (by simp [parts, Term.shape])
    have hf := h finish (by simp [parts, Term.shape])
    exact Lower.closes_range hs.whole hf.whole si ei type
  | binary op left right =>
    have hl := h left (by simp [parts, Term.shape])
    have hr := h right (by simp [parts, Term.shape])
    exact Lower.closes_binary op hl.whole hr.whole span
  | negation operand =>
    exact Lower.closes_negation (h operand (by simp [parts, Term.shape])).whole type
  | between value low high =>
    have hv := h value (by simp [parts, Term.shape])
    have hl := h low (by simp [parts, Term.shape])
    have hh := h high (by simp [parts, Term.shape])
    exact Lower.closes_between hv.whole hl.whole hh.whole
  | isIn value tests =>
    have hv := h value (by simp [parts, Term.shape])
    have ht := h tests (by simp [parts, Term.shape])
    exact Lower.closes_isIn hv.whole ht.whole
  | instanceOf value target =>
    exact Lower.closes_instanceOf (h value (by simp [parts, Term.shape])).whole target
  | ite condition yes no =>
    have hc := h condition (by simp [parts, Term.shape])
    have hy := h yes (by simp [parts, Term.shape])
    have hn := h no (by simp [parts, Term.shape])
    exact Lower.closes_ite hc.whole hy.whole hn.whole type
  | forIn its body =>
    have hits := Closes.domain fun t ht => h t (List.mem_append_left _ ht)
    exact Lower.closes_forIn hits (h body (by simp [parts, Term.shape])).whole type
  | quantified every its condition =>
    have hits := Closes.domain fun t ht => h t (List.mem_append_left _ ht)
    exact Lower.closes_quantified every hits (h condition (by simp [parts, Term.shape])).whole
  | filter source filter kind =>
    have hs := h source (by simp [parts, Term.shape])
    have hf := h filter (by simp [parts, Term.shape])
    exact Lower.closes_filter hs.whole hf.whole kind type
  | function params body =>
    exact Lower.closes_function hexact params (h body (by simp [parts, Term.shape])).whole type
  | invocation callee args names =>
    cases callee with
    | named name signature =>
      have htypes : strict → List.Forall₂ (Lower.HasType S) (Fragment.ofList args)
          (args.map (·.type)) := fun hstrict => hasTypes_ofList (hexact hstrict)
      exact Lower.closes_named (Closes.list h) htypes name htyped names type span
    | value callee =>
      have hc := h callee (by simp [parts, Term.shape])
      have hargs := Closes.list fun t ht => h t (List.mem_cons_of_mem _ ht)
      exact Lower.closes_value hc.whole hargs names type span
  | path source member =>
    exact Lower.closes_path (h source (by simp [parts, Term.shape])).whole member span
  | tests negated tests =>
    refine Lower.closes_tests negated (fun part hpart => ?_) span
    obtain ⟨t, ht, rfl⟩ := Fragment.mem_ofTests hpart
    exact (h t ht).whole
  | comparison op value =>
    exact Lower.closes_comparison op (h value (by simp [parts, Term.shape])).whole span

/-- **Terms that are typed as they are made are lowered to closed code**, and so are all their
parts. In the strict reading they define no function. -/
theorem Typed.closes {t : Term} (h : t.Typed)
    (hexact : t.Everywhere fun s => strict → s.OwnExact S) : t.Everywhere (Closes S) := by
  have hnodes := h.and hexact
  clear h hexact
  induction hnodes with
  | @intro t hnode _ hparts =>
    obtain ⟨shape, type, span, comments, warnings⟩ := t
    obtain ⟨htyped, hexact⟩ := hnode
    have ih : ∀ s ∈ (node shape type span comments warnings).parts, s.Closes S :=
      fun s hs => (hparts s hs).here
    refine .intro ⟨closes_of_parts shape htyped hexact ih, fun b hb => ?_⟩ hparts
    cases shape with
    | range start finish si ei =>
      cases hb
      exact ⟨(ih start (by simp [parts, Term.shape])).whole,
        (ih finish (by simp [parts, Term.shape])).whole⟩
    | _ => cases hb

end Term

end Strict

open Lowering (Yields)

namespace Term

theorem Typed.closes_lax {t : Term} (h : t.Typed) : @Closes .lax S t :=
  (@closes .lax S t h (h.imp fun _ _ => False.elim)).here

/-- Terms of unary tests are typed as they are made. -/
theorem ofTests_typed (source : String) (tree : Surface) :
    Elaboration.Typed (Term.ofTests source tree) :=
  ofTests_makes source Scope.OnlyBuiltins.nodeLaw tree

end Term

/-! ### Texts -/

namespace Fragment

variable {S : Scope} (hS : S.OnlyBuiltins) (size : Nat)
include hS

theorem yields_ofWarnedTerm {term : Term} (h : term.Typed) :
    Yields size (ofWarnedTerm term S) Closed :=
  .bind (.warn _) fun _ _ _ _ => h.closes_lax.whole S _ (.refl hS)

theorem yields_ofExpression (source : String) : Yields size (ofExpression source S) Closed :=
  .bind (P := fun _ _ => True) (.lift fun _ _ _ => .intro) fun tree _ _ _ =>
    .bind (P := fun _ (term : Term) => term.Typed)
      (.lift fun term _ hterm => Term.ofSurface_typed source tree S term hS hterm)
      fun _ n' _ hterm => yields_ofWarnedTerm hS n' hterm

theorem yields_ofTestsTree (source : String) (tree : Surface) :
    Yields size (ofTestsTree source tree S) Closed :=
  .bind (P := fun _ (term : Term) => term.Typed)
    (.lift fun term _ hterm => Term.ofTests_typed source tree S term hS hterm)
    fun _ n _ hterm => yields_ofWarnedTerm hS n hterm

theorem yields_ofTestsText (source : String) : Yields size (ofTestsText source S) Closed :=
  .bind (P := fun _ _ => True) (.lift fun _ _ _ => .intro) fun tree n _ _ =>
    yields_ofTestsTree hS n source tree

/-! ### Tables -/

theorem yields_testsOn (subject : Ty) (source : String) :
    Yields size (testsOn subject source S) fun n c => c.Closed n :=
  .bind (yields_ofTestsText (hS.withTest subject) size source) fun _ _ _ hf =>
    .pure fun _ hle => (hf.mono hle).code

/-- The code of an input column is closed. -/
structure ColumnClosed (n : Nat) (column : InputColumn) : Prop where
  code : column.code.Closed n
  allowed : ∀ c, column.allowed = some c → c.Closed n

/-- The code of an output column is closed. -/
structure OutputClosed (n : Nat) (column : MatrixOutput Code) : Prop where
  check : ∀ c, column.check = some c → c.Closed n
  priorities : ∀ c ∈ column.priorities, c.Closed n
  fallback : ∀ c, column.fallback = some c → c.Closed n

/-- The code of a rule is closed. -/
structure RuleClosed (n : Nat) (rule : MatrixRule Code) : Prop where
  conditions : ∀ c ∈ rule.conditions, c.Closed n
  outputs : ∀ c ∈ rule.outputs, c.Closed n

omit hS in
theorem ColumnClosed.mono {n n' : Nat} {column : InputColumn} (h : ColumnClosed n column)
    (hle : n ≤ n') : ColumnClosed n' column :=
  ⟨h.code.mono hle, fun c hc => (h.allowed c hc).mono hle⟩

omit hS in
theorem OutputClosed.mono {n n' : Nat} {column : MatrixOutput Code} (h : OutputClosed n column)
    (hle : n ≤ n') : OutputClosed n' column :=
  ⟨fun c hc => (h.check c hc).mono hle, fun c hc => (h.priorities c hc).mono hle,
    fun c hc => (h.fallback c hc).mono hle⟩

omit hS in
theorem RuleClosed.mono {n n' : Nat} {rule : MatrixRule Code} (h : RuleClosed n rule)
    (hle : n ≤ n') : RuleClosed n' rule :=
  ⟨fun c hc => (h.conditions c hc).mono hle, fun c hc => (h.outputs c hc).mono hle⟩

theorem yields_inputColumn (clause : InputClause) :
    Yields size (inputColumn S clause) ColumnClosed := by
  refine .bind (yields_ofExpression hS size clause.expression) fun f n _ hf => ?_
  refine .bind (.optional (fun source => yields_testsOn hS n f.type source)
    fun _ _ _ h hle => h.mono hle) fun allowed n' hle hallowed => .pure fun n'' hle' => ?_
  exact ⟨(hf.mono (Nat.le_trans hle hle')).code, fun c hc => (hallowed c hc).mono hle'⟩

theorem yields_priorities (source : String) :
    Yields size (priorities source S) fun n cs => ∀ c ∈ cs, c.Closed n := by
  refine .bind (P := fun _ _ => True) (.lift fun _ _ _ => .intro) fun tree n _ _ => ?_
  split
  · refine .mapM (fun test _ n' _ => ?_) fun _ _ _ h hle => h.mono hle
    exact .bind (yields_ofTestsTree (hS.withTest _) n' source _) fun _ _ _ hf =>
      .pure fun _ hle => (hf.mono hle).code
  · exact .pure fun _ _ => nofun

theorem yields_fallback (entry : String) :
    Yields size (do return (← ofExpression entry S).code) fun n c => c.Closed n :=
  .bind (yields_ofExpression hS size entry) fun _ _ _ hf => .pure fun _ hle => (hf.mono hle).code

theorem yields_outputColumn (clause : OutputClause) :
    Yields size (outputColumn S clause) OutputClosed := by
  refine .bind (.optional (fun source => yields_testsOn hS size _ source)
    fun _ _ _ h hle => h.mono hle) fun check n _ hcheck => ?_
  have hrest : ∀ cs n', n ≤ n' → (∀ c ∈ cs, c.Closed n') → Yields n' (do
      let fallback ← clause.defaultEntry.mapM fun entry => do return (← ofExpression entry S).code
      return MatrixOutput.mk clause.name check cs fallback) OutputClosed := by
    intro cs n' hle hcs
    refine .bind (.optional (fun entry => yields_fallback hS n' entry)
      fun _ _ _ h hle => h.mono hle) fun fallback n'' hle' hfallback => .pure fun m hm => ?_
    exact ⟨fun c hc => (hcheck c hc).mono (Nat.le_trans hle (Nat.le_trans hle' hm)),
      fun c hc => (hcs c hc).mono (Nat.le_trans hle' hm),
      fun c hc => (hfallback c hc).mono hm⟩
  dsimp only
  split
  · exact .bind (yields_priorities hS n _) hrest
  · exact .bind (.pure fun _ _ => nofun) hrest

theorem yields_cell {column : InputColumn} (h : ColumnClosed size column) (entry : String) :
    Yields size (cell S column entry) fun n c => c.Closed n := by
  unfold cell
  split
  · next allowed _ hallowed => exact .pure fun _ hle => (h.allowed _ hallowed).mono hle
  · exact yields_testsOn hS size _ entry

theorem yields_rule {columns : List InputColumn} (h : ∀ column ∈ columns, ColumnClosed size column)
    (r : RuleDefinition) : Yields size (rule S columns r) fun n out => RuleClosed n out.1 := by
  have hcells : Yields size ((columns.zip r.inputEntries).mapM fun pair => cell S pair.1 pair.2)
      fun n cs => ∀ c ∈ cs, c.Closed n :=
    .mapM (fun pair hpair n hle =>
      yields_cell hS n ((h pair.1 (List.of_mem_zip hpair).1).mono hle) pair.2)
      fun _ _ _ h hle => h.mono hle
  refine .bind hcells fun cs n _ hcs => ?_
  refine .bind (.mapM (fun entry _ n' _ => yields_ofExpression hS n' entry)
    fun _ _ _ h hle => h.mono hle) fun fs n' hle hfs => .pure fun n'' hle' => ?_
  exact ⟨fun c hc => (hcs c hc).mono (Nat.le_trans hle hle'),
    fun c hc => (Lower.codes_closed hfs c hc).mono hle'⟩

omit hS in
/-- The cells of a table are those of its columns and rules. -/
theorem cells_closed {t : DecisionMatrix Code} {n : Nat} (hinputs : ∀ c ∈ t.inputs, c.Closed n)
    (hrules : ∀ r ∈ t.rules, RuleClosed n r) (houtputs : ∀ o ∈ t.outputs, OutputClosed n o) :
    ∀ c ∈ t.cells, c.Closed n := by
  rw [DecisionMatrix.cells, List.forall_mem_append, List.forall_mem_append]
  refine ⟨⟨hinputs, fun c hc => ?_⟩, fun c hc => ?_⟩
  · obtain ⟨r, hr, hc⟩ := List.mem_flatMap.mp hc
    rcases List.mem_append.mp hc with hc | hc
    · exact (hrules r hr).conditions c hc
    · exact (hrules r hr).outputs c hc
  · obtain ⟨o, ho, hc⟩ := List.mem_flatMap.mp hc
    rcases List.mem_append.mp hc with hc | hc
    · rcases List.mem_append.mp hc with hc | hc
      · exact (houtputs o ho).check c (Option.mem_toList.mp hc)
      · exact (houtputs o ho).priorities c hc
    · exact (houtputs o ho).fallback c (Option.mem_toList.mp hc)

/-- **Tables are lowered to closed code.** -/
theorem yields_ofTable (d : Definition) : Yields size (ofTable d S) Closed := by
  refine .bind (.mapM (fun clause _ n _ => yields_inputColumn hS n clause)
    fun _ _ _ h hle => h.mono hle) fun columns n _ hcolumns => ?_
  have hrules : Yields n (d.rules.mapM (rule S columns))
      fun n' rules => ∀ out ∈ rules, RuleClosed n' out.1 :=
    .mapM (fun r _ n' hle =>
      yields_rule hS n' (fun column hcolumn => (hcolumns column hcolumn).mono hle) r)
      fun _ _ _ h hle => h.mono hle
  refine .bind hrules fun rules n' hle hrules => ?_
  refine .bind (.mapM (fun clause _ n'' _ => yields_outputColumn hS n'' clause)
    fun _ _ _ h hle => h.mono hle) fun outputs n'' hle' houtputs => .pure fun m hm => ?_
  have hinputs : ∀ c ∈ columns.map (·.code), c.Closed n'' := by
    intro c hc
    obtain ⟨column, hcolumn, rfl⟩ := List.mem_map.mp hc
    exact (hcolumns column hcolumn).code.mono (Nat.le_trans hle hle')
  have hmatrix : ∀ r ∈ rules.map (·.1), RuleClosed n'' r := by
    intro r hr
    obtain ⟨out, hout, rfl⟩ := List.mem_map.mp hr
    exact (hrules out hout).mono hle'
  refine .mono (.computed (.of_parts ?_ ?_)) hm
  · trivial
  · exact cells_closed hinputs hmatrix houtputs

end Fragment

end Feel
