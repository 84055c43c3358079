import Feel.Fragment.OfText
import Feel.Proofs.TypedTerms

/-!
# Lowering only adds to the pool

Whatever form an expression has, the constants that were gathered before it is lowered keep their
places.

* `Lower.Grows`: a part only adds to the pool.
* `Lower.grows_list` and the laws beside it: one for each form.
* `Term.everywhere`: what holds of a term can be proved from its parts.
* `Term.grows`: every term only adds to the pool.
-/

namespace Feel

namespace Lowering

variable {α : Type} {pool : List Value} {x : Lowering α}

/-- A step only adds to the pool. -/
abbrev Grows (pool : List Value) (x : Lowering α) : Prop := Ensures pool x fun _ _ => True

theorem Ensures.grows {P : α → List Value → Prop} (h : Ensures pool x P) : x.Grows pool :=
  h.imp fun _ _ _ _ => .intro

namespace Grows

theorem pure (a : α) : Grows pool (Pure.pure a) := Ensures.pure fun _ _ => .intro

theorem throw (e : CompileError) : Grows pool (throw e : Lowering α) := Ensures.throw

theorem bind {β : Type} {f : α → Lowering β} (hx : x.Grows pool)
    (hf : ∀ a pool', (f a).Grows pool') : (x >>= f).Grows pool :=
  Ensures.bind hx fun a pool' _ _ => hf a pool'

/-- Steps that fail or pass on a value. -/
theorem lift (y : Except CompileError α) : Grows pool (liftM y : Lowering α) := by
  intro d a d' _ h
  obtain ⟨b, -, heq⟩ := bind_eq_ok.mp h
  cases heq
  exact ⟨List.prefix_refl _, .intro⟩

theorem warn (more : List String) : Grows pool (Lowering.warn more) := by
  intro d a d' _ h
  cases h
  exact ⟨List.prefix_refl _, .intro⟩

theorem mapM {β : Type} {as : List α} {f : α → Lowering β}
    (hf : ∀ a ∈ as, ∀ pool', (f a).Grows pool') : Grows pool (as.mapM f) := by
  induction as generalizing pool with
  | nil => exact .pure _
  | cons a as ih =>
    rw [List.forall_mem_cons] at hf
    rw [List.mapM_cons]
    exact .bind (hf.1 pool) fun b pool' => .bind (ih hf.2) fun bs _ => .pure _

theorem optional {β : Type} {a : Option α} {f : α → Lowering β}
    (hf : ∀ b pool', (f b).Grows pool') : Grows pool (a.mapM f) := by
  cases a with
  | none => exact .pure _
  | some a => exact .bind (hf a pool) fun _ _ => .pure _

end Grows

end Lowering

namespace Fragment

open Lowering (Grows)

variable {pool : List Value}

theorem grows_ofConstant (v : Value) (t : Ty) : Grows pool (ofConstant v t) :=
  .bind (Lowering.Ensures.constantCode fun _ _ _ _ => .intro) fun _ _ => .pure _

theorem grows_binary (o : Options) (span : Span) (op : Operator) (l r : Fragment) :
    Grows pool (binary o span op l r) := by
  unfold binary
  split
  · next outcome _ =>
    cases outcome with
    | value v t => exact grows_ofConstant v t
    | fragment f => exact .pure f
  · dsimp only
    split
    · exact .pure _
    · split
      · exact .pure _
      · exact .throw _

end Fragment

namespace Lower

/-- A part only adds to the pool. -/
def Grows (l : Lower) : Prop := ∀ L pool, Lowering.Grows pool (l L)

variable {L : Scope} {pool : List Value}

theorem grows_all {ls : List Lower} (h : ∀ l ∈ ls, Grows l) (L : Scope) (pool : List Value) :
    Lowering.Grows pool (all L ls) := by
  induction ls generalizing pool with
  | nil => exact .pure _
  | cons l ls ih =>
    rw [List.forall_mem_cons] at h
    exact .bind (h.1 L pool) fun f pool' => .bind (ih h.2 pool') fun fs _ => .pure _

/-! ### Structures -/

theorem grows_list {items : List Lower} (h : ∀ l ∈ items, Grows l) (type : Ty) :
    Grows (list items type) := by
  intro L pool
  refine .bind (grows_all h L pool) fun fs pool' => ?_
  split
  · exact Fragment.grows_ofConstant _ _
  · exact .pure _

theorem grows_context {entries : List (String × Lower)} (h : ∀ e ∈ entries, Grows e.2)
    (type : Ty) : Grows (context entries type) := by
  intro L pool
  refine .bind (grows_all (List.forall_mem_map.mpr h) L pool) fun fs pool' => ?_
  split
  · exact Fragment.grows_ofConstant _ _
  · exact .pure _

theorem grows_range {start finish : Lower} (hs : Grows start) (hf : Grows finish)
    (si ei : Bool) (type : Ty) : Grows (range start finish si ei type) := by
  intro L pool
  refine .bind (hs L pool) fun s pool' => .bind (hf L pool') fun f pool'' => ?_
  split
  · exact Fragment.grows_ofConstant _ _
  · exact .pure _

/-! ### Operators -/

theorem grows_binary (op : Operator) {left right : Lower} (hl : Grows left) (hr : Grows right)
    (span : Span) : Grows (binary op left right span) := fun L pool =>
  .bind (hl L pool) fun _ pool' => .bind (hr L pool') fun _ _ => Fragment.grows_binary _ _ _ _ _

theorem grows_negation {operand : Lower} (h : Grows operand) (type : Ty) :
    Grows (negation operand type) := by
  intro L pool
  refine .bind (h L pool) fun f pool' => ?_
  split
  · exact Fragment.grows_ofConstant _ _
  · exact .pure _

theorem grows_between {value low high : Lower} (hv : Grows value) (hl : Grows low)
    (hh : Grows high) : Grows (between value low high) := fun L pool =>
  .bind (hv L pool) fun _ pool' => .bind (hl L pool') fun _ pool'' => .bind (hh L pool'')
    fun _ _ => .pure _

theorem grows_isIn {value tests : Lower} (hv : Grows value) (ht : Grows tests) :
    Grows (isIn value tests) := fun L pool =>
  .bind (hv L pool) fun _ pool' => .bind (ht _ pool') fun _ _ => .pure _

theorem grows_instanceOf {value : Lower} (h : Grows value) (target : Ty) :
    Grows (instanceOf value target) := by
  intro L pool
  refine .bind (h L pool) fun f pool' => ?_
  split
  · exact Fragment.grows_ofConstant _ _
  · exact .pure _

/-! ### Control -/

theorem grows_ite {condition yes no : Lower} (hc : Grows condition) (hy : Grows yes)
    (hn : Grows no) (type : Ty) : Grows (ite condition yes no type) := by
  intro L pool
  refine .bind (hc L pool) fun c pool' => .bind (hy L pool') fun y pool'' => .bind (hn L pool'')
    fun n _ => ?_
  split
  · exact .pure _
  · exact .pure _

/-- What a binding runs over only adds to the pool. -/
structure DomainGrows (part : DomainPart) : Prop where
  whole : Grows part.whole
  bounds : ∀ b, part.bounds = some b → Grows b.start ∧ Grows b.finish

theorem grows_domain {part : DomainPart} (h : DomainGrows part) (L : Scope) (pool : List Value) :
    Lowering.Grows pool (domain part L) := by
  have hvalues : ∀ pool, Lowering.Grows pool
      (do return Domain.values (← part.whole L).code) := fun pool =>
    .bind (h.whole L pool) fun _ _ => .pure _
  unfold domain
  split
  · exact hvalues pool
  · next b hb =>
    obtain ⟨hs, hf⟩ := h.bounds b hb
    refine .bind (hs L pool) fun s pool' => .bind (hf L pool') fun f pool'' => ?_
    split
    · exact .bind (Lowering.Ensures.fresh fun _ _ _ => .intro) fun _ _ => .pure _
    · exact hvalues pool''

theorem grows_bindings {parts : List DomainPart} (h : ∀ part ∈ parts, DomainGrows part)
    (L : Scope) (pool : List Value) : Lowering.Grows pool (bindings L parts) := by
  induction parts generalizing pool with
  | nil => exact .pure _
  | cons part parts ih =>
    rw [List.forall_mem_cons] at h
    exact .bind (grows_domain h.1 L pool) fun _ pool' => .bind (ih h.2 pool') fun _ _ => .pure _

theorem grows_forIn {parts : List DomainPart} (h : ∀ part ∈ parts, DomainGrows part)
    {body : Lower} (hb : Grows body) (type : Ty) : Grows (forIn parts body type) :=
  fun L pool => .bind (grows_bindings h L pool) fun _ pool' => .bind (hb L pool') fun _ _ =>
    .pure _

theorem grows_quantified (every : Bool) {parts : List DomainPart}
    (h : ∀ part ∈ parts, DomainGrows part) {condition : Lower} (hc : Grows condition) :
    Grows (quantified every parts condition) :=
  fun L pool => .bind (grows_bindings h L pool) fun _ pool' => .bind (hc L pool') fun _ _ =>
    .pure _

theorem grows_filter {source filter : Lower} (hs : Grows source) (hf : Grows filter)
    (kind : FilterKind) (type : Ty) : Grows (Lower.filter source filter kind type) :=
  fun L pool => .bind (hs L pool) fun _ pool' => .bind (hf L pool') fun _ _ => .pure _

theorem grows_path {source : Lower} (h : Grows source) (member : String) (span : Span) :
    Grows (path source member span) := by
  intro L pool
  refine .bind (h L pool) fun f pool' => ?_
  split
  · exact .pure _
  · exact .throw _

/-! ### Functions and names -/

theorem grows_function (params : List (String × Ty)) {body : Lower} (h : Grows body)
    (type : Ty) : Grows (function params body type) :=
  fun L pool => .bind (h L pool) fun _ _ => .pure _

/-- How a library lowers a call only adds to the pool. -/
theorem grows_lower? {libraries : Libraries} {name : String} {args : List Fragment}
    {x : Lowering Fragment} (h : libraries.lower? name args = some x) : x.Grows pool := by
  obtain ⟨library, -, hx⟩ := List.exists_of_findSome?_eq_some h
  cases library with
  | host functions =>
    obtain ⟨f, -, hx⟩ := Option.bind_eq_some_iff.mp hx
    obtain ⟨result, -, hx⟩ := Option.bind_eq_some_iff.mp hx
    cases hx
    exact .bind (Lowering.Ensures.intern fun _ _ _ _ _ _ => .intro) fun _ _ => .pure _
  | builtins =>
    obtain ⟨f, -, hx⟩ := Option.bind_eq_some_iff.mp hx
    dsimp only at hx
    split at hx <;> cases hx <;> exact .pure _

theorem grows_named {args : List Lower} (h : ∀ l ∈ args, Grows l) (name : String)
    (signature : Ty) (names : Option (List String)) (type : Ty) (span : Span) :
    Grows (invocation (.named name signature) args names type span) := by
  intro L pool
  refine .bind (grows_all h L pool) fun fs pool' => ?_
  dsimp only
  split
  · exact .throw _
  · next lowered hlowered =>
    refine .bind (grows_lower? hlowered) fun f pool'' => ?_
    split
    · exact .pure _
    · exact .pure _

theorem grows_value {callee : Lower} (hc : Grows callee) {args : List Lower}
    (h : ∀ l ∈ args, Grows l) (names : Option (List String)) (type : Ty) (span : Span) :
    Grows (invocation (.value callee) args names type span) :=
  fun L pool => .bind (grows_all h L pool) fun _ pool' => .bind (hc L pool') fun _ _ => .pure _

theorem grows_name (name : String) (origin : Origin) (type : Ty) (span : Span) :
    Grows (Lower.name name origin type span) := by
  intro L pool
  cases origin with
  | bound => exact .pure _
  | input => exact .pure _
  | dynamic => exact .pure _
  | function =>
    unfold Lower.name
    dsimp only
    split
    · exact .throw _
    · exact .bind (Lowering.Ensures.intern fun _ _ _ _ _ _ => .intro) fun _ _ => .pure _

/-! ### Unary tests -/

theorem grows_comparison (op : Operator) {value : Lower} (h : Grows value) (span : Span) :
    Grows (comparison op value span) := fun L pool =>
  .bind (h L pool) fun _ _ => Fragment.grows_binary _ _ _ _ _

theorem grows_matching (o : Options) (span : Span) (subject : Ty) (f : Fragment) :
    Lowering.Grows pool (matching o span subject f) := by
  have hequal : Lowering.Grows pool
      (Fragment.binary o span .eq (.computed .testInput subject) f) :=
    Fragment.grows_binary _ _ _ _ _
  unfold matching
  dsimp only
  split
  · split
    · exact hequal
    · exact .pure _
  · exact .pure _
  · split
    · exact .pure _
    · split
      · exact hequal
      · exact .pure _
  · exact .pure _
  · exact hequal

theorem grows_test {part : TestPart} (h : Grows part.lower) (L : Scope) (pool : List Value) :
    Lowering.Grows pool (test L part) := by
  refine .bind (h L pool) fun f pool' => ?_
  split
  · exact .pure _
  · exact grows_matching _ _ _ _

theorem grows_anyOf {parts : List TestPart} (h : ∀ part ∈ parts, Grows part.lower) (L : Scope)
    (span : Span) (f : Fragment) (pool : List Value) :
    Lowering.Grows pool (anyOf L span f parts) := by
  induction parts generalizing f pool with
  | nil => exact .pure _
  | cons part parts ih =>
    rw [List.forall_mem_cons] at h
    exact .bind (grows_test h.1 L pool) fun _ _ => .bind (Fragment.grows_binary _ _ _ _ _)
      fun g pool' => ih h.2 g pool'

theorem grows_tests (negated : Bool) {parts : List TestPart}
    (h : ∀ part ∈ parts, Grows part.lower) (span : Span) : Grows (tests negated parts span) := by
  intro L pool
  have hdisjunction : Lowering.Grows pool (disjunction L span parts) := by
    cases parts with
    | nil => exact Fragment.grows_ofConstant _ _
    | cons part parts =>
      rw [List.forall_mem_cons] at h
      exact .bind (grows_test h.1 L pool) fun f pool' => grows_anyOf h.2 L span f pool'
  refine .bind hdisjunction fun f pool' => ?_
  split
  · exact .pure _
  · split
    · exact Fragment.grows_ofConstant _ _
    · exact .pure _

end Lower

/-! ### Terms -/

namespace Term

open Lower (DomainGrows)

/-- A term only adds to the pool, and so do its bounds, if it is written as a range. -/
structure Grows (t : Term) : Prop where
  whole : Lower.Grows (Fragment.ofTerm t)
  bounds : ∀ b, Fragment.ofBounds t = some b → Lower.Grows b.start ∧ Lower.Grows b.finish

theorem Grows.domain {its : List (Iteration Term)} (h : ∀ t ∈ its.map (·.domain), t.Grows) :
    ∀ part ∈ Fragment.ofIterations its, DomainGrows part := by
  intro part hpart
  obtain ⟨t, ht, hwhole, hbounds⟩ := Fragment.mem_ofIterations hpart
  refine ⟨hwhole ▸ (h t ht).whole, fun b hb => ?_⟩
  rw [hbounds] at hb
  exact (h t ht).bounds b hb

theorem Grows.list {ts : List Term} (h : ∀ t ∈ ts, t.Grows) :
    ∀ l ∈ Fragment.ofList ts, Lower.Grows l := by
  intro l hl
  obtain ⟨t, ht, rfl⟩ := Fragment.mem_ofList hl
  exact (h t ht).whole

theorem grows_of_parts (shape : Shape Term) {type : Ty} {span : Span}
    {comments warnings : List String}
    (h : ∀ s ∈ (node shape type span comments warnings).parts, s.Grows) :
    Lower.Grows (Fragment.ofShape type span shape) := by
  cases shape with
  | null => exact fun _ _ => .pure _
  | boolean b => exact fun _ _ => Fragment.grows_ofConstant _ _
  | number n => exact fun _ _ => Fragment.grows_ofConstant _ _
  | string s => exact fun _ _ => Fragment.grows_ofConstant _ _
  | temporal v => exact fun _ _ => Fragment.grows_ofConstant _ _
  | dash => exact fun _ _ => Fragment.grows_ofConstant _ _
  | testInput => exact fun _ _ => .pure _
  | name name origin => exact Lower.grows_name name origin type span
  | list items => exact Lower.grows_list (Grows.list h) type
  | context entries =>
    refine Lower.grows_context (fun e he => ?_) type
    obtain ⟨t, ht, heq⟩ := Fragment.mem_ofEntries he
    rw [heq]
    exact (h t ht).whole
  | range start finish si ei =>
    have hs := h start (by simp [parts, Term.shape])
    have hf := h finish (by simp [parts, Term.shape])
    exact Lower.grows_range hs.whole hf.whole si ei type
  | binary op left right =>
    have hl := h left (by simp [parts, Term.shape])
    have hr := h right (by simp [parts, Term.shape])
    exact Lower.grows_binary op hl.whole hr.whole span
  | negation operand =>
    exact Lower.grows_negation (h operand (by simp [parts, Term.shape])).whole type
  | between value low high =>
    have hv := h value (by simp [parts, Term.shape])
    have hl := h low (by simp [parts, Term.shape])
    have hh := h high (by simp [parts, Term.shape])
    exact Lower.grows_between hv.whole hl.whole hh.whole
  | isIn value tests =>
    have hv := h value (by simp [parts, Term.shape])
    have ht := h tests (by simp [parts, Term.shape])
    exact Lower.grows_isIn hv.whole ht.whole
  | instanceOf value target =>
    exact Lower.grows_instanceOf (h value (by simp [parts, Term.shape])).whole target
  | ite condition yes no =>
    have hc := h condition (by simp [parts, Term.shape])
    have hy := h yes (by simp [parts, Term.shape])
    have hn := h no (by simp [parts, Term.shape])
    exact Lower.grows_ite hc.whole hy.whole hn.whole type
  | forIn its body =>
    have hits := Grows.domain fun t ht => h t (List.mem_append_left _ ht)
    exact Lower.grows_forIn hits (h body (by simp [parts, Term.shape])).whole type
  | quantified every its condition =>
    have hits := Grows.domain fun t ht => h t (List.mem_append_left _ ht)
    exact Lower.grows_quantified every hits (h condition (by simp [parts, Term.shape])).whole
  | filter source filter kind =>
    have hs := h source (by simp [parts, Term.shape])
    have hf := h filter (by simp [parts, Term.shape])
    exact Lower.grows_filter hs.whole hf.whole kind type
  | function params body =>
    exact Lower.grows_function params (h body (by simp [parts, Term.shape])).whole type
  | invocation callee args names =>
    cases callee with
    | named name signature =>
      exact Lower.grows_named (Grows.list h) name signature names type span
    | value callee =>
      have hc := h callee (by simp [parts, Term.shape])
      have hargs := Grows.list fun t ht => h t (List.mem_cons_of_mem _ ht)
      exact Lower.grows_value hc.whole hargs names type span
  | path source member =>
    exact Lower.grows_path (h source (by simp [parts, Term.shape])).whole member span
  | tests negated tests =>
    refine Lower.grows_tests negated (fun part hpart => ?_) span
    obtain ⟨t, ht, rfl⟩ := Fragment.mem_ofTests hpart
    exact (h t ht).whole
  | comparison op value =>
    exact Lower.grows_comparison op (h value (by simp [parts, Term.shape])).whole span

/-! Every term has parts that are terms of their own, down to its leaves. -/

mutual

theorem everywhere : ∀ t : Term, t.Everywhere fun _ => True
  | .node shape type span comments warnings =>
    .intro .intro (everywhere_parts type span comments warnings shape)

theorem everywhere_parts (type : Ty) (span : Span) (comments warnings : List String) :
    ∀ (shape : Shape Term), ∀ s ∈ (node shape type span comments warnings).parts,
      s.Everywhere fun _ => True
  | .null | .boolean _ | .number _ | .string _ | .temporal _ | .name _ _ | .testInput
  | .dash => nofun
  | .list items => everywhere_list items
  | .context entries => everywhere_entries entries
  | .range start finish _ _ =>
    List.forall_mem_cons.mpr ⟨everywhere start, List.forall_mem_singleton.mpr (everywhere finish)⟩
  | .binary _ left right =>
    List.forall_mem_cons.mpr ⟨everywhere left, List.forall_mem_singleton.mpr (everywhere right)⟩
  | .negation operand => List.forall_mem_singleton.mpr (everywhere operand)
  | .between value low high =>
    List.forall_mem_cons.mpr ⟨everywhere value, List.forall_mem_cons.mpr
      ⟨everywhere low, List.forall_mem_singleton.mpr (everywhere high)⟩⟩
  | .isIn value tests =>
    List.forall_mem_cons.mpr ⟨everywhere value, List.forall_mem_singleton.mpr (everywhere tests)⟩
  | .instanceOf value _ => List.forall_mem_singleton.mpr (everywhere value)
  | .ite condition yes no =>
    List.forall_mem_cons.mpr ⟨everywhere condition, List.forall_mem_cons.mpr
      ⟨everywhere yes, List.forall_mem_singleton.mpr (everywhere no)⟩⟩
  | .forIn its body => List.forall_mem_append.mpr
      ⟨everywhere_iterations its, List.forall_mem_singleton.mpr (everywhere body)⟩
  | .quantified _ its condition => List.forall_mem_append.mpr
      ⟨everywhere_iterations its, List.forall_mem_singleton.mpr (everywhere condition)⟩
  | .filter source filter _ =>
    List.forall_mem_cons.mpr ⟨everywhere source, List.forall_mem_singleton.mpr (everywhere filter)⟩
  | .function _ body => List.forall_mem_singleton.mpr (everywhere body)
  | .invocation (.named _ _) args _ => everywhere_list args
  | .invocation (.value callee) args _ =>
    List.forall_mem_cons.mpr ⟨everywhere callee, everywhere_list args⟩
  | .path source _ => List.forall_mem_singleton.mpr (everywhere source)
  | .tests _ tests => everywhere_list tests
  | .comparison _ value => List.forall_mem_singleton.mpr (everywhere value)

theorem everywhere_list : ∀ ts : List Term, ∀ t ∈ ts, t.Everywhere fun _ => True
  | [] => nofun
  | t :: ts => List.forall_mem_cons.mpr ⟨everywhere t, everywhere_list ts⟩

theorem everywhere_entries :
    ∀ es : List (String × Term), ∀ t ∈ es.map (·.2), t.Everywhere fun _ => True
  | [] => nofun
  | (_, t) :: es => List.forall_mem_cons.mpr ⟨everywhere t, everywhere_entries es⟩

theorem everywhere_iterations :
    ∀ its : List (Iteration Term), ∀ t ∈ its.map (·.domain), t.Everywhere fun _ => True
  | [] => nofun
  | ⟨_, t⟩ :: its => List.forall_mem_cons.mpr ⟨everywhere t, everywhere_iterations its⟩

end

/-- **Terms only add to the pool.** -/
theorem grows (t : Term) : t.Grows := by
  induction t.everywhere with
  | @intro t _ _ ih =>
    obtain ⟨shape, type, span, comments, warnings⟩ := t
    refine ⟨grows_of_parts shape ih, fun b hb => ?_⟩
    cases shape with
    | range start finish si ei =>
      cases hb
      exact ⟨(ih start (by simp [parts, Term.shape])).whole,
        (ih finish (by simp [parts, Term.shape])).whole⟩
    | _ => cases hb

end Term

/-! ### Texts -/

namespace Fragment

open Lowering (Grows)

variable {pool : List Value}

theorem grows_ofWarnedTerm (term : Term) (S : Scope) : Grows pool (ofWarnedTerm term S) :=
  .bind (.warn _) fun _ pool' => term.grows.whole S pool'

theorem grows_ofExpression (source : String) (S : Scope) :
    Grows pool (ofExpression source S) :=
  .bind (.lift _) fun _ _ => .bind (.lift _) fun _ _ => grows_ofWarnedTerm _ _

theorem grows_ofTestsTree (source : String) (tree : Surface) (S : Scope) :
    Grows pool (ofTestsTree source tree S) :=
  .bind (.lift _) fun _ _ => grows_ofWarnedTerm _ _

theorem grows_ofTestsText (source : String) (S : Scope) : Grows pool (ofTestsText source S) :=
  .bind (.lift _) fun tree _ => grows_ofTestsTree source tree S

end Fragment

end Feel
