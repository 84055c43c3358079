import Feel.Proofs.HonestFragments
import Feel.Proofs.IntegerRounding
import Feel.Proofs.TestPlaces
import Feel.Proofs.Unpooled

/-!
# What is marked as never null

The fragments of all forms say the truth about their values, with two exceptions. The negation of a
marked operand is marked, though only numbers and durations have a negation; and the comparison of
marked booleans and machine numbers is marked, though the type of an operand can be a join that its
values do not all share. Where these two are right, every mark is: what is marked as never null is
never null, on every machine, over every input and in every frame, and arithmetic that leaves out
the check for null never meets it. They are right where a negation is of a number or a duration, and
a comparison of booleans, of integers in 64 bits, or of anything that is neither boolean nor number.

* `Lower.Honest`: a part is lowered to honest fragments.
* `Lower.honest_list` and the laws beside it: one for each form.
* `Fragment.GivesIntegers`: values that are integers in 64 bits, which are in order.
* `Term.KeepsOwnMark`: a negation or a comparison that is null only where its mark allows it.
* `Term.keepsOwnMark_of_own`: what is so by its form and the types of its parts.
* `Term.honest`: terms of such nodes are lowered to honest fragments.
* `Term.neverNull_of_text`: so are all nodes of the terms of texts.
-/

namespace Feel

open Code (Reading)
open Lowering (Ensures)

/-! ### Forms -/

namespace Lower

/-- A part is lowered to fragments that say the truth of their values, in every scope that is
admitted. -/
def Honest (ρ : Reading) (T : Option Ty) (l : Lower) : Prop :=
  ∀ L pool, ρ.Admits L → Ensures pool (l L) fun f pool' => f.Honest ρ pool' T

variable {ρ : Reading} {T U : Ty} {X : Option Ty} {pool : List Value} {L : Scope}

theorem Honest.untyped {l : Lower} (h : Honest ρ X l) : Honest ρ none l := fun L pool hL =>
  (h L pool hL).imp fun _ _ _ hf => hf.untyped

theorem honest_constant {v : Value} (h : T.holds v = true) :
    Honest ρ (some T) fun _ => Fragment.ofConstant v T :=
  fun _ _ _ => Fragment.ensures_honest fun _ => ⟨h, fun _ => Option.some.inj⟩

/-- Code without parts that may give null. -/
theorem honest_leaf {c : Code} (h : c.children = []) (t : Ty) :
    Honest ρ X fun _ => return .computed c t :=
  fun _ _ _ => .pure fun _ _ => .computed (.leaf h) t

theorem ensures_honestAll {ls : List Lower} (h : ∀ l ∈ ls, Honest ρ none l) (L : Scope)
    (pool : List Value) (hL : ρ.Admits L) :
    Ensures pool (all L ls) fun fs pool' => ∀ f ∈ fs, ρ.Guards pool' none f.code := by
  induction ls generalizing pool with
  | nil => exact .pure fun _ _ => nofun
  | cons l ls ih =>
    rw [List.forall_mem_cons] at h
    refine .bind (h.1 L pool hL) fun f pool₁ _ hf => ?_
    refine .bind (ih h.2 pool₁) fun fs pool₂ hmore hfs => ?_
    refine .pure fun pool₃ hlast => List.forall_mem_cons.mpr ⟨?_, fun g hg => ?_⟩
    · exact hf.guarded.extend (hmore.trans hlast)
    · exact (hfs g hg).extend hlast

/-! #### Structures -/

theorem honest_list {items : List Lower} (h : ∀ l ∈ items, Honest ρ none l) (element : Ty) :
    Honest ρ (some (.list element)) (list items (.list element)) := by
  intro L pool hL
  refine .bind (ensures_honestAll h L pool hL) fun fs pool' _ hfs => ?_
  split
  · exact Fragment.ensures_honest fun _ => ⟨rfl, fun _ => Option.some.inj⟩
  · refine .pure fun pool'' hpool => .nonNull ?_ (fun _ => Option.some.inj) (.list fun _ => rfl)
    exact .of_children rfl rfl (List.forall_mem_map.mpr fun f hf => (hfs f hf).extend hpool)

theorem honest_context {entries : List (String × Lower)} (h : ∀ e ∈ entries, Honest ρ none e.2)
    (fields : List (String × Ty)) :
    Honest ρ (some (.context fields)) (context entries (.context fields)) := by
  intro L pool hL
  refine .bind (ensures_honestAll (List.forall_mem_map.mpr h) L pool hL) fun fs pool' _ hfs => ?_
  split
  · exact Fragment.ensures_honest fun _ => ⟨rfl, fun _ => Option.some.inj⟩
  · refine .pure fun pool'' hpool => .nonNull ?_ (fun _ => Option.some.inj) (.context fun _ => rfl)
    refine .of_children rfl rfl (List.forall_mem_map.mpr fun e he => ?_)
    obtain ⟨f, hf, heq⟩ := List.mem_map.mp (List.of_mem_zip he).2
    exact heq ▸ (hfs f hf).extend hpool

theorem honest_range {start finish : Lower} (hs : Honest ρ X start) (hf : Honest ρ X finish)
    (si ei : Bool) (element : Ty) (a b : Option Bool) :
    Honest ρ (some (.range element a b)) (range start finish si ei (.range element a b)) := by
  intro L pool hL
  refine .bind (hs L pool hL) fun s pool₁ _ hs => .bind (hf L pool₁ hL) fun f pool₂ hmore hf => ?_
  split
  · exact Fragment.ensures_honest fun _ => ⟨rfl, fun _ => Option.some.inj⟩
  · refine .pure fun pool₃ hlast => .nonNull ?_ (fun _ => Option.some.inj)
      (.range fun _ _ => rfl)
    exact Fragment.guarded_pair (hs.guarded.extend (hmore.trans hlast)) (hf.guarded.extend hlast)
      rfl rfl rfl

/-! #### Operators -/

/-- An operator on honest operands is honest; a comparison of what can be a boolean or a machine
number is where it is one of booleans, or is null only where its mark allows it. -/
theorem ensures_honestBinary (op : Operator) {left right : Lower} (hl : Honest ρ (some T) left)
    (hr : Honest ρ (some U) right) (span : Span) (L : Scope) (pool : List Value)
    (hL : ρ.Admits L) :
    Ensures pool (binary op left right span L) fun f pool' =>
      (op.isOrdering = true → T.hasMachineValues = true → U.hasMachineValues = true →
        T = .boolean ∧ U = .boolean ∨ f.NeverNull ρ pool') →
          f.Honest ρ pool' (some (op.resultType T U)) := by
  refine .bind (hl L pool hL) fun l pool₁ _ hl => .bind (hr L pool₁ hL) fun r pool₂ hmore hr => ?_
  refine (Fragment.ensures_honestBinary (hl.extend hmore) hr span).imp fun f pool₃ _ hf hnever => ?_
  refine hf fun hord hprimitive => hnever hord ?_ ?_
  all_goals rw [Bool.and_eq_true] at hprimitive
  · obtain ⟨hmarked, hmachine⟩ := hl.primitive hprimitive.1
    exact hl.type T rfl hmarked ▸ hmachine
  · obtain ⟨hmarked, hmachine⟩ := hr.primitive hprimitive.2
    exact hr.type U rfl hmarked ▸ hmachine

/-- A negation of an honest operand is honest where the type of the operand has a negation, or
where it is null only where its mark allows it. -/
theorem ensures_honestNegation {operand : Lower} (h : Honest ρ (some T) operand) (L : Scope)
    (pool : List Value) (hL : ρ.Admits L) :
    Ensures pool (negation operand (Elaboration.negationType T) L) fun f pool' =>
      (T.isNegatable = true ∨ f.NeverNull ρ pool') →
        f.Honest ρ pool' (some (Elaboration.negationType T)) := by
  refine .bind (h L pool hL) fun f pool₁ _ hf => ?_
  have htype : f.nullable = false → f.type = T := hf.type T rfl
  split
  · next v hv =>
    refine (Fragment.ensures_honest fun hne => ⟨?_, fun _ => Option.some.inj⟩).imp
      fun _ _ _ h _ => h
    have hnull : v ≠ .null := by
      rintro rfl
      exact hne rfl
    have hconstant := Fragment.constant_of_value? hv
    have hholds := hf.known v hconstant hnull
    rw [htype (hf.nullable_of_known hconstant hnull)] at hholds
    exact (Ty.holds_negate hholds).resolve_right fun hnull => hne hnull.1
  · refine .pure fun pool₂ hmore hnever => ?_
    have hguarded : ρ.Guards pool₂ none (Code.negate f.code) :=
      .of_children rfl rfl (List.forall_mem_singleton.mpr (hf.guarded.extend hmore))
    refine .withNullable hguarded (fun _ _ => Option.some.inj) fun hmarked => ?_
    have hruns := (hf.runs hmarked).extend hmore
    rw [htype hmarked] at hruns
    have hnegates : ρ.Yields pool₂ (.negate f.code) fun v =>
        (Elaboration.negationType T).holds v = true ∨ v = .null ∧ T.isNegatable = false :=
      .negate hruns fun v => Ty.holds_negate
    rcases hnever with hnegatable | hnever
    · refine hnegates.imp fun v hv => hv.resolve_right ?_
      rw [hnegatable]
      exact nofun
    · rw [hmarked] at hnever
      exact (hnegates.and (hnever rfl)).imp fun v hv => hv.1.resolve_right fun hnull => hv.2 hnull.1

/-- Code of parts that may give null. -/
theorem honest_of_parts {c : Code} (hplaced : c.placed = c.children.map (none, ·))
    (hchecked : c.isUnchecked = false) (h : ∀ d ∈ c.children, ρ.Guards pool none d) (t : Ty) :
    (Fragment.computed c t).Honest ρ pool X := .computed (.of_children hplaced hchecked h) t

theorem honest_between {value low high : Lower} (hv : Honest ρ none value)
    (hl : Honest ρ none low) (hh : Honest ρ none high) : Honest ρ X (between value low high) := by
  intro L pool hL
  refine .bind (hv L pool hL) fun v pool₁ _ hv => .bind (hl L pool₁ hL) fun l pool₂ hmore₂ hl => ?_
  refine .bind (hh L pool₂ hL) fun h pool₃ hmore₃ hh => .pure fun pool₄ hlast => ?_
  have hv := hv.guarded.extend (hmore₂.trans (hmore₃.trans hlast))
  have hl := hl.guarded.extend (hmore₃.trans hlast)
  have hh := hh.guarded.extend hlast
  exact honest_of_parts rfl rfl (by simp [Code.children, hv, hl, hh]) _

theorem honest_isIn {value tests : Lower} (hv : Honest ρ none value) (ht : Honest ρ none tests) :
    Honest ρ X (isIn value tests) := by
  intro L pool hL
  refine .bind (hv L pool hL) fun v pool₁ _ hv => ?_
  refine .bind (ht _ pool₁ (hL.withTest v.type)) fun t pool₂ hmore ht => ?_
  refine .pure fun pool₃ hlast => .computed ?_ _
  exact Fragment.guarded_pair (hv.guarded.extend (hmore.trans hlast)) (ht.guarded.extend hlast)
    rfl rfl rfl

theorem honest_instanceOf {value : Lower} (h : Honest ρ none value) (target : Ty) :
    Honest ρ (some .boolean) (instanceOf value target) := by
  intro L pool hL
  refine .bind (h L pool hL) fun f pool' _ hf => ?_
  split
  · exact Fragment.ensures_honest fun _ => ⟨rfl, fun _ => Option.some.inj⟩
  · refine .pure fun pool'' hpool => .nonNull ?_ (fun _ => Option.some.inj) ?_
    · exact .of_children rfl rfl (List.forall_mem_singleton.mpr (hf.guarded.extend hpool))
    · exact .instanceOf fun _ => rfl

/-! #### Control -/

theorem honest_ite {condition yes no : Lower} (hc : Honest ρ none condition)
    (hy : Honest ρ (some T) yes) (hn : Honest ρ (some U) no) :
    Honest ρ (some (T.join U)) (ite condition yes no (T.join U)) := by
  intro L pool hL
  refine .bind (hc L pool hL) fun c pool₁ _ hc => .bind (hy L pool₁ hL) fun y pool₂ hmore₂ hy => ?_
  refine .bind (hn L pool₂ hL) fun n pool₃ hmore₃ hn => ?_
  split
  · refine .pure fun pool₄ hlast => ?_
    split
    · exact (hy.extend (hmore₃.trans hlast)).withType fun v hv => Ty.holds_join_left hv U
    · exact (hn.extend hlast).withType fun v hv => Ty.holds_join_right hv T
  · refine .pure fun pool₄ hlast => ?_
    have hc := hc.guarded.extend (hmore₂.trans (hmore₃.trans hlast))
    have hy := (hy.extend (hmore₃.trans hlast)).withType fun v hv => Ty.holds_join_left hv U
    have hn := (hn.extend hlast).withType fun v hv => Ty.holds_join_right hv T
    refine .withNullable (.of_children rfl rfl ?_) (fun _ _ => Option.some.inj) fun hmarked => ?_
    · simp only [Code.children, List.forall_mem_cons, List.not_mem_nil, false_imp_iff,
        implies_true, and_true]
      exact ⟨hc, hy.guarded, hn.guarded⟩
    · rw [Bool.or_eq_false_iff] at hmarked
      exact .ite (hy.runs hmarked.1) (hn.runs hmarked.2)

/-- A step adds to a cursor, or takes from it, in frames in which the cursor is not null. -/
theorem guarded_stepCode (element : Ty) (cursor : String) (offset : Int) :
    (stepCode element cursor offset).Guarded pool (some cursor) := by
  have htemporal (offset : Int) : (Code.temporal .add (.local cursor)
      (.const (.dayTimeDuration offset))).Guarded pool (some cursor) :=
    .of_children rfl rfl (List.forall_mem_cons.mpr
      ⟨.leaf rfl, List.forall_mem_singleton.mpr (.leaf rfl)⟩)
  unfold stepCode
  split
  · exact .arith (.leaf rfl) (.leaf rfl) fun _ =>
      ⟨.local fun frame hbinds => hbinds cursor rfl, .const nofun,
        fun name hname => congrArg _ (Option.some.inj hname)⟩
  · exact htemporal _

/-- The whole and the bounds of what a binding runs over are lowered to honest fragments. -/
structure DomainHonest (ρ : Reading) (part : DomainPart) : Prop where
  whole : Honest ρ none part.whole
  bounds : ∀ b, part.bounds = some b → Honest ρ none b.start ∧ Honest ρ none b.finish

/-- The cells of a domain are guarded. -/
def GuardedDomain (ρ : Reading) (pool : List Value) (d : Domain Code) : Prop :=
  ∀ p ∈ d.placed, ρ.Guards pool p.1 p.2

theorem GuardedDomain.extend {pool' : List Value} {d : Domain Code} (h : GuardedDomain ρ pool d)
    (hpool : pool <+: pool') : GuardedDomain ρ pool' d := fun p hp => (h p hp).extend hpool

theorem ensures_guardedDomain {part : DomainPart} (h : DomainHonest ρ part) (L : Scope)
    (pool : List Value) (hL : ρ.Admits L) :
    Ensures pool (domain part L) fun d pool' => GuardedDomain ρ pool' d := by
  have hvalues (pool : List Value) :
      Ensures pool (do return Domain.values (← part.whole L).code) fun d pool' =>
        GuardedDomain ρ pool' d :=
    .bind (h.whole L pool hL) fun f _ _ hf => .pure fun _ hpool =>
      List.forall_mem_singleton.mpr (hf.guarded.extend hpool)
  unfold domain
  split
  · exact hvalues pool
  · next b hb =>
    obtain ⟨hs, hf⟩ := h.bounds b hb
    refine .bind (hs L pool hL) fun s pool₁ _ hs => ?_
    refine .bind (hf L pool₁ hL) fun f pool₂ hmore hf => ?_
    split
    · refine .bind (.fresh (P := fun _ _ => True) fun _ _ _ => trivial) ?_
      refine fun cursor pool₃ hfresh _ => .pure fun pool₄ hlast => ?_
      have hs := hs.guarded.extend (hmore.trans (hfresh.trans hlast))
      have hf := hf.guarded.extend (hfresh.trans hlast)
      simp only [GuardedDomain, Domain.placed, List.forall_mem_cons, List.not_mem_nil,
        false_imp_iff, implies_true, and_true]
      exact ⟨hs, hf, .of_guarded (guarded_stepCode _ _ _), .of_guarded (guarded_stepCode _ _ _)⟩
    · exact hvalues pool₂

theorem ensures_guardedBindings {parts : List DomainPart} (h : ∀ part ∈ parts, DomainHonest ρ part)
    (L : Scope) (pool : List Value) (hL : ρ.Admits L) :
    Ensures pool (bindings L parts) fun bs pool' => ∀ b ∈ bs, GuardedDomain ρ pool' b.domain := by
  induction parts generalizing pool with
  | nil => exact .pure fun _ _ => nofun
  | cons part parts ih =>
    rw [List.forall_mem_cons] at h
    refine .bind (ensures_guardedDomain h.1 L pool hL) fun d pool₁ _ hd => ?_
    refine .bind (ih h.2 pool₁) fun bs pool₂ hmore hbs => .pure fun pool₃ hlast => ?_
    exact List.forall_mem_cons.mpr
      ⟨hd.extend (hmore.trans hlast), fun b hb => (hbs b hb).extend hlast⟩

theorem honest_forIn {parts : List DomainPart} (h : ∀ part ∈ parts, DomainHonest ρ part)
    {body : Lower} (hb : Honest ρ none body) (element : Ty) :
    Honest ρ (some (.list element)) (forIn parts body (.list element)) := by
  intro L pool hL
  refine .bind (ensures_guardedBindings h L pool hL) fun bs pool₁ _ hbs => ?_
  refine .bind (hb L pool₁ hL) fun f pool₂ hmore hf => .pure fun pool₃ hlast => ?_
  refine .nonNull (.forIn ?_ (hf.guarded.extend hlast)) (fun _ => Option.some.inj)
    (.forIn fun _ => rfl)
  exact fun b hb => (hbs b hb).extend (hmore.trans hlast)

theorem honest_quantified (every : Bool) {parts : List DomainPart}
    (h : ∀ part ∈ parts, DomainHonest ρ part) {condition : Lower} (hc : Honest ρ none condition) :
    Honest ρ X (quantified every parts condition) := by
  intro L pool hL
  refine .bind (ensures_guardedBindings h L pool hL) fun bs pool₁ _ hbs => ?_
  refine .bind (hc L pool₁ hL) fun f pool₂ hmore hf => .pure fun pool₃ hlast => ?_
  refine .computed (.quantified ?_ (hf.guarded.extend hlast) every) _
  exact fun b hb => (hbs b hb).extend (hmore.trans hlast)

theorem honest_filter {source filter : Lower} (hs : Honest ρ none source)
    (hf : Honest ρ none filter) (kind : FilterKind) (type : Ty) :
    Honest ρ X (Lower.filter source filter kind type) := by
  intro L pool hL
  refine .bind (hs L pool hL) fun s pool₁ _ hs => .bind (hf L pool₁ hL) fun f pool₂ hmore hf => ?_
  refine .pure fun pool₃ hlast => .computed ?_ _
  exact Fragment.guarded_pair (hs.guarded.extend (hmore.trans hlast)) (hf.guarded.extend hlast)
    rfl rfl rfl

theorem honest_path {source : Lower} (h : Honest ρ none source) (member : String) (span : Span) :
    Honest ρ X (path source member span) := by
  intro L pool hL
  refine .bind (h L pool hL) fun f pool₁ _ hf => ?_
  split
  · refine .pure fun pool₂ hlast => honest_of_parts rfl rfl ?_ _
    exact List.forall_mem_singleton.mpr (hf.guarded.extend hlast)
  · exact .throw

/-! #### Functions and names -/

theorem honest_function (params : List (String × Ty)) {body : Lower} (h : Honest ρ none body)
    (ps : List Ty) (names : Option (List String)) (result : Ty) :
    Honest ρ (some (.function ps names result))
      (function params body (.function ps names result)) := fun L pool hL =>
  .bind (h L pool hL) fun _ _ _ hf => .pure fun _ hlast =>
    .nonNull (.of_children rfl rfl (List.forall_mem_singleton.mpr (hf.guarded.extend hlast)))
      (fun _ => Option.some.inj) (.function fun _ => rfl)

/-- Arguments are passed on as they are, or converted. -/
theorem guarded_convertAll {fs : List Fragment} (h : ∀ f ∈ fs, ρ.Guards pool none f.code)
    (signature : Ty) : ∀ f ∈ Fragment.convertAll fs signature, ρ.Guards pool none f.code := by
  have hconvert (f : Fragment) (param : Ty) (hf : ρ.Guards pool none f.code) :
      ρ.Guards pool none (f.convertTo param).code := by
    have hconverted : ρ.Guards pool none (Code.convert f.code param) :=
      .of_children rfl rfl (List.forall_mem_singleton.mpr hf)
    unfold Fragment.convertTo
    split <;> first | exact hf | (split <;> first | exact hf | exact hconverted)
  unfold Fragment.convertAll
  split
  · refine List.forall_mem_map.mpr fun p hp => hconvert _ _ (h _ (List.of_mem_zip hp).1)
  · exact h

/-- What a library makes of a call may give null. -/
theorem ensures_honestCall {libraries : Libraries} {name : String} {args : List Fragment}
    {x : Lowering Fragment} (hx : libraries.lower? name args = some x)
    (h : ∀ f ∈ args, ρ.Guards pool none f.code) :
    Ensures pool x fun f pool' => ∃ c t, f = .computed c t ∧ ρ.Guards pool' none c := by
  have hcodes : ∀ c ∈ args.map (·.code), ρ.Guards pool none c := List.forall_mem_map.mpr h
  obtain ⟨library, -, hx⟩ := List.exists_of_findSome?_eq_some hx
  cases library with
  | host functions =>
    obtain ⟨f, -, hx⟩ := Option.bind_eq_some_iff.mp hx
    obtain ⟨result, -, hx⟩ := Option.bind_eq_some_iff.mp hx
    cases hx
    refine .bind (.internShared (P := fun _ _ => True) fun _ _ _ _ _ _ => trivial) ?_
    refine fun i pool₁ hpool _ => .pure fun pool₂ hlast => ⟨_, _, rfl, .of_children rfl rfl ?_⟩
    exact List.forall_mem_cons.mpr ⟨.leaf rfl, fun c hc => (hcodes c hc).extend (hpool.trans hlast)⟩
  | builtins =>
    obtain ⟨f, -, hx⟩ := Option.bind_eq_some_iff.mp hx
    dsimp only at hx
    split at hx
    · next code hcode =>
      cases hx
      refine .pure fun pool' hpool => ⟨_, _, rfl, .of_children rfl rfl ?_⟩
      refine List.forall_mem_singleton.mpr ((hcodes code ?_).extend hpool)
      rw [hcode]
      exact List.mem_cons_self
    · cases hx
      exact .pure fun pool' hpool => ⟨_, _, rfl, .of_children rfl rfl fun c hc =>
        (hcodes c hc).extend hpool⟩

theorem honest_named {args : List Lower} (h : ∀ l ∈ args, Honest ρ none l) (name : String)
    (signature : Ty) (names : Option (List String)) (type : Ty) (span : Span) :
    Honest ρ X (invocation (.named name signature) args names type span) := by
  intro L pool hL
  refine .bind (ensures_honestAll h L pool hL) fun fs pool' _ hfs => ?_
  dsimp only
  split
  · exact .throw
  · next x hx =>
    refine .bind (ensures_honestCall hx (guarded_convertAll hfs signature)) ?_
    rintro f pool'' _ ⟨c, t, rfl, hc⟩
    refine .pure fun pool₃ hlast => ?_
    split
    · exact .computed (hc.extend hlast) _
    · exact .computed (hc.extend hlast) _

theorem honest_value {callee : Lower} (hc : Honest ρ none callee) {args : List Lower}
    (h : ∀ l ∈ args, Honest ρ none l) (names : Option (List String)) (type : Ty) (span : Span) :
    Honest ρ X (invocation (.value callee) args names type span) := by
  intro L pool hL
  refine .bind (ensures_honestAll h L pool hL) fun fs pool₁ _ hfs => ?_
  refine .bind (hc L pool₁ hL) fun f pool₂ hmore hf => .pure fun pool₃ hlast => ?_
  refine honest_of_parts rfl rfl ?_ _
  refine List.forall_mem_cons.mpr ⟨hf.guarded.extend hlast, List.forall_mem_map.mpr fun g hg => ?_⟩
  exact (hfs g hg).extend (hmore.trans hlast)

theorem honest_functionName (name : String) (ps : List Ty) (names : Option (List String))
    (result : Ty) (span : Span) :
    Honest ρ (some (.function ps names result))
      (Lower.name name .function (.function ps names result) span) := by
  intro L pool hL
  unfold Lower.name
  dsimp only
  split
  · exact .throw
  · next f _ =>
    have hintern : Ensures pool (Lowering.intern (.function f)) fun i pool' =>
        ρ.Yields pool' (.constRef i) fun v => (Ty.function ps names result).holds v = true :=
      .internShared fun i pool' w _ hw hshare => .constRef hw (Ty.holds_of_sharesPlace rfl hshare)
    exact .bind hintern fun i pool' _ hi => .pure fun _ hpool =>
      .nonNull (.leaf rfl) (fun _ => Option.some.inj) (hi.extend hpool)

/-! #### Unary tests -/

/-- A fragment is of its own type. -/
theorem honest_own {f : Fragment} (h : f.Honest ρ pool X) : f.Honest ρ pool (some f.type) :=
  { h with type := fun _ ht _ => Option.some.inj ht }

/-- An operator that is no comparison of order, on fragments of any types. -/
theorem ensures_honestJoined {l r : Fragment} (hl : l.Honest ρ pool none)
    (hr : r.Honest ρ pool none) {op : Operator} (hord : op.isOrdering = false) (o : Options)
    (span : Span) :
    Ensures pool (Fragment.binary o span op l r) fun f pool' => f.Honest ρ pool' none := by
  refine (Fragment.ensures_honestBinary (honest_own hl) (honest_own hr) span).imp ?_
  refine fun f pool' _ hf => (hf fun h => ?_).untyped
  rw [hord] at h
  cases h

/-- A comparison of the value under test is a boolean where it is marked. -/
theorem honest_comparison (op : Operator) {value : Lower} (h : Honest ρ none value) (span : Span) :
    Honest ρ (some .boolean) (comparison op value span) := by
  intro L pool hL
  refine .bind (h L pool hL) fun f pool₁ _ hf => ?_
  have hsubject : (Fragment.computed .testInput (subjectType L)).Honest ρ pool₁ (some .any) :=
    .computed (.leaf rfl) _
  refine ((Fragment.ensures_honestBinary hsubject (honest_own hf) span).and
    (Fragment.ensures_booleanBinary _ _ _ _ _)).imp fun g pool₂ _ hg => ?_
  exact { hg.1 (fun _ h => nomatch h) with
    type := fun t ht hmarked => (hg.2 hmarked).trans (Option.some.inj ht) }

theorem ensures_honestMatching (o : Options) (span : Span) (subject : Ty) {f : Fragment}
    (h : f.Honest ρ pool none) :
    Ensures pool (matching o span subject f) fun g pool' => g.Honest ρ pool' none := by
  have hequal : Ensures pool (Fragment.binary o span .eq (.computed .testInput subject) f)
      fun g pool' => g.Honest ρ pool' none :=
    ensures_honestJoined (.computed (.leaf rfl) _) h rfl o span
  have hwhole {c : Code} (hc : ρ.Guards pool none c) : Ensures pool
      (return Fragment.computed c .boolean) fun g pool' => g.Honest ρ pool' none :=
    .pure fun _ hpool => .computed (hc.extend hpool) _
  have hpair {c : Code} (hchildren : c.children = [f.code, .testInput])
      (hplaced : c.placed = c.children.map (none, ·)) (hchecked : c.isUnchecked = false) :
      ρ.Guards pool none c := by
    refine .of_children hplaced hchecked ?_
    rw [hchildren]
    exact List.forall_mem_cons.mpr ⟨h.guarded, List.forall_mem_singleton.mpr (.leaf rfl)⟩
  have hunary : ρ.Guards pool none (Code.unaryMatch f.code) :=
    .of_children rfl rfl (List.forall_mem_singleton.mpr h.guarded)
  unfold matching
  dsimp only
  split
  · split
    · exact hequal
    · exact hwhole (hpair rfl rfl rfl)
  · exact hwhole (hpair rfl rfl rfl)
  · split
    · exact hwhole hunary
    · split
      · exact hequal
      · exact .pure fun _ hpool => h.extend hpool
  · exact hwhole hunary
  · exact hequal

theorem ensures_honestTest {part : TestPart} (h : Honest ρ none part.lower) (L : Scope)
    (pool : List Value) (hL : ρ.Admits L) :
    Ensures pool (test L part) fun f pool' => f.Honest ρ pool' none := by
  refine .bind (h L pool hL) fun f pool' _ hf => ?_
  split
  · exact .pure fun _ hpool => hf.extend hpool
  · exact ensures_honestMatching _ _ _ hf

theorem ensures_honestAnyOf {parts : List TestPart} (h : ∀ part ∈ parts, Honest ρ none part.lower)
    (L : Scope) (hL : ρ.Admits L) (span : Span) {f : Fragment} (hf : f.Honest ρ pool none) :
    Ensures pool (anyOf L span f parts) fun g pool' => g.Honest ρ pool' none := by
  induction parts generalizing f pool with
  | nil => exact .pure fun _ hpool => hf.extend hpool
  | cons part parts ih =>
    rw [List.forall_mem_cons] at h
    refine .bind (ensures_honestTest h.1 L pool hL) fun next pool₁ hmore hnext => ?_
    exact .bind (ensures_honestJoined (hf.extend hmore) hnext rfl _ span)
      fun both pool₂ _ hboth => ih h.2 hboth

theorem honest_tests (negated : Bool) {parts : List TestPart}
    (h : ∀ part ∈ parts, Honest ρ none part.lower) (span : Span) :
    Honest ρ none (tests negated parts span) := by
  intro L pool hL
  have hdisjunction : Ensures pool (disjunction L span parts) fun f pool' =>
      f.Honest ρ pool' none := by
    cases parts with
    | nil => exact Fragment.ensures_honest fun _ => ⟨rfl, nofun⟩
    | cons part parts =>
      rw [List.forall_mem_cons] at h
      exact .bind (ensures_honestTest h.1 L pool hL) fun f _ _ hf =>
        ensures_honestAnyOf h.2 L hL span hf
  refine .bind hdisjunction fun f pool₁ _ hf => ?_
  split
  · exact .pure fun _ hpool => hf.extend hpool
  · split
    · next v hv =>
      refine Fragment.ensures_honest fun hne => ⟨?_, nofun⟩
      have hcases : (∃ c, v.not = .boolean c) ∨ v.not = .null := Fragment.ofBool?_cases _
      obtain ⟨c, hc⟩ := hcases.resolve_right hne
      rw [hc]
      rfl
    · refine .pure fun _ hpool => honest_of_parts rfl rfl ?_ _
      exact List.forall_mem_singleton.mpr (hf.guarded.extend hpool)

end Lower

/-! ### Integers -/

namespace Fragment

/-- The values of a fragment are integers in 64 bits. -/
structure GivesIntegers (ρ : Reading) (pool : List Value) (f : Fragment) : Prop where
  runs : ρ.Yields pool f.code Datum.IsInteger
  known : ∀ v, f.constant = some v → v.IsInteger

variable {ρ : Reading} {pool : List Value} {f l r : Fragment}

theorem GivesIntegers.extend {pool' : List Value} (h : f.GivesIntegers ρ pool)
    (hpool : pool <+: pool') : f.GivesIntegers ρ pool' := ⟨h.runs.extend hpool, h.known⟩

theorem ensures_integerConstant {n : Number} (h : n.kind = .integer ∨ n.kind = .long) (t : Ty) :
    Ensures pool (ofConstant (.number n) t) fun f pool' => f.GivesIntegers ρ pool' := by
  refine .bind (.constantLeaf fun c pool' _ hc => hc ρ) fun c pool' _ hc => ?_
  refine .pure fun pool'' hpool => ⟨(hc.extend hpool).imp fun w hw => ?_, fun w hw => ?_⟩
  · rcases hw with rfl | hw
    · exact Datum.isInteger_of_kind h
    · rw [Draft.sharesPlace, Bool.and_eq_true, beq_iff_eq] at hw
      obtain ⟨hsame, htype⟩ := hw
      cases w with
      | number w =>
        have hkind : w.kind = n.kind := by simpa [Datum.type] using htype
        exact Datum.isInteger_of_kind (hkind ▸ h)
      | _ => simp [Datum.same] at hsame
  · cases hw
    exact Datum.isInteger_of_kind h

/-- A comparison of integers is never null, also where it is marked. -/
theorem ensures_neverNullComparison {op : Operator} (hord : op.isOrdering = true)
    (hl : l.GivesIntegers ρ pool) (hr : r.GivesIntegers ρ pool) (o : Options) (span : Span) :
    Ensures pool (binary o span op l r) fun f pool' => f.NeverNull ρ pool' := by
  have hordered (mode : CompareMode) {x y : Value} (hx : x.IsInteger) (hy : y.IsInteger) :
      Datum.compareAs op mode x y ≠ .null := hx.compareAs_ne_null hy op mode
  unfold binary
  split
  · next x hx =>
    cases rule_of_outcome? hx with
    | comparison _ _ =>
      unfold comparison
      dsimp only
      split
      · next a b hab =>
        obtain ⟨ha, hb⟩ := constants_of_operands? hab
        obtain ⟨c, hc⟩ := (compareAs_cases op _ a b).resolve_right
          (hordered _ (hl.known a ha) (hr.known b hb))
        rw [hc]
        exact (ensures_honest (T := none) fun _ => ⟨rfl, nofun⟩).imp fun _ _ _ h => h.neverNull
      · refine .pure fun pool' hpool _ => ?_
        have hruns : ρ.Yields pool' (.compare op (compareMode l.type r.type) l.code r.code)
            (· ≠ .null) :=
          .compare (hl.runs.extend hpool) (hr.runs.extend hpool) fun _ _ => hordered _
        split <;> exact hruns
    | equality heq => cases op <;> contradiction
    | connective hlogic => cases op <;> contradiction
    | arithmetic _ _ hnot _ => cases hord.symm.trans hnot
    | concatenation hadd _ =>
      subst hadd
      cases hord
    | temporal hresult => cases op <;> contradiction
  · dsimp only
    split
    · exact .pure fun _ _ h => nomatch h
    · split
      · exact .pure fun _ _ h => nomatch h
      · exact .throw

end Fragment

namespace Lower

/-- A conditional between integers. -/
theorem ensures_integersIte {ρ : Reading} {condition yes no : Lower} (hc : Grows condition)
    (hy : ∀ L pool, Ensures pool (yes L) fun f pool' => f.GivesIntegers ρ pool')
    (hn : ∀ L pool, Ensures pool (no L) fun f pool' => f.GivesIntegers ρ pool') (type : Ty)
    (L : Scope) (pool : List Value) :
    Ensures pool (ite condition yes no type L) fun f pool' => f.GivesIntegers ρ pool' := by
  refine .bind (hc L pool) fun c pool₁ _ _ => .bind (hy L pool₁) fun y pool₂ _ hy => ?_
  refine .bind (hn L pool₂) fun n pool₃ hmore hn => ?_
  split
  · refine .pure fun pool₄ hlast => ?_
    split
    · exact ⟨(hy.extend (hmore.trans hlast)).runs, hy.known⟩
    · exact ⟨(hn.extend hlast).runs, hn.known⟩
  · refine .pure fun pool₄ hlast => ⟨?_, ?_⟩
    · have hruns : ρ.Yields pool₄ (.ite c.code y.code n.code) Datum.IsInteger :=
        .ite (hy.extend (hmore.trans hlast)).runs (hn.extend hlast).runs
      cases y.nullable || n.nullable <;> exact hruns
    · cases y.nullable || n.nullable <;> exact nofun

end Lower

/-! ### Terms -/

namespace Elaboration

theorem kind_of_literal? {text : String} {n : Number} (h : literal? text = some n) :
    n.kind ≠ .double := by
  unfold literal? at h
  split at h
  · obtain ⟨m, hm, rfl⟩ := Option.map_eq_some_iff.mp h
    exact Number.kind_neg (Number.kind_of_parse? hm)
  · exact Number.kind_of_parse? h

theorem holds_of_literal? {text : String} {n : Number} (h : literal? text = some n) :
    (Ty.number n.kind).holds (.number n) = true := by
  simp [Ty.holds, kind_of_literal? h]

/-- What is written as a date, a time or a duration is of the family of its type. -/
theorem holds_of_parseTemporal? {text : String} {v : Value}
    (h : Datum.parseTemporal? text = some v) : v.type.holds v = true := by
  have hduration : ∀ {s : String} {v : Value}, Datum.parseDuration? s = some v →
      v.type.holds v = true := by
    intro s v hv
    obtain ⟨d, -, rfl⟩ := Option.map_eq_some_iff.mp hv
    cases d <;> rfl
  unfold Datum.parseTemporal? at h
  extract_lets s at h
  split at h
  · exact hduration h
  · exact hduration h
  · split at h
    · obtain ⟨t, -, rfl⟩ := Option.map_eq_some_iff.mp h
      rfl
    · rcases Option.or_eq_some_iff.mp h with h | ⟨-, h⟩
      · obtain ⟨d, -, rfl⟩ := Option.map_eq_some_iff.mp h
        rfl
      · obtain ⟨t, -, rfl⟩ := Option.map_eq_some_iff.mp h
        rfl

end Elaboration

namespace Term

variable {ρ : Reading}

/-- Where the fragment of a term is marked as never null, its code gives no null. -/
def NeverNull (ρ : Reading) (t : Term) : Prop :=
  ∀ L, ρ.Admits L → ∀ d f d', Fragment.ofTerm t L d = .ok (f, d') → f.NeverNull ρ d'.constants

theorem NeverNull.ensures {t : Term} (h : t.NeverNull ρ) (L : Scope) (pool : List Value)
    (hL : ρ.Admits L) : Ensures pool (Fragment.ofTerm t L) fun f pool' => f.NeverNull ρ pool' :=
  fun d f d' hd hrun => ⟨(t.grows.whole L pool d f d' hd hrun).1, h L hL d f d' hrun⟩

/-! #### Integers -/

/-- Literals of integers in 64 bits, and conditionals between them. The type of an operand says
less: a sum of integers that does not fit in 64 bits is a decimal, which has no order among binary64
numbers where the estimate of its digits is too far off. -/
def givesIntegers (t : Term) : Bool :=
  t.fold fun t parts =>
    match t.shape, parts with
    | .number n, _ => n.kind == .integer || n.kind == .long
    | .ite _ _ _, [_, yes, no] => yes && no
    | _, _ => false

theorem ensures_integers {t : Term} (h : t.givesIntegers = true) (L : Scope) (pool : List Value) :
    Ensures pool (Fragment.ofTerm t L) fun f pool' => f.GivesIntegers ρ pool' := by
  induction t.everywhere generalizing L pool with
  | @intro t _ _ ih =>
    obtain ⟨shape, type, span, comments, warnings⟩ := t
    rw [givesIntegers, fold_eq] at h
    cases shape with
    | number n =>
      have hkind : n.kind = .integer ∨ n.kind = .long := by simpa [Term.shape] using h
      exact Fragment.ensures_integerConstant hkind type
    | ite condition yes no =>
      obtain ⟨hyes, hno⟩ := (Bool.and_eq_true _ _).mp h
      refine Lower.ensures_integersIte condition.grows.whole (fun L pool => ?_)
        (fun L pool => ?_) type L pool
      · exact ih yes (by simp [parts, Term.shape]) hyes L pool
      · exact ih no (by simp [parts, Term.shape]) hno L pool
    | _ => cases h

/-- A comparison of integers is never null. -/
theorem neverNull_of_integers {t left right : Term} {op : Operator}
    (hshape : t.shape = .binary op left right) (hord : op.isOrdering = true)
    (hl : left.givesIntegers = true) (hr : right.givesIntegers = true) : t.NeverNull ρ := by
  obtain ⟨shape, type, span, comments, warnings⟩ := t
  cases hshape
  intro L _ d f d' hrun
  have hnever : Ensures d.constants (Lower.binary op (Fragment.ofTerm left)
      (Fragment.ofTerm right) span L) fun f pool' => f.NeverNull ρ pool' :=
    .bind (ensures_integers hl L _) fun l pool₁ _ hl => .bind (ensures_integers hr L pool₁)
      fun r pool₂ hmore hr => Fragment.ensures_neverNullComparison hord (hl.extend hmore) hr _ _
  exact (hnever d f d' (List.prefix_refl _) hrun).2

/-! #### Marks -/

/-- The two forms that can be marked in vain are not: a negation is of a type that has one, or is
never null where it is marked, and a comparison by order of what can be a boolean or a machine
number is one of booleans, or is never null where it is marked. -/
structure KeepsOwnMark (ρ : Reading) (t : Term) : Prop where
  negation : ∀ operand, t.shape = .negation operand →
    operand.type.isNegatable = true ∨ t.NeverNull ρ
  ordering : ∀ op left right, t.shape = .binary op left right → op.isOrdering = true →
    left.type.hasMachineValues = true → right.type.hasMachineValues = true →
      left.type = .boolean ∧ right.type = .boolean ∨ t.NeverNull ρ

/-- A node that keeps its mark by its form and the types of its parts. -/
def ownKeepsMark (t : Term) : Bool :=
  match t.shape with
  | .negation operand => operand.type.isNegatable
  | .binary op left right =>
    !op.isOrdering || !left.type.hasMachineValues || !right.type.hasMachineValues ||
      (left.type == .boolean && right.type == .boolean) ||
      (left.givesIntegers && right.givesIntegers)
  | _ => true

theorem keepsOwnMark_of_own {t : Term} (h : t.ownKeepsMark = true) : t.KeepsOwnMark ρ := by
  refine ⟨fun operand hshape => .inl ?_, fun op left right hshape hop hleft hright => ?_⟩
  · rw [ownKeepsMark, hshape] at h
    exact h
  · rw [ownKeepsMark, hshape] at h
    simp only [hop, hleft, hright, Bool.not_true, Bool.false_or, Bool.or_eq_true,
      Bool.and_eq_true, beq_iff_eq] at h
    exact h.imp_right fun h => neverNull_of_integers hshape hop h.1 h.2

/-- The parts whose marks a form looks at. -/
def markedParts (t : Term) : List Term :=
  match t.shape with
  | .binary _ left right => [left, right]
  | .negation operand => [operand]
  | .ite _ yes no => [yes, no]
  | _ => []

/-- None of the parts whose marks a form looks at is a list of unary tests. -/
def MarksOperands (t : Term) : Prop := ∀ s ∈ t.markedParts, s.isTests = false

theorem PlacesTests.marksOperands {t : Term} (h : t.PlacesTests) : t.MarksOperands := by
  obtain ⟨shape, type, span, comments, warnings⟩ := t
  rcases h with ⟨value, tests, rfl⟩ | hparts
  · exact nofun
  · intro s hs
    refine hparts s ?_
    cases shape with
    | binary | negation => exact hs
    | ite condition yes no => exact List.mem_cons_of_mem _ hs
    | _ => cases hs

/-! #### Parts -/

/-- The type that is known of a term; of a list of unary tests none is. -/
def knownType (t : Term) : Option Ty := if t.isTests then none else some t.type

/-- A term is lowered to honest fragments, and so are its bounds, if it is written as a range. -/
structure Honest (ρ : Reading) (t : Term) : Prop where
  whole : Lower.Honest ρ t.knownType (Fragment.ofTerm t)
  bounds : ∀ b, Fragment.ofBounds t = some b →
    Lower.Honest ρ none b.start ∧ Lower.Honest ρ none b.finish

namespace Honest

theorem part {t : Term} (h : t.Honest ρ) : Lower.Honest ρ none (Fragment.ofTerm t) :=
  h.whole.untyped

/-- What is no list of tests is honest at its type. -/
theorem operand {t : Term} (h : t.Honest ρ) (ht : t.isTests = false) :
    Lower.Honest ρ (some t.type) (Fragment.ofTerm t) := by
  have hwhole := h.whole
  rwa [knownType, ht] at hwhole

theorem list {ts : List Term} (h : ∀ t ∈ ts, t.Honest ρ) :
    ∀ l ∈ Fragment.ofList ts, Lower.Honest ρ none l := by
  intro l hl
  obtain ⟨t, ht, rfl⟩ := Fragment.mem_ofList hl
  exact (h t ht).part

theorem domains {its : List (Iteration Term)} (h : ∀ t ∈ its.map (·.domain), t.Honest ρ) :
    ∀ part ∈ Fragment.ofIterations its, Lower.DomainHonest ρ part := by
  intro part hpart
  obtain ⟨t, ht, hwhole, hbounds⟩ := Fragment.mem_ofIterations hpart
  refine ⟨hwhole ▸ (h t ht).part, fun b hb => ?_⟩
  rw [hbounds] at hb
  exact (h t ht).bounds b hb

end Honest

section Forms

variable {type : Ty} {span : Span} {comments warnings : List String}

/-- Literals, names and the value under test. -/
def isAtom (t : Term) : Bool :=
  match t.shape with
  | .null | .boolean _ | .dash | .string _ | .number _ | .temporal _ | .name _ _ | .testInput =>
    true
  | _ => false

theorem honest_atom {shape : Shape Term}
    (hatom : (node shape type span comments warnings).isAtom = true)
    (htyped : (node shape type span comments warnings).TypedAsMade) :
    Lower.Honest ρ (some type) (Fragment.ofShape type span shape) := by
  cases shape with
  | null => exact fun _ _ _ => .pure fun _ _ => .null
  | boolean b =>
    cases htyped
    exact Lower.honest_constant rfl
  | dash =>
    cases htyped
    exact Lower.honest_constant rfl
  | string s =>
    cases htyped
    exact Lower.honest_constant rfl
  | number n =>
    obtain ⟨rfl, text, htext⟩ := htyped
    exact Lower.honest_constant (Elaboration.holds_of_literal? htext)
  | temporal v =>
    obtain ⟨rfl, text, htext⟩ := htyped
    exact Lower.honest_constant (Elaboration.holds_of_parseTemporal? htext)
  | testInput => exact Lower.honest_leaf rfl _
  | name name origin =>
    cases origin with
    | bound => exact Lower.honest_leaf rfl _
    | input => exact Lower.honest_leaf rfl _
    | dynamic => exact Lower.honest_leaf rfl _
    | function =>
      obtain ⟨ps, names, result, rfl⟩ := htyped
      exact Lower.honest_functionName name ps names result span
  | _ => cases hatom

theorem honest_binary {op : Operator} {left right : Term}
    (hl : Lower.Honest ρ (some left.type) (Fragment.ofTerm left))
    (hr : Lower.Honest ρ (some right.type) (Fragment.ofTerm right))
    (hkeeps : (node (.binary op left right) type span comments warnings).KeepsOwnMark ρ) :
    Lower.Honest ρ (some (op.resultType left.type right.type))
      (Fragment.ofShape type span (.binary op left right)) := by
  intro L pool hL
  have hbinary := Lower.ensures_honestBinary op hl hr span L pool hL
  by_cases hrisk : op.isOrdering = true ∧ left.type.hasMachineValues = true ∧
      right.type.hasMachineValues = true
  · obtain ⟨hord, hmachine, hmachine'⟩ := hrisk
    rcases hkeeps.ordering op left right rfl hord hmachine hmachine' with hboolean | hnever
    · exact hbinary.imp fun f pool' _ hf => hf fun _ _ _ => .inl hboolean
    · exact (hbinary.and (hnever.ensures L pool hL)).imp
        fun f pool' _ hf => hf.1 fun _ _ _ => .inr hf.2
  · exact hbinary.imp fun f pool' _ hf => hf fun hord hmachine hmachine' =>
      absurd ⟨hord, hmachine, hmachine'⟩ hrisk

theorem honest_negation {operand : Term}
    (ho : Lower.Honest ρ (some operand.type) (Fragment.ofTerm operand))
    (hkeeps : (node (.negation operand) (Elaboration.negationType operand.type) span comments
      warnings).KeepsOwnMark ρ) :
    Lower.Honest ρ (some (Elaboration.negationType operand.type))
      (Fragment.ofShape (Elaboration.negationType operand.type) span (.negation operand)) := by
  intro L pool hL
  rcases hkeeps.negation operand rfl with hnegatable | hnever
  · exact (Lower.ensures_honestNegation ho L pool hL).imp
      fun f pool' _ hf => hf (.inl hnegatable)
  · exact ((Lower.ensures_honestNegation ho L pool hL).and (hnever.ensures L pool hL)).imp
      fun f pool' _ hf => hf.1 (.inr hf.2)

end Forms

/-- One case for each form with parts: of a list of tests nothing is known of the type, and the
operands of operators and the branches of conditionals are no such lists. -/
theorem honest_of_parts (shape : Shape Term) {type : Ty} {span : Span}
    {comments warnings : List String}
    (htyped : (node shape type span comments warnings).TypedAsMade)
    (hoperands : (node shape type span comments warnings).MarksOperands)
    (hkeeps : (node shape type span comments warnings).KeepsOwnMark ρ)
    (h : ∀ s ∈ (node shape type span comments warnings).parts, s.Honest ρ) :
    Lower.Honest ρ (node shape type span comments warnings).knownType
      (Fragment.ofShape type span shape) := by
  have hpart (s : Term) (hs : s ∈ (node shape type span comments warnings).parts) :
      Lower.Honest ρ none (Fragment.ofTerm s) := (h s hs).part
  have hoperand (s : Term) (hs : s ∈ (node shape type span comments warnings).parts)
      (hs' : s ∈ (node shape type span comments warnings).markedParts) :
      Lower.Honest ρ (some s.type) (Fragment.ofTerm s) := (h s hs).operand (hoperands s hs')
  cases shape with
  | null | boolean _ | dash | string _ | number _ | temporal _ | testInput | name _ _ =>
    exact honest_atom rfl htyped
  | list items =>
    obtain ⟨element, rfl⟩ := htyped
    exact Lower.honest_list (Honest.list h) element
  | context entries =>
    obtain ⟨fields, rfl⟩ := htyped
    refine Lower.honest_context (fun e he => ?_) fields
    obtain ⟨t, ht, heq⟩ := Fragment.mem_ofEntries he
    rw [heq]
    exact hpart t ht
  | range start finish si ei =>
    obtain ⟨element, a, b, rfl⟩ := htyped
    exact Lower.honest_range (hpart start (by simp [parts, Term.shape]))
      (hpart finish (by simp [parts, Term.shape])) si ei element a b
  | binary op left right =>
    cases htyped
    have hl := hoperand left (by simp [parts, Term.shape]) (by simp [markedParts, Term.shape])
    have hr := hoperand right (by simp [parts, Term.shape]) (by simp [markedParts, Term.shape])
    exact honest_binary hl hr hkeeps
  | negation operand =>
    cases htyped
    exact honest_negation (hoperand operand (by simp [parts, Term.shape])
      (by simp [markedParts, Term.shape])) hkeeps
  | between value low high =>
    exact Lower.honest_between (hpart value (by simp [parts, Term.shape]))
      (hpart low (by simp [parts, Term.shape])) (hpart high (by simp [parts, Term.shape]))
  | isIn value tests =>
    exact Lower.honest_isIn (hpart value (by simp [parts, Term.shape]))
      (hpart tests (by simp [parts, Term.shape]))
  | instanceOf value target =>
    cases htyped
    exact Lower.honest_instanceOf (hpart value (by simp [parts, Term.shape])) target
  | ite condition yes no =>
    cases htyped
    have hy := hoperand yes (by simp [parts, Term.shape]) (by simp [markedParts, Term.shape])
    have hn := hoperand no (by simp [parts, Term.shape]) (by simp [markedParts, Term.shape])
    exact Lower.honest_ite (hpart condition (by simp [parts, Term.shape])) hy hn
  | forIn its body =>
    obtain ⟨element, rfl⟩ := htyped
    have hits := Honest.domains fun t ht => h t (List.mem_append_left _ ht)
    exact Lower.honest_forIn hits (hpart body (by simp [parts, Term.shape])) element
  | quantified every its condition =>
    have hits := Honest.domains fun t ht => h t (List.mem_append_left _ ht)
    exact Lower.honest_quantified every hits (hpart condition (by simp [parts, Term.shape]))
  | filter source filter kind =>
    exact Lower.honest_filter (hpart source (by simp [parts, Term.shape]))
      (hpart filter (by simp [parts, Term.shape])) kind type
  | function params body =>
    obtain ⟨ps, names, result, rfl⟩ := htyped
    exact Lower.honest_function params (hpart body (by simp [parts, Term.shape])) ps names result
  | invocation callee args names =>
    cases callee with
    | named name signature =>
      exact Lower.honest_named (Honest.list h) name signature names type span
    | value callee =>
      have hargs := Honest.list fun t ht => h t (List.mem_cons_of_mem _ ht)
      exact Lower.honest_value (hpart callee (by simp [parts, Term.shape])) hargs names type span
  | path source member =>
    exact Lower.honest_path (hpart source (by simp [parts, Term.shape])) member span
  | tests negated tests =>
    refine Lower.honest_tests negated (fun part hpart => ?_) span
    obtain ⟨t, ht, rfl⟩ := Fragment.mem_ofTests hpart
    exact (h t ht).part
  | comparison op value =>
    cases htyped
    exact Lower.honest_comparison op (hpart value (by simp [parts, Term.shape])) span

/-- **Terms say the truth of their values**, where their nodes are typed as they are made, have no
lists of tests for operands and are not marked in vain. -/
theorem honest {t : Term} (htyped : t.Typed) (hoperands : t.Everywhere MarksOperands)
    (hkeeps : t.Everywhere (KeepsOwnMark ρ)) : t.Everywhere (Honest ρ) := by
  have hnodes := htyped.and (hoperands.and hkeeps)
  clear htyped hoperands hkeeps
  induction hnodes with
  | @intro t hnode _ ih =>
    obtain ⟨shape, type, span, comments, warnings⟩ := t
    obtain ⟨htyped, hoperands, hkeeps⟩ := hnode
    have hparts : ∀ s ∈ (node shape type span comments warnings).parts, s.Honest ρ :=
      fun s hs => (ih s hs).here
    refine .intro ⟨honest_of_parts shape htyped hoperands hkeeps hparts, fun b hb => ?_⟩ ih
    cases shape with
    | range start finish si ei =>
      cases hb
      exact ⟨(hparts start (by simp [parts, Term.shape])).part,
        (hparts finish (by simp [parts, Term.shape])).part⟩
    | _ => cases hb

/-! ### Texts -/

/-- The terms of texts are typed as they are made. -/
theorem typed_of_text {source : String} {S : Scope} {t : Term} (hS : S.OnlyBuiltins)
    (ht : OfText source S t) : t.Typed := by
  cases ht with
  | expression _ ht => exact ofSurface_typed source _ S t hS ht
  | tests _ ht => exact ofTests_makes source Scope.OnlyBuiltins.nodeLaw _ S t hS ht

/-- **What is marked as never null is never null.** Every node of the term of a text is lowered to
code that, if it is marked as never null, gives no null on any machine over its constants and in
any frame, and whose arithmetic leaves out the check for null only where no null comes, as long as
no negation and no comparison in the text is marked in vain. -/
theorem neverNull_of_text {source : String} {S : Scope} {t : Term} (hS : S.OnlyBuiltins)
    (ht : OfText source S t) (hkeeps : t.Everywhere (KeepsOwnMark .plain)) :
    t.Everywhere fun u => ∀ L d f d', Fragment.ofTerm u L d = .ok (f, d') →
      (f.nullable = false → ∀ m : Machine, d'.constants <+: m.constants → ∀ site frame,
        f.code.denote m site frame ≠ .ok .null) ∧ f.code.Guarded d'.constants none := by
  have hoperands := (placesTests_of_text ht).imp fun _ => PlacesTests.marksOperands
  refine (honest (typed_of_text hS ht) hoperands hkeeps).imp fun u hu L d f d' hrun => ?_
  obtain ⟨-, hf⟩ := hu.whole L d.constants .intro d f d' (List.prefix_refl _) hrun
  refine ⟨fun hmarked m hm site frame hnull => ?_, hf.guarded⟩
  exact hf.neverNull hmarked m hm site frame .null trivial hnull rfl

/-- A product of a negated conditional and a number is arithmetic without a check for null, and is
never null: a number has a negation. -/
theorem neverNull_of_product :
    ∃ t f d, OfText "-(if c then 1 else 2) * 3"
        (Program.inputScope (.context [("c", .boolean)])) t ∧
      Fragment.ofTerm t (Program.inputScope (.context [("c", .boolean)])) {} = .ok (f, d) ∧
      f.code.isUnchecked = true ∧ f.nullable = false ∧
      (∀ m : Machine, d.constants <+: m.constants → ∀ site frame,
        f.code.denote m site frame ≠ .ok .null) ∧ f.code.Guarded d.constants none := by
  let S : Scope := Program.inputScope (.context [("c", .boolean)])
  let source : String := "-(if c then 1 else 2) * 3"
  have hforms : (Surface.parseExpression source ["c"]).toOption.map (fun tree =>
      (ofSurface source tree S).toOption.map fun t =>
        (Fragment.ofTerm t S {}).toOption.map fun p =>
          (t.all ownKeepsMark, p.1.code.isUnchecked, p.1.nullable)) =
      some (some (some (true, true, false))) := by decide +kernel
  obtain ⟨tree, htree, hforms⟩ := Program.exists_ok hforms
  obtain ⟨t, ht, hforms⟩ := Program.exists_ok hforms
  obtain ⟨⟨f, d⟩, hlowered, hforms⟩ := Program.exists_ok hforms
  simp only [Prod.mk.injEq] at hforms
  obtain ⟨hkeeps, hunchecked, hmarked⟩ := hforms
  have htext : OfText source S t := .expression htree ht
  have hsound := (neverNull_of_text ⟨rfl⟩ htext
    ((everywhere_of_all hkeeps).imp fun _ => keepsOwnMark_of_own)).here S {} f d hlowered
  exact ⟨t, f, d, htext, hlowered, hunchecked, hmarked, hsound.1 hmarked, hsound.2⟩

/-- A list has no negation, so that its negation is null; it is marked as never null all the
same. -/
example :
    let S : Scope := Program.inputScope (.context [("c", .boolean)])
    (Surface.parseExpression "-[c]" ["c"]).toOption.map (fun tree =>
      (ofSurface "-[c]" tree S).toOption.map fun t => (Fragment.ofTerm t S {}).toOption.map fun p =>
        (p.1.nullable, (p.1.code.denote ⟨p.2.constants, 34, fun _ _ _ _ => .ok .null⟩ []
          default).toOption.map (·.isNull))) = some (some (some (false, some true))) := by
  decide +kernel

end Term

end Feel
