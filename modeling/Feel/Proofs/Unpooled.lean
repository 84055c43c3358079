import Feel.Proofs.Growth
import Feel.Proofs.LoweringPairs

/-!
# Terms of which nothing known is pooled

The constants of a pool are strings, decimals, structures and the like. Where a part is known, it
is loaded without the pool if it is null, a boolean or a machine number.

* `Lower.Unpooled`: what is known of a part is loaded without the pool.
* `Term.all`, `Term.everywhere_of_all`: what holds of every node, decided by a fold.
* `Term.ownUnpooled`, `Term.unpooled`: forms of which nothing known is pooled.
-/

namespace Feel

/-! ### Steps -/

/-- What is known of a fragment is loaded without the pool. -/
def Fragment.Unpooled (f : Fragment) : Prop := ∀ v, f.constant = some v → Draft.isInline v = true

namespace Fragment

theorem unpooled_computed (c : Code) (t : Ty) : (computed c t).Unpooled := nofun

theorem unpooled_withNullable (c : Code) (t : Ty) (b : Bool) :
    ((computed c t).withNullable b).Unpooled := by
  cases b with
  | true => exact nofun
  | false => exact nofun

end Fragment

namespace Lowering

/-- What is known of what a step gives is loaded without the pool. -/
def Unpooled (x : Lowering Fragment) : Prop := ∀ d g d', x d = .ok (g, d') → g.Unpooled

variable {x : Lowering Fragment}

theorem Unpooled.pure {f : Fragment} (h : f.Unpooled) : Unpooled (Pure.pure f) := by
  intro d g d' hg
  cases hg
  exact h

theorem Unpooled.bind {f : Fragment → Lowering Fragment} (hx : x.Unpooled)
    (hf : ∀ a : Fragment, a.Unpooled → (f a).Unpooled) : (x >>= f).Unpooled := by
  intro d g d' hg
  obtain ⟨⟨a, mid⟩, ha, hg⟩ := bind_eq_ok.mp hg
  exact hf a (hx d a mid ha) mid g d' hg

/-- A step after another one, whatever that gives. -/
theorem Unpooled.after {α : Type} {y : Lowering α} {f : α → Lowering Fragment}
    (hf : ∀ a, (f a).Unpooled) : (y >>= f).Unpooled := by
  intro d g d' hg
  obtain ⟨⟨a, mid⟩, -, hg⟩ := bind_eq_ok.mp hg
  exact hf a mid g d' hg

theorem unpooled_ofConstant {v : Value} (h : Draft.isInline v = true) (t : Ty) :
    Unpooled (Fragment.ofConstant v t) := by
  intro d g d' hg w hw
  rw [Fragment.ofConstant_eq] at hg
  cases hg
  cases hw
  exact h

end Lowering

/-- What is known of the outcome of an operator is loaded without the pool. -/
theorem Outcome.Inline.unpooled {x : Outcome} (h : x.Inline) : x.emit.Unpooled := by
  cases x with
  | value w t => exact Lowering.unpooled_ofConstant h t
  | fragment f =>
    refine .pure fun v hv => ?_
    rw [Outcome.Inline, hv] at h
    cases h

namespace Fragment

variable {op : Operator} (o : Options) (span : Span) (l r : Fragment)

theorem unpooled_equality (hop : op.isEquality = true) : (binary o span op l r).Unpooled := by
  have hbinary : binary o span op l r = (equality o op l r).emit := by
    simp only [binary, outcome?, hop, if_true]
  rw [hbinary]
  exact (equality_inline op l r).unpooled

theorem unpooled_connective (hop : op.isLogic = true) (hequality : op.isEquality = false) :
    (binary o span op l r).Unpooled := by
  have hbinary : binary o span op l r = (connective o op l r).emit := by
    simp [binary, outcome?, hop, hequality]
  rw [hbinary]
  exact (connective_inline op l r).unpooled

end Fragment

namespace Lower

/-- What is known of a part is loaded without the pool. -/
def Unpooled (l : Lower) : Prop := ∀ L, (l L).Unpooled

theorem unpooled_testing {op : Operator} (hop : op.isEquality = true ∨ op.isLogic = true)
    (left right : Lower) (span : Span) : Unpooled (binary op left right span) := by
  refine fun L => .after fun l => .after fun r => ?_
  cases hequality : op.isEquality with
  | true => exact Fragment.unpooled_equality _ _ _ _ hequality
  | false =>
    rw [hequality] at hop
    exact Fragment.unpooled_connective _ _ _ _ (hop.resolve_left nofun) hequality

theorem unpooled_ite (condition : Lower) {yes no : Lower} (hy : yes.Unpooled) (hn : no.Unpooled)
    (type : Ty) : Unpooled (ite condition yes no type) := by
  refine fun L => .after fun c => .bind (hy L) fun y hy => .bind (hn L) fun n hn => ?_
  split
  · refine .pure fun v hv => ?_
    split at hv
    · exact hy v hv
    · exact hn v hv
  · exact .pure (Fragment.unpooled_withNullable _ _ _)

theorem unpooled_path (source : Lower) (member : String) (span : Span) :
    Unpooled (path source member span) := by
  refine fun L => .after fun f => ?_
  split
  · exact .pure (Fragment.unpooled_computed _ _)
  · exact fun _ _ _ => nofun

theorem unpooled_matching (o : Options) (span : Span) (subject : Ty) {f : Fragment}
    (hf : f.Unpooled) : (matching o span subject f).Unpooled := by
  have hwhole : ∀ c : Code, Lowering.Unpooled (pure (Fragment.computed c .boolean)) :=
    fun c => .pure (Fragment.unpooled_computed c _)
  unfold matching
  dsimp only
  split
  · split
    · exact Fragment.unpooled_equality _ _ _ _ rfl
    · exact hwhole _
  · exact hwhole _
  · split
    · exact hwhole _
    · split
      · exact Fragment.unpooled_equality _ _ _ _ rfl
      · exact .pure hf
  · exact hwhole _
  · exact Fragment.unpooled_equality _ _ _ _ rfl

theorem unpooled_test {part : TestPart} (h : part.lower.Unpooled) (L : Scope) :
    (test L part).Unpooled := by
  refine .bind (h L) fun f hf => ?_
  split
  · exact .pure hf
  · exact unpooled_matching _ _ _ hf

theorem unpooled_anyOf (parts : List TestPart) (L : Scope) (span : Span) {f : Fragment}
    (hf : f.Unpooled) : (anyOf L span f parts).Unpooled := by
  induction parts generalizing f with
  | nil => exact .pure hf
  | cons part parts ih =>
    exact .after fun next => .bind (Fragment.unpooled_connective _ _ _ _ rfl rfl) fun both => ih

theorem unpooled_tests (negated : Bool) {parts : List TestPart}
    (h : ∀ part ∈ parts, part.lower.Unpooled) (span : Span) :
    Unpooled (tests negated parts span) := by
  intro L
  have hwhole : (disjunction L span parts).Unpooled := by
    cases parts with
    | nil => exact Lowering.unpooled_ofConstant rfl _
    | cons part parts =>
      exact .bind (unpooled_test (h part List.mem_cons_self) L) fun first =>
        unpooled_anyOf parts L span
  refine .bind hwhole fun whole hunpooled => ?_
  split
  · exact .pure hunpooled
  · split
    · exact Lowering.unpooled_ofConstant
        (Fragment.inline_of_cases (Fragment.ofBool?_cases _)) _
    · exact .pure (Fragment.unpooled_computed _ _)

end Lower

/-! ### Terms -/

namespace Term

/-- A fold sees the parts of a term. -/
theorem fold_eq {α : Type} (f : Term → List α → α) (t : Term) :
    t.fold f = f t (t.parts.map (fold f)) := by
  obtain ⟨shape, type, span, comments, warnings⟩ := t
  have hshape : foldShape f shape =
      (node shape type span comments warnings).parts.map (fold f) := by
    cases shape with
    | list items => exact foldList_eq_map f items
    | context entries => exact foldEntries_eq_map f entries
    | forIn its body =>
      change foldIterations f its ++ [fold f body] = _
      rw [foldIterations_eq_map, parts, Term.shape, List.map_append]
      rfl
    | quantified every its condition =>
      change foldIterations f its ++ [fold f condition] = _
      rw [foldIterations_eq_map, parts, Term.shape, List.map_append]
      rfl
    | invocation callee args names =>
      cases callee with
      | named name signature => exact foldList_eq_map f args
      | value callee => exact congrArg _ (foldList_eq_map f args)
    | tests negated tests => exact foldList_eq_map f tests
    | _ => rfl
  exact congrArg _ hshape

/-- Whether something holds of a term and of everything in it. -/
def all (p : Term → Bool) (t : Term) : Bool := t.fold fun t parts => p t && parts.all id

theorem everywhere_of_all {p : Term → Bool} {t : Term} (h : t.all p = true) :
    t.Everywhere fun s => p s = true := by
  induction t.everywhere with
  | @intro t _ _ ih =>
    rw [all, fold_eq, Bool.and_eq_true, List.all_eq_true, List.forall_mem_map] at h
    exact .intro h.1 fun s hs => ih s hs (h.2 s hs)

/-- Forms of which nothing known is pooled, where it is so for their parts. -/
def ownUnpooled (t : Term) : Bool :=
  match t.shape with
  | .null | .boolean _ | .dash | .testInput | .number (.integer _) | .name _ .bound
  | .name _ .input | .ite _ _ _ | .path _ _ | .tests _ _ => true
  | .binary op _ _ => op.isEquality || op.isLogic
  | _ => false

/-- **Of terms of these forms nothing known is pooled.** -/
theorem unpooled {t : Term} (h : t.Everywhere fun s => s.ownUnpooled = true) :
    (Fragment.ofTerm t).Unpooled := by
  induction h with
  | @intro t hown _ ih =>
    obtain ⟨shape, type, span, comments, warnings⟩ := t
    change Lower.Unpooled (Fragment.ofShape type span shape)
    have hcomputed : ∀ c : Code, Lower.Unpooled fun _ => return Fragment.computed c type :=
      fun c _ => .pure (Fragment.unpooled_computed c _)
    cases shape with
    | null =>
      refine fun L => .pure fun v hv => ?_
      cases hv
      rfl
    | boolean b => exact fun L => Lowering.unpooled_ofConstant rfl _
    | dash => exact fun L => Lowering.unpooled_ofConstant rfl _
    | testInput => exact hcomputed _
    | number n =>
      cases n with
      | integer n => exact fun L => Lowering.unpooled_ofConstant rfl _
      | _ => cases hown
    | name name origin =>
      cases origin with
      | bound => exact hcomputed _
      | input => exact hcomputed _
      | _ => cases hown
    | ite condition yes no =>
      exact Lower.unpooled_ite _ (ih yes (by simp [parts, Term.shape]))
        (ih no (by simp [parts, Term.shape])) type
    | path source member => exact Lower.unpooled_path _ member span
    | binary op left right =>
      exact Lower.unpooled_testing (by simpa [ownUnpooled, Term.shape] using hown) _ _ _
    | tests negated tests =>
      refine Lower.unpooled_tests negated (fun part hpart => ?_) span
      obtain ⟨t, ht, rfl⟩ := Fragment.mem_ofTests hpart
      exact ih t ht
    | _ => cases hown

end Term

end Feel
