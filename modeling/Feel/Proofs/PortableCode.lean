import Feel.Code.Equality
import Feel.Proofs.RenamedRuns
import Feel.Proofs.Simplify

/-!
# Portable code

The code of an expression holds constants without functions, and goes on from the cursors of its
steps in no other way than by stepping. Of such code renaming sees nothing but the cursors: it can
be done in several turns, it commutes with the computing of constant parts, and code that is the
same stays so. Where cursors are renamed to one name, code that differs in the numbers of its
cursors becomes one code, so that it holds of the same values wherever it runs.

* `Code.Portable`: constants without functions, and steps that go on from their cursor.
* `Code.Portable.rename_rename`: renaming in two turns.
* `Code.Portable.same_rename`: renamed code is the same where the code is.
* `Code.Portable.simplify_rename`: constant parts of renamed code.
* `Code.Portable.holds_rename`: renamed code holds at one place if and only if the code holds at
  another.
-/

namespace Feel

/-- Steps that do nothing but go on from their cursor. -/
def Domain.Stepping : Domain Code → Prop
  | values _ => True
  | steps _ _ cursor s p => s.isStep cursor = true ∧ p.isStep cursor = true

namespace Code

/-- A constant without functions, steps that go on from their cursor, and no table. -/
def ownPortable : Code → Prop
  | const v => v.Plain
  | forIn bs _ | quantified _ bs _ => ∀ b ∈ bs, b.domain.Stepping
  | decision _ => False
  | _ => True

/-- Code without tables whose constants hold no functions and whose steps go on from their
cursor. -/
abbrev Portable (c : Code) : Prop := c.Everywhere ownPortable

theorem portable_iff {c : Code} :
    c.Portable ↔ c.ownPortable ∧ ∀ d ∈ c.children, d.Portable := everywhere_iff

/-! ### Steps -/

variable {R R₁ R₂ : Renaming} {cursor cursor' : String} {s p : Code}

/-- A step goes on from its new cursor. -/
theorem isStep_rebase (h : s.isStep cursor = true) :
    ((s.rename R).rebase cursor cursor').isStep cursor' = true := by
  obtain ⟨op, mode, v, nullCheck, rfl⟩ | ⟨op, v, rfl⟩ := isStep_iff.mp h
  · rw [rebase_rename_arith]
    exact isStep_iff.mpr (.inl ⟨_, _, _, _, rfl⟩)
  · rw [rebase_rename_temporal]
    exact isStep_iff.mpr (.inr ⟨_, _, rfl⟩)

theorem rebase_rebase (hs : s.Portable) (h : s.isStep cursor = true) (cursor₁ cursor₂ : String) :
    ((((s.rename R₁).rebase cursor cursor₁).rename R₂).rebase cursor₁ cursor₂) =
      (s.rename R).rebase cursor cursor₂ := by
  obtain ⟨op, mode, v, nullCheck, rfl⟩ | ⟨op, v, rfl⟩ := isStep_iff.mp h
  · have hv : v.Plain := (hs.part (d := const v) (by simp [children])).here
    rw [rebase_rename_arith, rebase_rename_arith, rebase_rename_arith, hv.rename, hv.rename,
      hv.rename]
  · have hv : v.Plain := (hs.part (d := const v) (by simp [children])).here
    rw [rebase_rename_temporal, rebase_rename_temporal, rebase_rename_temporal, hv.rename,
      hv.rename, hv.rename]

/-- Steps are the same on new cursors where they were on the old. -/
theorem same_rebase {s' : Code} (h : s.isStep cursor = true) (h' : s'.isStep cursor = true)
    (cursor₁ : String) :
    ((s.rename R).rebase cursor cursor₁).same ((s'.rename R).rebase cursor cursor₁) =
      s.same s' := by
  obtain ⟨op, mode, v, nullCheck, rfl⟩ | ⟨op, v, rfl⟩ := isStep_iff.mp h <;>
    obtain ⟨op', mode', v', nullCheck', rfl⟩ | ⟨op', v', rfl⟩ := isStep_iff.mp h' <;>
    simp only [rebase_rename_arith, rebase_rename_temporal, same, beq_self_eq_true,
      Datum.same_rename]

/-- A step has nothing to compute. -/
theorem simplify_of_isStep (h : s.isStep cursor = true) (pool : List Value) (precision : Nat) :
    s.simplify pool precision = s := by
  obtain ⟨op, mode, v, nullCheck, rfl⟩ | ⟨op, v, rfl⟩ := isStep_iff.mp h <;> rfl

theorem renameDomain_steps (hs : s.isStep cursor = true) (hp : p.isStep cursor = true)
    (f l : Code) : renameDomain R (.steps f l cursor s p) =
      .steps (f.rename R) (l.rename R) (R.cursor cursor)
        ((s.rename R).rebase cursor (R.cursor cursor))
        ((p.rename R).rebase cursor (R.cursor cursor)) := by
  show Domain.steps _ _ (if s.isStep cursor && p.isStep cursor then _ else _) _ _ = _
  rw [hs, hp]
  rfl

/-! ### Parts of renamed code -/

variable (R) in
theorem renameList_eq (cs : List Code) : renameList R cs = cs.map (rename R) := by
  induction cs with
  | nil => rfl
  | cons c cs ih => exact congrArg _ ih

variable (R) in
theorem renameEntries_eq (es : List (String × Code)) :
    renameEntries R es = es.map fun e => (e.1, e.2.rename R) := by
  induction es with
  | nil => rfl
  | cons e es ih => exact congrArg _ ih

variable (R) in
theorem renameOption_eq (o : Option Code) : renameOption R o = o.map (rename R) := by
  cases o <;> rfl

variable (R) in
theorem renameBindings_eq (bs : List (Binding Code)) :
    renameBindings R bs = bs.map fun b => ⟨b.name, renameDomain R b.domain⟩ := by
  induction bs with
  | nil => rfl
  | cons b bs ih => exact congrArg _ ih

theorem cells_of_binding {bs : List (Binding Code)} {P : Code → Prop}
    (h : ∀ c ∈ bs.flatMap (·.domain.cells), P c) {b : Binding Code} (hb : b ∈ bs) :
    ∀ c ∈ b.domain.cells, P c := fun c hc => h c (List.mem_flatMap.mpr ⟨b, hb, hc⟩)

namespace Portable

variable {c : Code}

/-! ### Renaming in two turns -/

theorem renameDomain_renameDomain (h : ∀ x, R.cursor x = R₂.cursor (R₁.cursor x))
    {d : Domain Code} (hstepping : d.Stepping) (hcells : ∀ c ∈ d.cells, c.Portable)
    (ih : ∀ c ∈ d.cells, (c.rename R₁).rename R₂ = c.rename R) :
    renameDomain R₂ (renameDomain R₁ d) = renameDomain R d := by
  cases d with
  | values c => exact congrArg Domain.values (ih c List.mem_cons_self)
  | steps f l cursor s p =>
    obtain ⟨hs, hp⟩ := hstepping
    have hsp := hcells s (by simp [Domain.cells])
    have hpp := hcells p (by simp [Domain.cells])
    rw [renameDomain_steps hs hp, renameDomain_steps hs hp,
      renameDomain_steps (isStep_rebase hs) (isStep_rebase hp), ih f (by simp [Domain.cells]),
      ih l (by simp [Domain.cells]), h, rebase_rebase hsp hs, rebase_rebase hpp hp]

theorem renameBindings_renameBindings (h : ∀ x, R.cursor x = R₂.cursor (R₁.cursor x))
    {bs : List (Binding Code)} (hstepping : ∀ b ∈ bs, b.domain.Stepping)
    (hcells : ∀ c ∈ bs.flatMap (·.domain.cells), c.Portable)
    (ih : ∀ c ∈ bs.flatMap (·.domain.cells), (c.rename R₁).rename R₂ = c.rename R) :
    renameBindings R₂ (renameBindings R₁ bs) = renameBindings R bs := by
  rw [renameBindings_eq, renameBindings_eq, renameBindings_eq, List.map_map]
  refine List.map_congr_left fun b hb => ?_
  have hdomain := renameDomain_renameDomain h (hstepping b hb) (cells_of_binding hcells hb)
    (cells_of_binding ih hb)
  exact congrArg (Binding.mk b.name) hdomain

theorem renameList_renameList {cs : List Code}
    (ih : ∀ d ∈ cs, (d.rename R₁).rename R₂ = d.rename R) :
    renameList R₂ (renameList R₁ cs) = renameList R cs := by
  rw [renameList_eq, renameList_eq, renameList_eq, List.map_map]
  exact List.map_congr_left ih

/-- **Renaming in two turns** is renaming in one; of the places nothing is seen. -/
theorem rename_rename (h : ∀ x, R.cursor x = R₂.cursor (R₁.cursor x)) (hc : c.Portable) :
    (c.rename R₁).rename R₂ = c.rename R := by
  revert hc
  refine partsInduction (P := fun c => c.Portable → (c.rename R₁).rename R₂ = c.rename R)
    (fun c ih hc => ?_) c
  obtain ⟨hown, hparts⟩ := portable_iff.mp hc
  have ih : ∀ d ∈ c.children, (d.rename R₁).rename R₂ = d.rename R := fun d hd =>
    ih d hd (hparts d hd)
  cases c with
  | const v =>
    have hv : v.Plain := hown
    show const ((v.rename R₁).rename R₂) = const (v.rename R)
    rw [hv.rename, hv.rename, hv.rename]
  | list items => exact congrArg list (renameList_renameList ih)
  | context es =>
    show context (renameEntries R₂ (renameEntries R₁ es)) = context (renameEntries R es)
    rw [renameEntries_eq, renameEntries_eq, renameEntries_eq, List.map_map]
    refine congrArg context (List.map_congr_left fun e he => ?_)
    exact congrArg (Prod.mk e.1) (ih e.2 (List.mem_map_of_mem he))
  | range s e si ei =>
    have hoption : ∀ o : Option Code, (∀ d ∈ o.toList, (d.rename R₁).rename R₂ = d.rename R) →
        renameOption R₂ (renameOption R₁ o) = renameOption R o := by
      intro o ho
      cases o with
      | none => rfl
      | some d => exact congrArg some (ho d List.mem_cons_self)
    exact congrArg₂ (range · · si ei) (hoption s fun d hd => ih d (List.mem_append_left _ hd))
      (hoption e fun d hd => ih d (List.mem_append_right _ hd))
  | forIn bs body =>
    have hbindings := renameBindings_renameBindings h hown
      (fun d hd => hparts d (List.mem_append_left _ hd))
      fun d hd => ih d (List.mem_append_left _ hd)
    exact congrArg₂ forIn hbindings (ih body (by simp [children]))
  | quantified every bs condition =>
    have hbindings := renameBindings_renameBindings h hown
      (fun d hd => hparts d (List.mem_append_left _ hd))
      fun d hd => ih d (List.mem_append_left _ hd)
    exact congrArg₂ (quantified every) hbindings (ih condition (by simp [children]))
  | call target args names =>
    cases target with
    | builtin name => exact congrArg (call (.builtin name) · names) (renameList_renameList ih)
    | value callee =>
      obtain ⟨hcallee, hargs⟩ := List.forall_mem_cons.mp ih
      exact congrArg₂ (fun f cs => call (.value f) cs names) hcallee (renameList_renameList hargs)
  | decision t => exact hown.elim
  | constRef i => rfl
  | input => rfl
  | testInput => rfl
  | «local» name => rfl
  | inputField name => rfl
  | member x name => exact congrArg (member · name) (ih x (.head _))
  | not x => exact congrArg not (ih x (.head _))
  | negate x => exact congrArg negate (ih x (.head _))
  | instanceOf x target => exact congrArg (instanceOf · target) (ih x (.head _))
  | function params x type => exact congrArg (function params · type) (ih x (.head _))
  | convert x target => exact congrArg (convert · target) (ih x (.head _))
  | unaryMatch x => exact congrArg unaryMatch (ih x (.head _))
  | arith op mode l r nullCheck =>
    exact congrArg₂ (arith op mode · · nullCheck) (ih l (.head _)) (ih r (.tail _ (.head _)))
  | concat l r => exact congrArg₂ concat (ih l (.head _)) (ih r (.tail _ (.head _)))
  | temporal op l r =>
    exact congrArg₂ (temporal op · ·) (ih l (.head _)) (ih r (.tail _ (.head _)))
  | compare op mode l r =>
    exact congrArg₂ (compare op mode · ·) (ih l (.head _)) (ih r (.tail _ (.head _)))
  | equal mode negated l r =>
    exact congrArg₂ (equal mode negated · ·) (ih l (.head _)) (ih r (.tail _ (.head _)))
  | logic op shortCircuit l r =>
    exact congrArg₂ (logic op shortCircuit · ·) (ih l (.head _)) (ih r (.tail _ (.head _)))
  | dynamic op l r =>
    exact congrArg₂ (dynamic op · ·) (ih l (.head _)) (ih r (.tail _ (.head _)))
  | listContains l r =>
    exact congrArg₂ listContains (ih l (.head _)) (ih r (.tail _ (.head _)))
  | rangeContains l r =>
    exact congrArg₂ rangeContains (ih l (.head _)) (ih r (.tail _ (.head _)))
  | withTestInput l r =>
    exact congrArg₂ withTestInput (ih l (.head _)) (ih r (.tail _ (.head _)))
  | filter l r kind =>
    exact congrArg₂ (filter · · kind) (ih l (.head _)) (ih r (.tail _ (.head _)))
  | ite x y z =>
    show ite _ _ _ = ite _ _ _
    rw [ih x (by simp [children]), ih y (by simp [children]), ih z (by simp [children])]
  | between x y z =>
    show between _ _ _ = between _ _ _
    rw [ih x (by simp [children]), ih y (by simp [children]), ih z (by simp [children])]

/-- Of portable code renaming sees the cursors alone. -/
theorem rename_congr (h : c.Portable) {A B : Renaming} (hcursor : A.cursor = B.cursor) :
    c.rename A = c.rename B := by
  let I : Renaming := ⟨id, id, Function.injective_id⟩
  have hA : (c.rename I).rename A = c.rename A := h.rename_rename fun _ => rfl
  have hB : (c.rename I).rename A = c.rename B := h.rename_rename fun x => by rw [hcursor]; rfl
  rw [← hA, hB]

/-! ### Equality of renamed code -/

theorem sameList_rename {cs ds : List Code}
    (h : ∀ c ∈ cs, ∀ d ∈ ds, (c.rename R).same (d.rename R) = c.same d) :
    sameList (cs.map (rename R)) (ds.map (rename R)) = sameList cs ds := by
  induction cs generalizing ds with
  | nil => cases ds <;> simp only [List.map_nil, List.map_cons, sameList]
  | cons c cs ih =>
    cases ds with
    | nil => simp only [List.map_nil, List.map_cons, sameList]
    | cons d ds =>
      rw [List.map_cons, List.map_cons, sameList, sameList,
        h c List.mem_cons_self d List.mem_cons_self,
        ih fun c hc d hd => h c (List.mem_cons_of_mem _ hc) d (List.mem_cons_of_mem _ hd)]

theorem sameDomain_rename (hR : Function.Injective R.cursor) {a b : Domain Code} (ha : a.Stepping)
    (hb : b.Stepping)
    (h : ∀ c ∈ a.cells, ∀ d ∈ b.cells, (c.rename R).same (d.rename R) = c.same d) :
    sameDomain (renameDomain R a) (renameDomain R b) = sameDomain a b := by
  cases a with
  | values c =>
    cases b with
    | values d =>
      show sameDomain (.values _) (.values _) = _
      rw [sameDomain, sameDomain, h c List.mem_cons_self d List.mem_cons_self]
    | steps f l cursor s p =>
      show sameDomain (.values _) (.steps _ _ _ _ _) = _
      simp only [sameDomain]
  | steps f l cursor s p =>
    cases b with
    | values d =>
      show sameDomain (.steps _ _ _ _ _) (.values _) = _
      simp only [sameDomain]
    | steps f' l' cursor' s' p' =>
      obtain ⟨hs, hp⟩ := ha
      obtain ⟨hs', hp'⟩ := hb
      rw [renameDomain_steps hs hp, renameDomain_steps hs' hp']
      simp only [sameDomain, h f (by simp [Domain.cells]) f' (by simp [Domain.cells]),
        h l (by simp [Domain.cells]) l' (by simp [Domain.cells])]
      by_cases hcursor : cursor = cursor'
      · subst hcursor
        simp only [same_rebase hs hs', same_rebase hp hp', beq_self_eq_true]
      · have hold : (cursor == cursor') = false := beq_eq_false_iff_ne.mpr hcursor
        have hnew : (R.cursor cursor == R.cursor cursor') = false :=
          beq_eq_false_iff_ne.mpr fun heq => hcursor (hR heq)
        simp only [hold, hnew, Bool.and_false, Bool.false_and]

theorem sameBindings_rename (hR : Function.Injective R.cursor) {as bs : List (Binding Code)}
    (ha : ∀ b ∈ as, b.domain.Stepping) (hb : ∀ b ∈ bs, b.domain.Stepping)
    (h : ∀ c ∈ as.flatMap (·.domain.cells), ∀ d ∈ bs.flatMap (·.domain.cells),
      (c.rename R).same (d.rename R) = c.same d) :
    sameBindings (renameBindings R as) (renameBindings R bs) = sameBindings as bs := by
  induction as generalizing bs with
  | nil =>
    cases bs with
    | nil => rfl
    | cons b bs =>
      show sameBindings [] (_ :: _) = _
      simp only [sameBindings]
  | cons a as ih =>
    obtain ⟨name, domain⟩ := a
    cases bs with
    | nil =>
      show sameBindings (_ :: _) [] = _
      simp only [sameBindings]
    | cons b bs =>
      obtain ⟨name', domain'⟩ := b
      rw [List.forall_mem_cons] at ha hb
      have hdomain := sameDomain_rename hR ha.1 hb.1 fun c hc d hd =>
        h c (List.mem_append_left _ hc) d (List.mem_append_left _ hd)
      show sameBindings (_ :: _) (_ :: _) = _
      rw [sameBindings, sameBindings, hdomain,
        ih ha.2 hb.2 fun c hc d hd => h c (List.mem_append_right _ hc) d (List.mem_append_right _ hd)]

/-- Renaming keeps the form of code. -/
theorem ctorIdx_rename (c : Code) : (c.rename R).ctorIdx = c.ctorIdx := by
  cases c <;> rfl

/-- Renaming changes nothing but the parts of a plain form. -/
theorem bare_rename (h : c.isPlain = true) : (c.rename R).bare = c.bare := by
  cases c with
  | list cs =>
    show bare (list (renameList R cs)) = _
    rw [renameList_eq, bare, bare, List.map_map]
    rfl
  | context es =>
    show bare (context (renameEntries R es)) = _
    rw [renameEntries_eq, bare, bare, List.map_map]
    rfl
  | range s e si ei => cases s <;> cases e <;> rfl
  | call target args names =>
    cases target with
    | builtin name =>
      show bare (call (.builtin name) (renameList R args) names) = _
      rw [renameList_eq, bare, bare, List.map_map]
      rfl
    | value callee =>
      show bare (call (.value _) (renameList R args) names) = _
      rw [renameList_eq, bare, bare, List.map_map]
      rfl
  | const | constRef | forIn | quantified | decision => cases h
  | _ => rfl

theorem children_rename (h : c.isPlain = true) :
    (c.rename R).children = c.children.map (rename R) := by
  cases c with
  | list cs => exact renameList_eq R cs
  | context es =>
    show (renameEntries R es).map (·.2) = (es.map (·.2)).map (rename R)
    rw [renameEntries_eq, List.map_map, List.map_map]
    rfl
  | range s e si ei => cases s <;> cases e <;> rfl
  | call target args names =>
    cases target with
    | builtin name => exact renameList_eq R args
    | value callee => exact congrArg (callee.rename R :: ·) (renameList_eq R args)
  | const | constRef | forIn | quantified | decision => cases h
  | _ => rfl

/-- **Renamed code is the same** where the code is. -/
theorem same_rename (hR : Function.Injective R.cursor) {d : Code} (hc : c.Portable)
    (hd : d.Portable) : (c.rename R).same (d.rename R) = c.same d := by
  revert hc d
  refine partsInduction (P := fun c => ∀ {d : Code}, c.Portable → d.Portable →
    (c.rename R).same (d.rename R) = c.same d) (fun c ih d hc hd => ?_) c
  obtain ⟨hown, hparts⟩ := portable_iff.mp hc
  obtain ⟨hown', hparts'⟩ := portable_iff.mp hd
  have ih : ∀ x ∈ c.children, ∀ y ∈ d.children, (x.rename R).same (y.rename R) = x.same y :=
    fun x hx y hy => ih x hx (hparts x hx) (hparts' y hy)
  by_cases hform : d.ctorIdx = c.ctorIdx
  case neg =>
    rw [same_of_ctorIdx_ne (Ne.symm hform), same_of_ctorIdx_ne fun heq => hform ?_]
    rw [ctorIdx_rename, ctorIdx_rename] at heq
    exact heq.symm
  by_cases hplain : c.isPlain = true
  · have hplain' : d.isPlain = true := isPlain_of_form hplain hform
    have hrenamed : (c.rename R).isPlain = true := isPlain_of_form hplain (ctorIdx_rename c)
    rw [same_plain hrenamed, same_plain hplain, bare_rename hplain, bare_rename hplain',
      children_rename hplain, children_rename hplain', sameList_rename ih]
  cases c with
  | const v =>
    obtain ⟨w, rfl⟩ : ∃ w, d = const w := const.elim d hform fun _ => ⟨_, rfl⟩
    show same (const _) (const _) = _
    simp only [same, Datum.same_rename]
  | constRef i =>
    obtain ⟨i', rfl⟩ : ∃ i', d = constRef i' := constRef.elim d hform fun _ => ⟨_, rfl⟩
    rfl
  | forIn bs body =>
    obtain ⟨bs', body', rfl⟩ : ∃ bs' body', d = forIn bs' body' :=
      forIn.elim d hform fun _ _ => ⟨_, _, rfl⟩
    have hbindings := sameBindings_rename hR hown hown' fun x hx y hy =>
      ih x (List.mem_append_left _ hx) y (List.mem_append_left _ hy)
    show same (forIn _ _) (forIn _ _) = _
    simp only [same, hbindings,
      ih body (by simp [children]) body' (by simp [children])]
  | quantified every bs body =>
    obtain ⟨every', bs', body', rfl⟩ : ∃ every' bs' body', d = quantified every' bs' body' :=
      quantified.elim d hform fun _ _ _ => ⟨_, _, _, rfl⟩
    have hbindings := sameBindings_rename hR hown hown' fun x hx y hy =>
      ih x (List.mem_append_left _ hx) y (List.mem_append_left _ hy)
    show same (quantified _ _ _) (quantified _ _ _) = _
    simp only [same, hbindings,
      ih body (by simp [children]) body' (by simp [children])]
  | decision t => exact hown.elim
  | _ => exact absurd rfl hplain

/-! ### Constant parts of renamed code -/

section Simplify

variable {pool : List Value} {precision : Nat} (hpool : ∀ v ∈ pool, v.rename R = v)
include hpool

theorem valueIn?_rename (c : Code) :
    (c.rename R).valueIn? pool = (c.valueIn? pool).map (Datum.rename R) := by
  cases c with
  | constRef i =>
    show pool[i]? = pool[i]?.map (Datum.rename R)
    cases hv : pool[i]? with
    | none => rfl
    | some v => exact congrArg some (hpool v (List.mem_of_getElem? hv)).symm
  | _ => rfl

theorem onConstants_rename {f : Value → Value → Value}
    (hf : ∀ v w : Value, f (v.rename R) (w.rename R) = (f v w).rename R) (l r whole : Code) :
    onConstants pool f (l.rename R) (r.rename R) (whole.rename R) =
      (onConstants pool f l r whole).rename R := by
  unfold onConstants
  rw [valueIn?_rename hpool, valueIn?_rename hpool]
  cases l.valueIn? pool with
  | none => rfl
  | some v =>
    cases r.valueIn? pool with
    | none => rfl
    | some w => exact congrArg const (hf v w)

theorem onConstant_rename {f : Value → Value} (hf : ∀ v : Value, f (v.rename R) = (f v).rename R)
    (c whole : Code) :
    onConstant pool f (c.rename R) (whole.rename R) = (onConstant pool f c whole).rename R := by
  unfold onConstant
  rw [valueIn?_rename hpool]
  cases c.valueIn? pool with
  | none => rfl
  | some v => exact congrArg const (hf v)

theorem simplifyLogic_rename (op : Operator) (shortCircuit : Bool) (l r : Code) :
    simplifyLogic pool op shortCircuit (l.rename R) (r.rename R) =
      (simplifyLogic pool op shortCircuit l r).rename R := by
  have hdominates : ∀ c : Code, ((c.rename R).valueIn? pool).any (·.isBool (op == .or)) =
      (c.valueIn? pool).any (·.isBool (op == .or)) := by
    intro c
    rw [valueIn?_rename hpool]
    cases c.valueIn? pool with
    | none => rfl
    | some v => exact Datum.isBool_rename R v _
  unfold simplifyLogic
  simp only [hdominates]
  rw [valueIn?_rename hpool, valueIn?_rename hpool]
  generalize ((l.valueIn? pool).any (·.isBool (op == .or)) ||
    (r.valueIn? pool).any (·.isBool (op == .or))) = dominated
  cases l.valueIn? pool with
  | none =>
    rw [apply_ite (rename R)]
    rfl
  | some v =>
    cases r.valueIn? pool with
    | none =>
      rw [apply_ite (rename R)]
      rfl
    | some w => exact congrArg const (Datum.logic_rename R v w op)

theorem simplifyBetween_rename (x y z : Code) :
    simplifyBetween pool (x.rename R) (y.rename R) (z.rename R) =
      (simplifyBetween pool x y z).rename R := by
  unfold simplifyBetween
  rw [valueIn?_rename hpool, valueIn?_rename hpool, valueIn?_rename hpool]
  cases x.valueIn? pool with
  | none => rfl
  | some v =>
    cases y.valueIn? pool with
    | none => rfl
    | some lo =>
      cases z.valueIn? pool with
      | none => rfl
      | some hi =>
        refine congrArg const ?_
        rw [Datum.compare_rename, Datum.compare_rename, Datum.and_rename]

omit hpool in
theorem simplifyList_rename {cs : List Code}
    (ih : ∀ c ∈ cs, (c.rename R).simplify pool precision = (c.simplify pool precision).rename R) :
    simplifyList pool precision (renameList R cs) = renameList R (simplifyList pool precision cs) := by
  rw [renameList_eq, simplifyList_eq, simplifyList_eq, renameList_eq, List.map_map, List.map_map]
  exact List.map_congr_left ih

omit hpool in
theorem simplifyDomain_rename {d : Domain Code} (hstepping : d.Stepping)
    (ih : ∀ c ∈ d.cells,
      (c.rename R).simplify pool precision = (c.simplify pool precision).rename R) :
    simplifyDomain pool precision (renameDomain R d) =
      renameDomain R (simplifyDomain pool precision d) := by
  cases d with
  | values c => exact congrArg Domain.values (ih c List.mem_cons_self)
  | steps f l cursor s p =>
    obtain ⟨hs, hp⟩ := hstepping
    rw [renameDomain_steps hs hp]
    show Domain.steps ((f.rename R).simplify _ _) ((l.rename R).simplify _ _) _ _ _ =
      renameDomain R (.steps _ _ cursor (s.simplify _ _) (p.simplify _ _))
    rw [simplify_of_isStep hs, simplify_of_isStep hp, renameDomain_steps hs hp,
      simplify_of_isStep (isStep_rebase hs), simplify_of_isStep (isStep_rebase hp),
      ih f (by simp [Domain.cells]), ih l (by simp [Domain.cells])]

omit hpool in
theorem simplifyBindings_rename {bs : List (Binding Code)}
    (hstepping : ∀ b ∈ bs, b.domain.Stepping)
    (ih : ∀ c ∈ bs.flatMap (·.domain.cells),
      (c.rename R).simplify pool precision = (c.simplify pool precision).rename R) :
    simplifyBindings pool precision (renameBindings R bs) =
      renameBindings R (simplifyBindings pool precision bs) := by
  rw [simplifyBindings_eq, renameBindings_eq, simplifyBindings_eq, renameBindings_eq,
    List.map_map, List.map_map]
  exact List.map_congr_left fun b hb => congrArg (Binding.mk b.name)
    (simplifyDomain_rename (hstepping b hb) (cells_of_binding ih hb))

/-- **Constant parts of renamed code** are those of the code, renamed. -/
theorem simplify_rename (hc : c.Portable) :
    (c.rename R).simplify pool precision = (c.simplify pool precision).rename R := by
  revert hc
  refine partsInduction (P := fun c => c.Portable →
    (c.rename R).simplify pool precision = (c.simplify pool precision).rename R)
    (fun c ih hc => ?_) c
  obtain ⟨hown, hparts⟩ := portable_iff.mp hc
  have ih : ∀ d ∈ c.children, (d.rename R).simplify pool precision =
      (d.simplify pool precision).rename R := fun d hd => ih d hd (hparts d hd)
  cases c with
  | constRef i => rfl
  | const v => rfl
  | input => rfl
  | testInput => rfl
  | «local» name => rfl
  | inputField name => rfl
  | arith op mode l r nullCheck =>
    show onConstants pool _ ((l.rename R).simplify _ _) ((r.rename R).simplify _ _) (arith _ _ _ _ _) = _
    rw [ih l (.head _), ih r (.tail _ (.head _))]
    exact onConstants_rename hpool (fun v w => Datum.arith_rename R v w op mode precision) _ _
      (arith op mode _ _ nullCheck)
  | concat l r =>
    show onConstants pool _ ((l.rename R).simplify _ _) ((r.rename R).simplify _ _) (concat _ _) = _
    rw [ih l (.head _), ih r (.tail _ (.head _))]
    exact onConstants_rename hpool (Datum.concat_rename R) _ _ (concat _ _)
  | temporal op l r =>
    show onConstants pool _ ((l.rename R).simplify _ _) ((r.rename R).simplify _ _) (temporal _ _ _) = _
    rw [ih l (.head _), ih r (.tail _ (.head _))]
    exact onConstants_rename hpool (fun v w => Datum.temporal_rename R v w op) _ _
      (temporal op _ _)
  | compare op mode l r =>
    show onConstants pool _ ((l.rename R).simplify _ _) ((r.rename R).simplify _ _) (compare _ _ _ _) = _
    rw [ih l (.head _), ih r (.tail _ (.head _))]
    exact onConstants_rename hpool (fun v w => Datum.compareAs_rename R v w op mode) _ _
      (compare op mode _ _)
  | equal mode negated l r =>
    show onConstants pool _ ((l.rename R).simplify _ _) ((r.rename R).simplify _ _) (equal _ _ _ _) = _
    rw [ih l (.head _), ih r (.tail _ (.head _))]
    exact onConstants_rename hpool (fun v w => Datum.equality_rename R v w negated) _ _
      (equal mode negated _ _)
  | dynamic op l r =>
    show onConstants pool _ ((l.rename R).simplify _ _) ((r.rename R).simplify _ _) (dynamic _ _ _) = _
    rw [ih l (.head _), ih r (.tail _ (.head _))]
    exact onConstants_rename hpool (fun v w => Datum.dynamic_rename R v w op) _ _ (dynamic op _ _)
  | logic op shortCircuit l r =>
    show simplifyLogic pool op shortCircuit ((l.rename R).simplify _ _) ((r.rename R).simplify _ _) = _
    rw [ih l (.head _), ih r (.tail _ (.head _))]
    exact simplifyLogic_rename hpool op shortCircuit _ _
  | not x =>
    show onConstant pool _ ((x.rename R).simplify _ _) (not _) = _
    rw [ih x (.head _)]
    exact onConstant_rename hpool (Datum.not_rename R) _ (not _)
  | negate x =>
    show onConstant pool _ ((x.rename R).simplify _ _) (negate _) = _
    rw [ih x (.head _)]
    exact onConstant_rename hpool (Datum.negate_rename R) _ (negate _)
  | ite x y z =>
    show (ite (x.rename R) (y.rename R) (z.rename R)).simplify pool precision = _
    rw [simplify_ite, simplify_ite, ih x (by simp [children]), ih y (by simp [children]),
      ih z (by simp [children]), valueIn?_rename hpool]
    cases (x.simplify pool precision).valueIn? pool with
    | none => rfl
    | some v =>
      simp only [Option.map_some, Datum.isBool_rename]
      exact (apply_ite (rename R) _ _ _).symm
  | between x y z =>
    show simplifyBetween pool ((x.rename R).simplify _ _) ((y.rename R).simplify _ _)
      ((z.rename R).simplify _ _) = _
    rw [ih x (by simp [children]), ih y (by simp [children]), ih z (by simp [children])]
    exact simplifyBetween_rename hpool _ _ _
  | list items =>
    exact congrArg list (simplifyList_rename ih)
  | context es =>
    show context (simplifyEntries pool precision (renameEntries R es)) =
      context (renameEntries R (simplifyEntries pool precision es))
    rw [simplifyEntries_eq, simplifyEntries_eq, renameEntries_eq, renameEntries_eq, List.map_map,
      List.map_map]
    refine congrArg context (List.map_congr_left fun e he => ?_)
    exact congrArg (Prod.mk e.1) (ih e.2 (List.mem_map_of_mem he))
  | range s e si ei =>
    have hoption : ∀ o : Option Code, (∀ d ∈ o.toList, (d.rename R).simplify pool precision =
        (d.simplify pool precision).rename R) →
          simplifyOption pool precision (renameOption R o) =
            renameOption R (simplifyOption pool precision o) := by
      intro o ho
      cases o with
      | none => rfl
      | some d => exact congrArg some (ho d List.mem_cons_self)
    exact congrArg₂ (range · · si ei) (hoption s fun d hd => ih d (List.mem_append_left _ hd))
      (hoption e fun d hd => ih d (List.mem_append_right _ hd))
  | forIn bs body =>
    exact congrArg₂ forIn
      (simplifyBindings_rename hown fun d hd => ih d (List.mem_append_left _ hd))
      (ih body (by simp [children]))
  | quantified every bs condition =>
    exact congrArg₂ (quantified every)
      (simplifyBindings_rename hown fun d hd => ih d (List.mem_append_left _ hd))
      (ih condition (by simp [children]))
  | call target args names =>
    cases target with
    | builtin name => exact congrArg (call (.builtin name) · names) (simplifyList_rename ih)
    | value callee =>
      obtain ⟨hcallee, hargs⟩ := List.forall_mem_cons.mp ih
      exact congrArg₂ (fun f cs => call (.value f) cs names) hcallee (simplifyList_rename hargs)
  | decision t => exact hown.elim
  | member x name => exact congrArg (member · name) (ih x (.head _))
  | instanceOf x target => exact congrArg (instanceOf · target) (ih x (.head _))
  | function params x type => exact congrArg (function params · type) (ih x (.head _))
  | convert x target => exact congrArg (convert · target) (ih x (.head _))
  | unaryMatch x => exact congrArg unaryMatch (ih x (.head _))
  | listContains l r =>
    exact congrArg₂ listContains (ih l (.head _)) (ih r (.tail _ (.head _)))
  | rangeContains l r =>
    exact congrArg₂ rangeContains (ih l (.head _)) (ih r (.tail _ (.head _)))
  | withTestInput l r =>
    exact congrArg₂ withTestInput (ih l (.head _)) (ih r (.tail _ (.head _)))
  | filter l r kind =>
    exact congrArg₂ (filter · · kind) (ih l (.head _)) (ih r (.tail _ (.head _)))

end Simplify

/-! ### Runs -/

section Runs

variable {natives : Natives} {pool : List Value} {precision : Nat} {c' : Code}
  {A B : Renaming} {site site' : Site} {frame : Frame} {v : Value}

/-- Two codes that become one, each by its own renaming, hold of the same values, as far as the
renamings do not tell frames and values apart. -/
theorem holds_eq_of_rename_eq (h : natives.Uniform) (hA : ∀ w ∈ pool, w.rename A = w)
    (hB : ∀ w ∈ pool, w.rename B = w) {target : Site} (hsite : A.Carries site target)
    (hsite' : B.Carries site' target) (hframe : frame.rename A = frame.rename B)
    (hv : v.rename A = v.rename B) (hcode : c.rename A = c'.rename B) :
    (c'.denote (.ofPool natives pool precision)).holds site' frame v =
      (c.denote (.ofPool natives pool precision)).holds site frame v := by
  have hmap : ∀ R : Renaming, (∀ w ∈ pool, w.rename R = w) → pool.map (Datum.rename R) = pool :=
    fun R hR => (List.map_congr_left hR).trans (List.map_id pool)
  have hleft := (c.denote_follows (Machine.ofPool_follows h A pool precision)).holds hsite frame v
  have hright :=
    (c'.denote_follows (Machine.ofPool_follows h B pool precision)).holds hsite' frame v
  rw [hmap A hA, hframe, hv, hcode] at hleft
  rw [hmap B hB] at hright
  exact hright.symm.trans hleft

end Runs

end Portable

end Code

end Feel
