import Feel.Code.Fold

/-!
# Parts of code

A tree of code and its direct parts. Statements about all code are proved by induction on the
parts, and a fold is what it makes of the folds of the parts.

* `Code.partsInduction`: what follows for a tree from its direct parts holds of all trees.
* `Code.fold_eq`: a fold over a tree from the folds over its direct parts.
* `Code.Everywhere`: what holds of a tree and of everything in it.
-/

namespace Feel

namespace Code

/-! ### Induction -/

/-- What passes from the direct parts of a tree to the tree. -/
def Ascends (P : Code → Prop) : Prop := ∀ c : Code, (∀ d ∈ c.children, P d) → P c

section Induction

variable {P : Code → Prop}

section Few

variable {c l r whole : Code}

theorem parts_nil (h : whole.children = []) : ∀ d ∈ whole.children, P d := by
  rw [h]
  exact List.forall_mem_nil P

theorem parts_one (hc : P c) (h : whole.children = [c]) : ∀ d ∈ whole.children, P d := by
  rw [h]
  exact List.forall_mem_singleton.mpr hc

theorem parts_two (hl : P l) (hr : P r) (h : whole.children = [l, r]) :
    ∀ d ∈ whole.children, P d := by
  rw [h]
  exact List.forall_mem_cons.mpr ⟨hl, List.forall_mem_singleton.mpr hr⟩

theorem parts_three (hc : P c) (hl : P l) (hr : P r) (h : whole.children = [c, l, r]) :
    ∀ d ∈ whole.children, P d := by
  rw [h]
  exact List.forall_mem_cons.mpr ⟨hc, List.forall_mem_cons.mpr
    ⟨hl, List.forall_mem_singleton.mpr hr⟩⟩

end Few

mutual

/-- What follows for a tree from its direct parts holds of all trees. -/
theorem partsInduction (step : Ascends P) : ∀ c : Code, P c
  | const v => step _ (parts_nil rfl)
  | constRef i => step _ (parts_nil rfl)
  | input => step _ (parts_nil rfl)
  | testInput => step _ (parts_nil rfl)
  | «local» n => step _ (parts_nil rfl)
  | inputField n => step _ (parts_nil rfl)
  | member s n => step _ (parts_one (partsInduction step s) rfl)
  | arith op mode l r n => step _ (parts_two (partsInduction step l) (partsInduction step r) rfl)
  | concat l r => step _ (parts_two (partsInduction step l) (partsInduction step r) rfl)
  | temporal op l r => step _ (parts_two (partsInduction step l) (partsInduction step r) rfl)
  | compare op mode l r => step _ (parts_two (partsInduction step l) (partsInduction step r) rfl)
  | equal mode neg l r => step _ (parts_two (partsInduction step l) (partsInduction step r) rfl)
  | logic op s l r => step _ (parts_two (partsInduction step l) (partsInduction step r) rfl)
  | not c => step _ (parts_one (partsInduction step c) rfl)
  | negate c => step _ (parts_one (partsInduction step c) rfl)
  | dynamic op l r => step _ (parts_two (partsInduction step l) (partsInduction step r) rfl)
  | ite c y n =>
    step _ (parts_three (partsInduction step c) (partsInduction step y) (partsInduction step n) rfl)
  | list items => step _ (partsInductionList step items)
  | context es => step _ (partsInductionEntries step es)
  | range s e si ei => step _ fun d hd => by
    rcases List.mem_append.mp hd with h | h
    · exact partsInductionOption step s d h
    · exact partsInductionOption step e d h
  | between v l h =>
    step _ (parts_three (partsInduction step v) (partsInduction step l) (partsInduction step h) rfl)
  | instanceOf v t => step _ (parts_one (partsInduction step v) rfl)
  | filter s p kind => step _ (parts_two (partsInduction step s) (partsInduction step p) rfl)
  | forIn bs body => step _ fun d hd => by
    rcases List.mem_append.mp hd with h | h
    · exact partsInductionBindings step bs d h
    · rw [List.mem_singleton.mp h]
      exact partsInduction step body
  | quantified every bs c => step _ fun d hd => by
    rcases List.mem_append.mp hd with h | h
    · exact partsInductionBindings step bs d h
    · rw [List.mem_singleton.mp h]
      exact partsInduction step c
  | function ps body t => step _ (parts_one (partsInduction step body) rfl)
  | call (.builtin name) args names => step _ (partsInductionList step args)
  | call (.value callee) args names => step _ fun d hd => by
    rcases List.mem_cons.mp hd with h | h
    · rw [h]
      exact partsInduction step callee
    · exact partsInductionList step args d h
  | convert v t => step _ (parts_one (partsInduction step v) rfl)
  | unaryMatch t => step _ (parts_one (partsInduction step t) rfl)
  | listContains l v => step _ (parts_two (partsInduction step l) (partsInduction step v) rfl)
  | rangeContains r v => step _ (parts_two (partsInduction step r) (partsInduction step v) rfl)
  | withTestInput s b => step _ (parts_two (partsInduction step s) (partsInduction step b) rfl)
  | decision t => step _ (partsInductionMatrix step t)
termination_by structural c => c

theorem partsInductionList (step : Ascends P) : ∀ cs : List Code, ∀ d ∈ cs, P d
  | [], d, hd => by simp at hd
  | c :: cs, d, hd => by
    rcases List.mem_cons.mp hd with h | h
    · rw [h]
      exact partsInduction step c
    · exact partsInductionList step cs d h
termination_by structural cs => cs

theorem partsInductionEntries (step : Ascends P) :
    ∀ es : List (String × Code), ∀ d ∈ es.map (·.2), P d
  | [], d, hd => by simp at hd
  | (n, c) :: es, d, hd => by
    rcases List.mem_cons.mp hd with h | h
    · rw [h]
      exact partsInduction step c
    · exact partsInductionEntries step es d h
termination_by structural es => es

theorem partsInductionOption (step : Ascends P) : ∀ o : Option Code, ∀ d ∈ o.toList, P d
  | none, d, hd => by simp at hd
  | some c, d, hd => by
    rw [List.mem_singleton.mp hd]
    exact partsInduction step c
termination_by structural o => o

theorem partsInductionBindings (step : Ascends P) :
    ∀ bs : List (Binding Code), ∀ d ∈ bs.flatMap (·.domain.cells), P d
  | [], d, hd => by simp at hd
  | ⟨n, domain⟩ :: bs, d, hd => by
    rcases List.mem_append.mp hd with h | h
    · exact partsInductionDomain step domain d h
    · exact partsInductionBindings step bs d h
termination_by structural bs => bs

theorem partsInductionDomain (step : Ascends P) : ∀ domain : Domain Code, ∀ d ∈ domain.cells, P d
  | .values c, d, hd => by
    rw [List.mem_singleton.mp hd]
    exact partsInduction step c
  | .steps f l cursor s p, d, hd => by
    have h : d = f ∨ d = l ∨ d = s ∨ d = p := by simpa [Domain.cells] using hd
    rcases h with h | h | h | h
    · rw [h]
      exact partsInduction step f
    · rw [h]
      exact partsInduction step l
    · rw [h]
      exact partsInduction step s
    · rw [h]
      exact partsInduction step p
termination_by structural domain => domain

theorem partsInductionMatrix (step : Ascends P) : ∀ t : DecisionMatrix Code, ∀ d ∈ t.cells, P d
  | ⟨name, inputs, rules, outputs, policy, aggregation, single⟩, d, hd => by
    rcases List.mem_append.mp hd with h | h
    · rcases List.mem_append.mp h with h | h
      · exact partsInductionList step inputs d h
      · exact partsInductionRules step rules d h
    · exact partsInductionOutputs step outputs d h
termination_by structural t => t

theorem partsInductionRules (step : Ascends P) : ∀ rs : List (MatrixRule Code),
    ∀ d ∈ rs.flatMap (fun r => r.conditions ++ r.outputs), P d
  | [], d, hd => by simp at hd
  | ⟨cs, os⟩ :: rs, d, hd => by
    rcases List.mem_append.mp hd with h | h
    · rcases List.mem_append.mp h with h | h
      · exact partsInductionList step cs d h
      · exact partsInductionList step os d h
    · exact partsInductionRules step rs d h
termination_by structural rs => rs

theorem partsInductionOutputs (step : Ascends P) : ∀ os : List (MatrixOutput Code),
    ∀ d ∈ os.flatMap (fun o => o.check.toList ++ o.priorities ++ o.fallback.toList), P d
  | [], d, hd => by simp at hd
  | ⟨name, check, ps, fallback⟩ :: os, d, hd => by
    rcases List.mem_append.mp hd with h | h
    · rcases List.mem_append.mp h with h | h
      · rcases List.mem_append.mp h with h | h
        · exact partsInductionOption step check d h
        · exact partsInductionList step ps d h
      · exact partsInductionOption step fallback d h
    · exact partsInductionOutputs step os d h
termination_by structural os => os

end

end Induction

/-! ### Folds -/

section Fold

variable {α : Type} (f : Code → List α → α)

theorem foldList_eq (cs : List Code) : foldList f cs = cs.map (fold f) := by
  induction cs with
  | nil => rfl
  | cons c cs ih => exact congrArg _ ih

theorem foldEntries_eq (es : List (String × Code)) :
    foldEntries f es = (es.map (·.2)).map (fold f) := by
  induction es with
  | nil => rfl
  | cons e es ih => exact congrArg _ ih

theorem foldOption_eq (o : Option Code) : foldOption f o = o.toList.map (fold f) := by
  cases o with
  | none => rfl
  | some c => rfl

theorem foldBindings_eq (bs : List (Binding Code)) :
    foldBindings f bs = (bs.flatMap (·.domain.cells)).map (fold f) := by
  induction bs with
  | nil => rfl
  | cons b bs ih =>
    obtain ⟨n, domain⟩ := b
    show foldDomain f domain ++ foldBindings f bs = _
    rw [ih, List.flatMap_cons, List.map_append]
    cases domain with
    | values c => rfl
    | steps a b cursor s p => rfl

theorem foldRules_eq (rs : List (MatrixRule Code)) :
    foldRules f rs = (rs.flatMap fun r => r.conditions ++ r.outputs).map (fold f) := by
  induction rs with
  | nil => rfl
  | cons r rs ih =>
    obtain ⟨cs, os⟩ := r
    show foldList f cs ++ foldList f os ++ foldRules f rs = _
    rw [ih, foldList_eq, foldList_eq, List.flatMap_cons, List.map_append, List.map_append]

theorem foldOutputs_eq (os : List (MatrixOutput Code)) :
    foldOutputs f os =
      (os.flatMap fun o => o.check.toList ++ o.priorities ++ o.fallback.toList).map (fold f) := by
  induction os with
  | nil => rfl
  | cons o os ih =>
    obtain ⟨name, check, ps, fallback⟩ := o
    show foldOption f check ++ foldList f ps ++ foldOption f fallback ++ foldOutputs f os = _
    rw [ih, foldOption_eq, foldList_eq, foldOption_eq, List.flatMap_cons, List.map_append,
      List.map_append, List.map_append]

theorem foldMatrix_eq (t : DecisionMatrix Code) : foldMatrix f t = t.cells.map (fold f) := by
  obtain ⟨name, inputs, rules, outputs, policy, aggregation, single⟩ := t
  show foldList f inputs ++ foldRules f rules ++ foldOutputs f outputs = _
  rw [foldList_eq, foldRules_eq, foldOutputs_eq, DecisionMatrix.cells, List.map_append,
    List.map_append]

/-- A fold over a tree from the folds over its direct parts. -/
theorem fold_eq (c : Code) : c.fold f = f c (c.children.map (fold f)) := by
  cases c with
  | list items => exact congrArg (f _) (foldList_eq f items)
  | context es => exact congrArg (f _) (foldEntries_eq f es)
  | range s e si ei =>
    show f _ (foldOption f s ++ foldOption f e) = _
    rw [foldOption_eq, foldOption_eq, ← List.map_append]
    rfl
  | forIn bs body =>
    show f _ (foldBindings f bs ++ [body.fold f]) = f _ ((bs.flatMap (·.domain.cells) ++ [body]).map _)
    rw [foldBindings_eq, List.map_append]
    rfl
  | quantified every bs c =>
    show f _ (foldBindings f bs ++ [c.fold f]) = f _ ((bs.flatMap (·.domain.cells) ++ [c]).map _)
    rw [foldBindings_eq, List.map_append]
    rfl
  | call target args names =>
    cases target with
    | builtin name => exact congrArg (f _) (foldList_eq f args)
    | value callee => exact congrArg (fun parts => f _ (callee.fold f :: parts)) (foldList_eq f args)
  | decision t => exact congrArg (f _) (foldMatrix_eq f t)
  | _ => rfl

end Fold

/-! ### Everywhere -/

/-- What holds of a tree and of everything in it. -/
def Everywhere (p : Code → Prop) (c : Code) : Prop :=
  c.fold fun c parts => p c ∧ ∀ q ∈ parts, q

theorem everywhere_iff {p : Code → Prop} {c : Code} :
    c.Everywhere p ↔ p c ∧ ∀ d ∈ c.children, d.Everywhere p := by
  rw [Everywhere, fold_eq]
  refine and_congr_right fun _ => ⟨fun h d hd => ?_, fun h q hq => ?_⟩
  · exact h _ (List.mem_map.mpr ⟨d, hd, rfl⟩)
  · obtain ⟨d, hd, rfl⟩ := List.mem_map.mp hq
    exact h d hd

section Fixed

variable {p : Code → Prop} {whole c l r : Code}

theorem Everywhere.leaf (hchildren : whole.children = []) (hown : p whole) : whole.Everywhere p :=
  everywhere_iff.mpr ⟨hown, parts_nil hchildren⟩

theorem Everywhere.one (hc : c.Everywhere p) (hchildren : whole.children = [c]) (hown : p whole) :
    whole.Everywhere p :=
  everywhere_iff.mpr ⟨hown, parts_one hc hchildren⟩

theorem Everywhere.two (hl : l.Everywhere p) (hr : r.Everywhere p)
    (hchildren : whole.children = [l, r]) (hown : p whole) : whole.Everywhere p :=
  everywhere_iff.mpr ⟨hown, parts_two hl hr hchildren⟩

theorem Everywhere.three (hc : c.Everywhere p) (hl : l.Everywhere p) (hr : r.Everywhere p)
    (hchildren : whole.children = [c, l, r]) (hown : p whole) : whole.Everywhere p :=
  everywhere_iff.mpr ⟨hown, parts_three hc hl hr hchildren⟩

end Fixed

theorem Everywhere.here {p : Code → Prop} {c : Code} (h : c.Everywhere p) : p c :=
  (everywhere_iff.mp h).1

theorem Everywhere.part {p : Code → Prop} {c d : Code} (h : c.Everywhere p)
    (hd : d ∈ c.children) : d.Everywhere p :=
  (everywhere_iff.mp h).2 d hd

/-- What holds of all trees holds of everything in one. -/
theorem everywhere_of_forall {p : Code → Prop} (h : ∀ c, p c) (c : Code) : c.Everywhere p :=
  partsInduction (fun c ih => everywhere_iff.mpr ⟨h c, ih⟩) c

theorem Everywhere.imp {p q : Code → Prop} {c : Code} (h : c.Everywhere p)
    (hpq : ∀ c, p c → q c) : c.Everywhere q := by
  revert h
  refine partsInduction (P := fun c => c.Everywhere p → c.Everywhere q) (fun c ih h => ?_) c
  exact everywhere_iff.mpr ⟨hpq c h.here, fun d hd => ih d hd (h.part hd)⟩

theorem Everywhere.and {p q : Code → Prop} {c : Code} (hp : c.Everywhere p)
    (hq : c.Everywhere q) : c.Everywhere fun c => p c ∧ q c := by
  revert hp hq
  refine partsInduction (P := fun c => c.Everywhere p → c.Everywhere q →
    c.Everywhere fun c => p c ∧ q c) (fun c ih hp hq => ?_) c
  exact everywhere_iff.mpr ⟨⟨hp.here, hq.here⟩, fun d hd => ih d hd (hp.part hd) (hq.part hd)⟩

end Code

end Feel
