import Feel.Fragment.OfTerm
import Feel.Proofs.Refinement
import Feel.Proofs.Simplify

/-!
# Code that is moved between programs

The same expression is lowered to code over two pools, in which its constants have different
places and its cursors different numbers. Only function values remember where they were made, so
that code which makes and calls no functions means the same on both sides, wherever it runs, and is
simplified and compared for equality in the same way.

* `Action.Alike`: the same in every frame, at any two places.
* `Action.Alike.both`, `Filter.run_alike`, `Iteration.collect_alike` and the others: one law for
  each combinator.
* `Draft.cursor`: the names of cursors.
* `Code.Moved`: code that differs only in the places of constants and the numbers of cursors.
* `Code.Moved.denote`: moved code means the same, wherever it runs.
* `Code.Moved.simplify`: simplified code is moved too.
* `Code.Moved.same_eq`: moved code is the same as moved code where the code is.
-/

namespace Feel

/-! ## Actions that do not look at their place -/

namespace Action

/-- Actions that do the same in every frame, wherever they run. -/
def Alike (a b : Action) : Prop := ∀ site site' frame, a site frame = b site' frame

namespace Alike

variable {a b c a' b' c' : Action}

theorem map (f : Value → Value) (h : a.Alike a') : (map f a).Alike (map f a') := by
  intro site site' frame
  simp only [Action.map, h (0 :: site) (0 :: site')]

theorem both (f : Value → Value → Value) (h : a.Alike a') (k : b.Alike b') :
    (both f a b).Alike (both f a' b') := by
  intro site site' frame
  simp only [Action.both, h (0 :: site) (0 :: site'), k (1 :: site) (1 :: site')]

theorem arith {m n : Machine} (hm : m.precision = n.precision) (op : Operator)
    (mode : NumericMode) (nullCheck : Bool) (h : a.Alike a') (k : b.Alike b') :
    (arith m op mode nullCheck a b).Alike (arith n op mode nullCheck a' b') := by
  intro site site' frame
  simp only [Action.arith, h (0 :: site) (0 :: site'), k (1 :: site) (1 :: site'), hm]

theorem logic (op : Operator) (shortCircuit : Bool) (h : a.Alike a') (k : b.Alike b') :
    (logic op shortCircuit a b).Alike (logic op shortCircuit a' b') := by
  intro site site' frame
  simp only [Action.logic, h (0 :: site) (0 :: site'), k (1 :: site) (1 :: site')]

theorem ite (h : a.Alike a') (k : b.Alike b') (l : c.Alike c') :
    (ite a b c).Alike (ite a' b' c') := by
  intro site site' frame
  simp only [Action.ite, h (0 :: site) (0 :: site'), k site site', l site site']

theorem between (h : a.Alike a') (k : b.Alike b') (l : c.Alike c') :
    (between a b c).Alike (between a' b' c') := by
  intro site site' frame
  simp only [Action.between, h (0 :: site) (0 :: site'), k (1 :: site) (1 :: site'),
    l (2 :: site) (2 :: site')]

theorem withTestInput (h : a.Alike a') (k : b.Alike b') :
    (withTestInput a b).Alike (withTestInput a' b') := by
  intro site site' frame
  simp only [Action.withTestInput, h (0 :: site) (0 :: site'), k (1 :: site) (1 :: site')]

theorem all {as bs : List Action} (h : List.Forall₂ Alike as bs) (site site' : Site)
    (frame : Frame) (i j : Nat) : all site frame i as = all site' frame j bs := by
  induction h generalizing i j with
  | nil => rfl
  | cons hab _ ih => simp only [Action.all, hab (i :: site) (j :: site'), ih (i + 1) (j + 1)]

theorem list {as bs : List Action} (h : List.Forall₂ Alike as bs) : (list as).Alike (list bs) := by
  intro site site' frame
  simp only [Action.list, all h site site' frame 0 0]

theorem entries {as bs : List (String × Action)}
    (h : List.Forall₂ (fun x y => x.1 = y.1 ∧ x.2.Alike y.2) as bs) (site site' : Site)
    (i j : Nat) (frame : Frame) (done : List (String × Value)) :
    entries site i frame as done = entries site' j frame bs done := by
  induction h generalizing i j frame done with
  | nil => rfl
  | @cons x y _ _ hxy _ ih =>
    obtain ⟨name, a⟩ := x
    obtain ⟨name', b⟩ := y
    obtain ⟨rfl, hab⟩ := hxy
    have hab : a.Alike b := hab
    simp only [Action.entries, hab (i :: site) (j :: site'), ih (i + 1) (j + 1)]

theorem context {as bs : List (String × Action)}
    (h : List.Forall₂ (fun x y => x.1 = y.1 ∧ x.2.Alike y.2) as bs) :
    (context as).Alike (context bs) := by
  intro site site' frame
  simp only [Action.context, entries h site site' 0 0]

theorem range (si ei : Bool) (h : a.Alike a') (k : b.Alike b') :
    (range (some a) (some b) si ei).Alike (range (some a') (some b') si ei) := by
  intro site site' frame
  simp only [Action.range, optional, h (0 :: site) (0 :: site'), k (1 :: site) (1 :: site')]

/-- There is a value for each action. -/
theorem length_all {as : List Action} {site : Site} {frame : Frame} {i : Nat} {vs : List Value}
    (h : Action.all site frame i as = .ok vs) : vs.length = as.length := by
  induction as generalizing i vs with
  | nil =>
    cases h
    rfl
  | cons a as ih =>
    obtain ⟨v, -, h⟩ := bind_eq_ok.mp h
    obtain ⟨rest, hrest, h⟩ := bind_eq_ok.mp h
    rw [← pure_eq_ok.mp h, List.length_cons, List.length_cons, ih hrest]

/-- Only sorting by a function calls one. -/
theorem apply_eq {ε : Type} {f : Builtin} {args : List Value} (h : f = .sort → args.length ≤ 1)
    (precision : Nat) (invoke invoke' : FunctionValue → List Value → Except ε Value) :
    f.apply args precision invoke = f.apply args precision invoke' := by
  unfold Builtin.apply
  split
  · next hsecond =>
    have hnone : Args.get args 1 = .null := by
      rw [Args.get, List.getD_eq_getElem?_getD, List.getElem?_eq_none (h rfl)]
      rfl
    rw [hnone] at hsecond
    cases hsecond
  · rfl

/-- A call of a built-in function that calls no function. -/
theorem call {m n : Machine} (hm : m.precision = n.precision) {name : String}
    {as bs : List Action} (hsort : Builtin.ofName? name = some .sort → as.length ≤ 1)
    (names names' : Option (List String)) (h : List.Forall₂ Alike as bs) :
    (call m (.builtin name) as names).Alike (call n (.builtin name) bs names') := by
  intro site site' frame
  simp only [Action.call, all h (0 :: site) (0 :: site') frame 0 0]
  rw [← all h (0 :: site) (0 :: site') frame 0 0]
  cases hvs : Action.all (0 :: site) frame 0 as with
  | error e => rfl
  | ok vs =>
    have hlength : vs.length = as.length := length_all hvs
    change callBuiltin name vs m.precision _ = callBuiltin name vs n.precision _
    unfold callBuiltin
    split
    · next f hf =>
      rw [hm, apply_eq (fun heq => hlength ▸ hsort (heq ▸ hf)) _ _ _]
    · rfl

end Alike

end Action

/-! ### Iterations -/

namespace Domain

theorem run_values_alike {a a' : Action} (h : a.Alike a') (site site' : Site) (frame : Frame) :
    run (.values a) site frame = run (.values a') site' frame := by
  simp only [run, h (0 :: site) (0 :: site')]

/-- Steps whose cursors have other names are alike where the step is. -/
theorem run_steps_alike {f l s p f' l' s' p' : Action} {cursor cursor' : String}
    (hf : f.Alike f') (hl : l.Alike l')
    (hs : ∀ site site' (frame : Frame) v,
      s site (frame.bind cursor v) = s' site' (frame.bind cursor' v))
    (hp : ∀ site site' (frame : Frame) v,
      p site (frame.bind cursor v) = p' site' (frame.bind cursor' v))
    (site site' : Site) (frame : Frame) :
    run (.steps f l cursor s p) site frame = run (.steps f' l' cursor' s' p') site' frame := by
  have hnext : ∀ direction : Ordering, (fun (n : Nat) (v : Value) =>
      (if direction = .gt then p else s) (n :: 2 :: site) (frame.bind cursor v)) =
      fun n v => (if direction = .gt then p' else s') (n :: 2 :: site') (frame.bind cursor' v) := by
    intro direction
    funext n v
    split
    · exact hp _ _ _ _
    · exact hs _ _ _ _
  simp only [run, hf (0 :: site) (0 :: site'), hl (1 :: site) (1 :: site'), hnext]

end Domain

namespace Iteration

/-- Bindings of one name that run over the same values, wherever they are. -/
def Alike (a b : Binding Action) : Prop :=
  a.name = b.name ∧ ∀ site site' frame, a.domain.run site frame = b.domain.run site' frame

variable {σ : Type} {f g : Site → Frame → σ → Except EvalError (ForInStep σ)}

theorem forEach_alike {name : String} (h : ∀ site site' frame s, f site frame s = g site' frame s)
    (site site' : Site) (frame : Frame) (i j : Nat) (vs : List Value) (s : σ) :
    forEach name f site frame i vs s = forEach name g site' frame j vs s := by
  induction vs generalizing i j s with
  | nil => rfl
  | cons v vs ih =>
    simp only [forEach, h (i :: site) (j :: site')]
    split
    · exact ih _ _ _
    · rfl

theorem run_alike {as bs : List (Binding Action)} (h : List.Forall₂ Alike as bs)
    (hvisit : ∀ site site' frame s, f site frame s = g site' frame s) (site site' : Site)
    (frame : Frame) (s : σ) : run f as site frame s = run g bs site' frame s := by
  induction h generalizing site site' frame s with
  | nil => exact hvisit _ _ _ _
  | cons hab _ ih =>
    obtain ⟨hname, hdomain⟩ := hab
    simp only [run, hdomain (0 :: site) (0 :: site'), hname]
    refine bind_congr fun values => ?_
    exact forEach_alike ih _ _ _ _ _ _ _

theorem collect_alike {as bs : List (Binding Action)} (h : List.Forall₂ Alike as bs)
    {body body' : Action} (hbody : body.Alike body') :
    (collect as body).Alike (collect bs body') := by
  intro site site' frame
  simp only [collect]
  rw [run_alike h (g := fun site frame vs => do
    let v ← body' (0 :: site) frame
    return ForInStep.yield (v :: vs)) (fun site site' frame s => ?_) (0 :: site) (0 :: site')]
  rw [hbody (0 :: site) (0 :: site')]

theorem quantify_alike (every : Bool) {as bs : List (Binding Action)}
    (h : List.Forall₂ Alike as bs) {c c' : Action} (hc : c.Alike c') :
    (quantify every as c).Alike (quantify every bs c') := by
  intro site site' frame
  simp only [quantify]
  rw [run_alike h (g := fun site frame outcome => do
    let v ← c' (0 :: site) frame
    return if v.isBool true = every then ForInStep.yield outcome else ForInStep.done (!every))
    (fun site site' frame s => ?_) (0 :: site) (0 :: site')]
  rw [hc (0 :: site) (0 :: site')]

end Iteration

/-! ### Filters -/

namespace Filter

theorem select_alike {a b : Action} (h : a.Alike b) (site site' : Site) (frame : Frame) (i j : Nat)
    (vs kept : List Value) : select a site frame i vs kept = select b site' frame j vs kept := by
  induction vs generalizing i j kept with
  | nil => rfl
  | cons v vs ih =>
    simp only [select, h (i :: site) (j :: site')]
    exact bind_congr fun answer => ih _ _ _

theorem run_alike {a b a' b' : Action} (h : a.Alike a') (k : b.Alike b') (kind : FilterKind) :
    (run a b kind).Alike (run a' b' kind) := by
  intro site site' frame
  simp only [run, h (0 :: site) (0 :: site')]
  refine bind_congr fun v => ?_
  split
  · rfl
  · cases kind with
    | index => simp only [k (1 :: site) (1 :: site')]
    | predicate => exact select_alike k _ _ _ _ _ _ _
    | dynamic =>
      simp only [k (1 :: site) (1 :: site')]
      refine bind_congr fun position => ?_
      split
      · rfl
      · exact select_alike k _ _ _ _ _ _ _

end Filter

/-! ## Moved code -/

/-! ### Cursors -/

namespace Draft

/-- The cursor with a number. -/
def cursor (n : Nat) : String := "cursor" ++ "#" ++ toString n

theorem cursor_injective {m n : Nat} (h : cursor m = cursor n) : m = n := by
  rw [cursor, cursor, String.append_right_inj] at h
  have hdigits : Nat.toDigits 10 m = Nat.toDigits 10 n := by
    have htext : m.repr = n.repr := h
    rw [Nat.repr_eq_ofList_toDigits, Nat.repr_eq_ofList_toDigits, String.ofList_inj] at htext
    exact htext
  rw [← Nat.ofDigitChars_ten_toDigits (n := m), hdigits, Nat.ofDigitChars_ten_toDigits]

end Draft

namespace Domain

/-- The cells of a domain that come from parts of an expression. -/
def sources {ε : Type} : Domain ε → List ε
  | values source => [source]
  | steps first last _ _ _ => [first, last]

/-- Domains of one form whose sources are related. Steps have cursors whose numbers are `shift`
apart, and go on from these in one way. -/
inductive Moved (R : Code → Code → Prop) (shift : Nat) : Domain Code → Domain Code → Prop
  | values {c d : Code} : R c d → Moved R shift (.values c) (.values d)
  | steps {f l f' l' : Code} (element : Ty) (n : Nat) : R f f' → R l l' →
      Moved R shift
        (.steps f l (Draft.cursor n) (Lower.stepCode element (Draft.cursor n) 1)
          (Lower.stepCode element (Draft.cursor n) (-1)))
        (.steps f' l' (Draft.cursor (n + shift))
          (Lower.stepCode element (Draft.cursor (n + shift)) 1)
          (Lower.stepCode element (Draft.cursor (n + shift)) (-1)))

theorem Moved.imp {R R' : Code → Code → Prop} {shift : Nat} {a b : Domain Code}
    (h : a.Moved R shift b) (hR : ∀ c d, R c d → R' c d) : a.Moved R' shift b := by
  cases h with
  | values h => exact .values (hR _ _ h)
  | steps element n hf hl => exact .steps element n (hR _ _ hf) (hR _ _ hl)

/-- The form of moved domains, and what their sources are. -/
theorem Moved.of_sources {R : Code → Code → Prop} {shift : Nat} {a b : Domain Code}
    (h : a.Moved (fun _ _ => True) shift b) (hR : ∀ x ∈ a.sources.zip b.sources, R x.1 x.2) :
    a.Moved R shift b := by
  cases h with
  | values _ => exact .values (hR (_, _) (by simp [sources]))
  | steps element n _ _ =>
    exact .steps element n (hR (_, _) (by simp [sources])) (hR (_, _) (by simp [sources]))

theorem Moved.length_sources {R : Code → Code → Prop} {shift : Nat} {a b : Domain Code}
    (h : a.Moved R shift b) : a.sources.length = b.sources.length := by
  cases h <;> rfl

end Domain

/-- Bindings of one name whose domains are moved. -/
def Binding.Moved (R : Code → Code → Prop) (shift : Nat) (a b : Binding Code) : Prop :=
  a.name = b.name ∧ a.domain.Moved R shift b.domain

namespace Binding

/-- The sources of the domains of bindings, in order. -/
def sources {ε : Type} (bs : List (Binding ε)) : List ε := bs.flatMap (·.domain.sources)

/-- Sources are cells. -/
theorem mem_cells {ε : Type} {bs : List (Binding ε)} {c : ε} (h : c ∈ sources bs) :
    c ∈ bs.flatMap (·.domain.cells) := by
  obtain ⟨b, hb, hc⟩ := List.mem_flatMap.mp h
  refine List.mem_flatMap.mpr ⟨b, hb, ?_⟩
  obtain ⟨name, domain⟩ := b
  cases domain with
  | values => exact hc
  | steps => exact List.mem_append_left _ hc

/-- The form of moved bindings, and what their sources are. -/
theorem moved_of_sources {R : Code → Code → Prop} {shift : Nat} {as bs : List (Binding Code)}
    (h : List.Forall₂ (Binding.Moved (fun _ _ => True) shift) as bs)
    (hR : ∀ x ∈ (sources as).zip (sources bs), R x.1 x.2) :
    List.Forall₂ (Binding.Moved R shift) as bs := by
  induction h with
  | nil => exact .nil
  | @cons a b as bs hab _ ih =>
    have hsplit : (sources (a :: as)).zip (sources (b :: bs)) =
        a.domain.sources.zip b.domain.sources ++ (sources as).zip (sources bs) := by
      rw [sources, sources, List.flatMap_cons, List.flatMap_cons,
        List.zip_append hab.2.length_sources]
      rfl
    rw [hsplit, List.forall_mem_append] at hR
    exact .cons ⟨hab.1, hab.2.of_sources hR.1⟩ (ih hR.2)

theorem moved_shape {R : Code → Code → Prop} {shift : Nat} {as bs : List (Binding Code)}
    (h : List.Forall₂ (Binding.Moved R shift) as bs) :
    List.Forall₂ (Binding.Moved (fun _ _ => True) shift) as bs :=
  h.imp fun _ _ hab => ⟨hab.1, hab.2.imp fun _ _ _ => trivial⟩

theorem moved_sources {R : Code → Code → Prop} {shift : Nat} {as bs : List (Binding Code)}
    (h : List.Forall₂ (Binding.Moved R shift) as bs) :
    ∀ x ∈ (sources as).zip (sources bs), R x.1 x.2 := by
  induction h with
  | nil => exact fun _ hx => absurd hx List.not_mem_nil
  | @cons a b as bs hab _ ih =>
    have hsplit : (sources (a :: as)).zip (sources (b :: bs)) =
        a.domain.sources.zip b.domain.sources ++ (sources as).zip (sources bs) := by
      rw [sources, sources, List.flatMap_cons, List.flatMap_cons,
        List.zip_append hab.2.length_sources]
      rfl
    rw [hsplit, List.forall_mem_append]
    refine ⟨?_, ih⟩
    obtain ⟨name, domain⟩ := a
    obtain ⟨name', domain'⟩ := b
    obtain ⟨-, hdomain⟩ := hab
    cases hdomain with
    | values h => simpa [Domain.sources] using h
    | steps element n hf hl => simpa [Domain.sources] using ⟨hf, hl⟩

end Binding

/-! ### Moved code -/

namespace Code

/-- Code over two pools that differs only in the places of constants and the numbers of cursors.
It makes no functions, and calls none but built-in ones. -/
inductive Moved (p q : List Value) (shift : Nat) : Code → Code → Prop
  | const (v : Value) : Moved p q shift (const v) (const v)
  | constRef {i j : Nat} {v : Value} : p[i]? = some v → q[j]? = some v →
      Moved p q shift (constRef i) (constRef j)
  | testInput : Moved p q shift testInput testInput
  | «local» (name : String) : Moved p q shift («local» name) («local» name)
  | inputField (name : String) : Moved p q shift (inputField name) (inputField name)
  | member {c d : Code} (name : String) : Moved p q shift c d →
      Moved p q shift (member c name) (member d name)
  | arith {l r l' r' : Code} (op : Operator) (mode : NumericMode) (nullCheck : Bool) :
      Moved p q shift l l' → Moved p q shift r r' →
      Moved p q shift (arith op mode l r nullCheck) (arith op mode l' r' nullCheck)
  | concat {l r l' r' : Code} : Moved p q shift l l' → Moved p q shift r r' →
      Moved p q shift (concat l r) (concat l' r')
  | temporal {l r l' r' : Code} (op : Operator) : Moved p q shift l l' → Moved p q shift r r' →
      Moved p q shift (temporal op l r) (temporal op l' r')
  | compare {l r l' r' : Code} (op : Operator) (mode : CompareMode) :
      Moved p q shift l l' → Moved p q shift r r' →
      Moved p q shift (compare op mode l r) (compare op mode l' r')
  | equal {l r l' r' : Code} (mode : EqualMode) (negated : Bool) :
      Moved p q shift l l' → Moved p q shift r r' →
      Moved p q shift (equal mode negated l r) (equal mode negated l' r')
  | logic {l r l' r' : Code} (op : Operator) (shortCircuit : Bool) :
      Moved p q shift l l' → Moved p q shift r r' →
      Moved p q shift (logic op shortCircuit l r) (logic op shortCircuit l' r')
  | not {c d : Code} : Moved p q shift c d → Moved p q shift (not c) (not d)
  | negate {c d : Code} : Moved p q shift c d → Moved p q shift (negate c) (negate d)
  | dynamic {l r l' r' : Code} (op : Operator) : Moved p q shift l l' → Moved p q shift r r' →
      Moved p q shift (dynamic op l r) (dynamic op l' r')
  | ite {x y z x' y' z' : Code} : Moved p q shift x x' → Moved p q shift y y' →
      Moved p q shift z z' → Moved p q shift (ite x y z) (ite x' y' z')
  | list {cs ds : List Code} : cs.length = ds.length →
      (∀ x ∈ cs.zip ds, Moved p q shift x.1 x.2) → Moved p q shift (list cs) (list ds)
  | context {es fs : List (String × Code)} : es.map (·.1) = fs.map (·.1) →
      (∀ x ∈ es.zip fs, Moved p q shift x.1.2 x.2.2) → Moved p q shift (context es) (context fs)
  | range {l r l' r' : Code} (si ei : Bool) : Moved p q shift l l' → Moved p q shift r r' →
      Moved p q shift (range (some l) (some r) si ei) (range (some l') (some r') si ei)
  | between {x y z x' y' z' : Code} : Moved p q shift x x' → Moved p q shift y y' →
      Moved p q shift z z' → Moved p q shift (between x y z) (between x' y' z')
  | instanceOf {c d : Code} (target : Ty) : Moved p q shift c d →
      Moved p q shift (instanceOf c target) (instanceOf d target)
  | filter {s f s' f' : Code} (kind : FilterKind) : Moved p q shift s s' → Moved p q shift f f' →
      Moved p q shift (filter s f kind) (filter s' f' kind)
  | forIn {as bs : List (Binding Code)} {c d : Code} :
      List.Forall₂ (Binding.Moved (fun _ _ => True) shift) as bs →
      (∀ x ∈ (Binding.sources as).zip (Binding.sources bs), Moved p q shift x.1 x.2) →
      Moved p q shift c d → Moved p q shift (forIn as c) (forIn bs d)
  | quantified {as bs : List (Binding Code)} {c d : Code} (every : Bool) :
      List.Forall₂ (Binding.Moved (fun _ _ => True) shift) as bs →
      (∀ x ∈ (Binding.sources as).zip (Binding.sources bs), Moved p q shift x.1 x.2) →
      Moved p q shift c d → Moved p q shift (quantified every as c) (quantified every bs d)
  | call {cs ds : List Code} {name : String} (names : Option (List String)) :
      (Builtin.ofName? name = some .sort → cs.length ≤ 1) → cs.length = ds.length →
      (∀ x ∈ cs.zip ds, Moved p q shift x.1 x.2) →
      Moved p q shift (call (.builtin name) cs names) (call (.builtin name) ds names)
  | convert {c d : Code} (target : Ty) : Moved p q shift c d →
      Moved p q shift (convert c target) (convert d target)
  | unaryMatch {c d : Code} : Moved p q shift c d → Moved p q shift (unaryMatch c) (unaryMatch d)
  | listContains {l r l' r' : Code} : Moved p q shift l l' → Moved p q shift r r' →
      Moved p q shift (listContains l r) (listContains l' r')
  | rangeContains {l r l' r' : Code} : Moved p q shift l l' → Moved p q shift r r' →
      Moved p q shift (rangeContains l r) (rangeContains l' r')
  | withTestInput {l r l' r' : Code} : Moved p q shift l l' → Moved p q shift r r' →
      Moved p q shift (withTestInput l r) (withTestInput l' r')

/-- Lists that are related one by one, as they are paired. -/
theorem forall₂_of_zip {α β : Type} {R : α → β → Prop} {as : List α} {bs : List β}
    (hlength : as.length = bs.length) (h : ∀ x ∈ as.zip bs, R x.1 x.2) : List.Forall₂ R as bs :=
  List.forall₂_iff_zip.mpr ⟨hlength, fun hab => h _ hab⟩

theorem zip_of_forall₂ {α β : Type} {R : α → β → Prop} {as : List α} {bs : List β}
    (h : List.Forall₂ R as bs) : ∀ x ∈ as.zip bs, R x.1 x.2 :=
  fun _ hx => (List.forall₂_iff_zip.mp h).2 hx

namespace Moved

variable {p q p' q' : List Value} {shift : Nat} {c d : Code}

/-- What is moved between two pools is moved between pools that come later. -/
theorem extend (h : Moved p q shift c d) (hp : p <+: p') (hq : q <+: q') :
    Moved p' q' shift c d := by
  have hget : ∀ {r r' : List Value} {i : Nat} {v : Value}, r <+: r' → r[i]? = some v →
      r'[i]? = some v := by
    rintro r _ i v ⟨more, rfl⟩ hv
    obtain ⟨hlt, -⟩ := List.getElem?_eq_some_iff.mp hv
    rw [List.getElem?_append_left hlt]
    exact hv
  induction h with
  | const v => exact .const v
  | constRef hi hj => exact .constRef (hget hp hi) (hget hq hj)
  | testInput => exact .testInput
  | «local» name => exact .local name
  | inputField name => exact .inputField name
  | member name _ ih => exact .member name ih
  | arith op mode nullCheck _ _ ihl ihr => exact .arith op mode nullCheck ihl ihr
  | concat _ _ ihl ihr => exact .concat ihl ihr
  | temporal op _ _ ihl ihr => exact .temporal op ihl ihr
  | compare op mode _ _ ihl ihr => exact .compare op mode ihl ihr
  | equal mode negated _ _ ihl ihr => exact .equal mode negated ihl ihr
  | logic op shortCircuit _ _ ihl ihr => exact .logic op shortCircuit ihl ihr
  | not _ ih => exact .not ih
  | negate _ ih => exact .negate ih
  | dynamic op _ _ ihl ihr => exact .dynamic op ihl ihr
  | ite _ _ _ ihx ihy ihz => exact .ite ihx ihy ihz
  | list hlength _ ih => exact .list hlength ih
  | context hnames _ ih => exact .context hnames ih
  | range si ei _ _ ihl ihr => exact .range si ei ihl ihr
  | between _ _ _ ihx ihy ihz => exact .between ihx ihy ihz
  | instanceOf target _ ih => exact .instanceOf target ih
  | filter kind _ _ ihl ihr => exact .filter kind ihl ihr
  | forIn hshape _ _ ihs ih => exact .forIn hshape ihs ih
  | quantified every hshape _ _ ihs ih => exact .quantified every hshape ihs ih
  | call names hsort hlength _ ih => exact .call names hsort hlength ih
  | convert target _ ih => exact .convert target ih
  | unaryMatch _ ih => exact .unaryMatch ih
  | listContains _ _ ihl ihr => exact .listContains ihl ihr
  | rangeContains _ _ ihl ihr => exact .rangeContains ihl ihr
  | withTestInput _ _ ihl ihr => exact .withTestInput ihl ihr

/-- Constants keep their values. -/
theorem valueIn?_eq (h : Moved p q shift c d) : c.valueIn? p = d.valueIn? q := by
  cases h with
  | constRef hi hj => exact hi.trans hj.symm
  | _ => rfl

/-- Entries of the same names. -/
theorem zipContext (names : List String) {cs ds : List Code}
    (h : List.Forall₂ (Moved p q shift) cs ds) :
    Moved p q shift (.context (names.zip cs)) (.context (names.zip ds)) := by
  have hentries : (names.zip cs).map (·.1) = (names.zip ds).map (·.1) ∧
      ∀ x ∈ (names.zip cs).zip (names.zip ds), Moved p q shift x.1.2 x.2.2 := by
    induction h generalizing names with
    | nil => simp
    | cons hcd _ ih =>
      cases names with
      | nil => simp
      | cons name names =>
        obtain ⟨hnames, hparts⟩ := ih names
        exact ⟨congrArg (name :: ·) hnames, List.forall_mem_cons.mpr ⟨hcd, hparts⟩⟩
  exact .context hentries.1 hentries.2

/-! ### Meaning -/

theorem denoteList_alike {m n : Machine} {cs ds : List Code}
    (h : List.Forall₂ (fun c d => (c.denote m).Alike (d.denote n)) cs ds) :
    List.Forall₂ Action.Alike (denoteList m cs) (denoteList n ds) := by
  induction h with
  | nil => exact .nil
  | cons hcd _ ih => exact .cons hcd ih

theorem length_denoteList {m : Machine} (cs : List Code) :
    (denoteList m cs).length = cs.length := by
  induction cs with
  | nil => rfl
  | cons c cs ih => exact congrArg (· + 1) ih

theorem denoteEntries_alike {m n : Machine} {es fs : List (String × Code)}
    (hnames : es.map (·.1) = fs.map (·.1))
    (h : ∀ x ∈ es.zip fs, (x.1.2.denote m).Alike (x.2.2.denote n)) :
    List.Forall₂ (fun x y => x.1 = y.1 ∧ x.2.Alike y.2) (denoteEntries m es)
      (denoteEntries n fs) := by
  induction es generalizing fs with
  | nil =>
    rw [List.map_nil, eq_comm, List.map_eq_nil_iff] at hnames
    rw [hnames]
    exact .nil
  | cons e es ih =>
    cases fs with
    | nil => cases hnames
    | cons f fs =>
      rw [List.map_cons, List.map_cons, List.cons.injEq] at hnames
      rw [List.zip_cons_cons, List.forall_mem_cons] at h
      exact .cons ⟨hnames.1, h.1⟩ (ih hnames.2 h.2)

/-- A step from a cursor, whatever the cursor is called. -/
theorem stepCode_alike {m n : Machine} (hprecision : m.precision = n.precision) (element : Ty)
    (cursor cursor' : String) (offset : Int) (site site' : Site) (frame : Frame) (v : Value) :
    (Lower.stepCode element cursor offset).denote m site (frame.bind cursor v) =
      (Lower.stepCode element cursor' offset).denote n site' (frame.bind cursor' v) := by
  unfold Lower.stepCode
  split
  · rw [denote_arith_local, denote_arith_local, Frame.lookup_bind_self, Frame.lookup_bind_self,
      hprecision]
  · rw [denote_temporal_local, denote_temporal_local, Frame.lookup_bind_self,
      Frame.lookup_bind_self]

theorem denoteBindings_alike {m n : Machine} (hprecision : m.precision = n.precision)
    {as bs : List (Binding Code)}
    (h : List.Forall₂ (Binding.Moved (fun c d => (c.denote m).Alike (d.denote n)) shift) as bs) :
    List.Forall₂ Iteration.Alike (denoteBindings m as) (denoteBindings n bs) := by
  induction h with
  | nil => exact .nil
  | @cons a b _ _ hab _ ih =>
    obtain ⟨name, domain⟩ := a
    obtain ⟨name', domain'⟩ := b
    obtain ⟨hname, hdomain⟩ := hab
    refine .cons ⟨hname, fun site site' frame => ?_⟩ ih
    cases hdomain with
    | values h => exact Domain.run_values_alike h site site' frame
    | steps element k hf hl =>
      exact Domain.run_steps_alike hf hl
        (fun _ _ _ _ => stepCode_alike hprecision element _ _ 1 _ _ _ _)
        (fun _ _ _ _ => stepCode_alike hprecision element _ _ (-1) _ _ _ _) site site' frame

/-- **Moved code means the same.** In any frame and at any place it does what the code did. -/
theorem denote (h : Moved p q shift c d) {m n : Machine} (hm : m.constants = p)
    (hn : n.constants = q) (hprecision : m.precision = n.precision) :
    (c.denote m).Alike (d.denote n) := by
  induction h with
  | const v => exact fun _ _ _ => rfl
  | @constRef i j v hi hj =>
    intro site site' frame
    have hleft : (Code.constRef i).valueIn? m.constants = some v := by rw [hm]; exact hi
    have hright : (Code.constRef j).valueIn? n.constants = some v := by rw [hn]; exact hj
    rw [denote_of_valueIn? hleft, denote_of_valueIn? hright]
  | testInput => exact fun _ _ _ => rfl
  | «local» name => exact fun _ _ _ => rfl
  | inputField name => exact fun _ _ _ => rfl
  | member name _ ih => exact .map _ ih
  | arith op mode nullCheck _ _ ihl ihr => exact .arith hprecision op mode nullCheck ihl ihr
  | concat _ _ ihl ihr => exact .both _ ihl ihr
  | temporal op _ _ ihl ihr => exact .both _ ihl ihr
  | compare op mode _ _ ihl ihr => exact .both _ ihl ihr
  | equal mode negated _ _ ihl ihr => exact .both _ ihl ihr
  | logic op shortCircuit _ _ ihl ihr => exact .logic op shortCircuit ihl ihr
  | not _ ih => exact .map _ ih
  | negate _ ih => exact .map _ ih
  | dynamic op _ _ ihl ihr =>
    show Action.Alike (.both (Action.dynamicValue m.precision op) _ _)
      (.both (Action.dynamicValue n.precision op) _ _)
    rw [hprecision]
    exact .both _ ihl ihr
  | ite _ _ _ ihx ihy ihz => exact .ite ihx ihy ihz
  | list hlength _ ih => exact .list (denoteList_alike (forall₂_of_zip hlength ih))
  | context hnames _ ih => exact .context (denoteEntries_alike hnames ih)
  | range si ei _ _ ihl ihr => exact .range si ei ihl ihr
  | between _ _ _ ihx ihy ihz => exact .between ihx ihy ihz
  | instanceOf target _ ih => exact .map _ ih
  | filter kind _ _ ihs ihf => exact Filter.run_alike ihs ihf kind
  | forIn hshape _ _ ihs ih =>
    exact Iteration.collect_alike
      (denoteBindings_alike hprecision (Binding.moved_of_sources hshape ihs)) ih
  | quantified every hshape _ _ ihs ih =>
    exact Iteration.quantify_alike every
      (denoteBindings_alike hprecision (Binding.moved_of_sources hshape ihs)) ih
  | call names hsort hlength _ ih =>
    have hcodes := denoteList_alike (forall₂_of_zip hlength ih)
    refine .call hprecision (fun h => ?_) names names hcodes
    rw [length_denoteList]
    exact hsort h
  | convert target _ ih => exact .map _ ih
  | unaryMatch _ ih =>
    intro site site' frame
    exact congrArg (· >>= fun v => Except.ok (Action.matchTest v frame.tested))
      (ih (0 :: site) (0 :: site') frame)
  | listContains _ _ ihl ihr => exact .both _ ihl ihr
  | rangeContains _ _ ihl ihr => exact .both _ ihl ihr
  | withTestInput _ _ ihl ihr => exact .withTestInput ihl ihr

/-! ### Simplification -/

section Operands

variable {l r l' r' whole whole' : Code}

theorem onConstants (f : Value → Value → Value) (hl : Moved p q shift l l')
    (hr : Moved p q shift r r') (hwhole : Moved p q shift whole whole') :
    Moved p q shift (onConstants p f l r whole) (onConstants q f l' r' whole') := by
  unfold Code.onConstants
  rw [hl.valueIn?_eq, hr.valueIn?_eq]
  split
  · exact .const _
  · exact hwhole

theorem onConstant (f : Value → Value) (h : Moved p q shift c d)
    (hwhole : Moved p q shift whole whole') :
    Moved p q shift (onConstant p f c whole) (onConstant q f d whole') := by
  unfold Code.onConstant
  rw [h.valueIn?_eq]
  split
  · exact .const _
  · exact hwhole

theorem simplifyLogic (op : Operator) (shortCircuit : Bool) (hl : Moved p q shift l l')
    (hr : Moved p q shift r r') :
    Moved p q shift (simplifyLogic p op shortCircuit l r)
      (simplifyLogic q op shortCircuit l' r') := by
  simp only [Code.simplifyLogic, hl.valueIn?_eq, hr.valueIn?_eq]
  split
  · exact .const _
  · split
    · exact .const _
    · exact .logic op shortCircuit hl hr

theorem simplifyBetween (h : Moved p q shift c d) (hl : Moved p q shift l l')
    (hr : Moved p q shift r r') :
    Moved p q shift (simplifyBetween p c l r) (simplifyBetween q d l' r') := by
  unfold Code.simplifyBetween
  rw [h.valueIn?_eq, hl.valueIn?_eq, hr.valueIn?_eq]
  split
  · exact .const _
  · exact .between h hl hr

end Operands

/-- Steps are as simple as they can be. -/
theorem simplify_stepCode (pool : List Value) (precision : Nat) (element : Ty) (cursor : String)
    (offset : Int) : (Lower.stepCode element cursor offset).simplify pool precision =
      Lower.stepCode element cursor offset := by
  unfold Lower.stepCode
  split <;> rfl

theorem simplifyBindings {precision : Nat} {as bs : List (Binding Code)}
    (h : List.Forall₂ (Binding.Moved (fun c d =>
      Moved p q shift (c.simplify p precision) (d.simplify q precision)) shift) as bs) :
    List.Forall₂ (Binding.Moved (Moved p q shift) shift) (simplifyBindings p precision as)
      (simplifyBindings q precision bs) := by
  induction h with
  | nil => exact .nil
  | @cons a b _ _ hab _ ih =>
    obtain ⟨name, domain⟩ := a
    obtain ⟨name', domain'⟩ := b
    obtain ⟨hname, hdomain⟩ := hab
    refine .cons ⟨hname, ?_⟩ ih
    cases hdomain with
    | values h => exact .values h
    | steps element n hf hl =>
      show Domain.Moved _ _
        (.steps _ _ _ ((Lower.stepCode element _ 1).simplify _ _)
          ((Lower.stepCode element _ (-1)).simplify _ _))
        (.steps _ _ _ ((Lower.stepCode element _ 1).simplify _ _)
          ((Lower.stepCode element _ (-1)).simplify _ _))
      rw [simplify_stepCode, simplify_stepCode, simplify_stepCode, simplify_stepCode]
      exact .steps element n hf hl

/-- **Simplified code is moved.** -/
theorem simplify (h : Moved p q shift c d) (precision : Nat) :
    Moved p q shift (c.simplify p precision) (d.simplify q precision) := by
  induction h with
  | const v => exact .const v
  | constRef hi hj => exact .constRef hi hj
  | testInput => exact .testInput
  | «local» name => exact .local name
  | inputField name => exact .inputField name
  | member name _ ih => exact .member name ih
  | arith op mode nullCheck _ _ ihl ihr =>
    exact .onConstants _ ihl ihr (.arith op mode nullCheck ihl ihr)
  | concat _ _ ihl ihr => exact .onConstants _ ihl ihr (.concat ihl ihr)
  | temporal op _ _ ihl ihr => exact .onConstants _ ihl ihr (.temporal op ihl ihr)
  | compare op mode _ _ ihl ihr => exact .onConstants _ ihl ihr (.compare op mode ihl ihr)
  | equal mode negated _ _ ihl ihr => exact .onConstants _ ihl ihr (.equal mode negated ihl ihr)
  | logic op shortCircuit _ _ ihl ihr => exact .simplifyLogic op shortCircuit ihl ihr
  | not _ ih => exact .onConstant _ ih (.not ih)
  | negate _ ih => exact .onConstant _ ih (.negate ih)
  | dynamic op _ _ ihl ihr => exact .onConstants _ ihl ihr (.dynamic op ihl ihr)
  | ite _ _ _ ihx ihy ihz =>
    rw [simplify_ite, simplify_ite, ihx.valueIn?_eq]
    split
    · split
      · exact ihy
      · exact ihz
    · exact .ite ihx ihy ihz
  | list hlength _ ih =>
    rw [simplify_list, simplify_list]
    refine .list (by rw [List.length_map, List.length_map, hlength]) ?_
    rw [List.zip_map]
    exact List.forall_mem_map.mpr ih
  | context hnames _ ih =>
    rw [simplify_context, simplify_context]
    refine .context (by rw [List.map_map, List.map_map]; exact hnames) ?_
    rw [List.zip_map]
    exact List.forall_mem_map.mpr ih
  | range si ei _ _ ihl ihr => exact .range si ei ihl ihr
  | between _ _ _ ihx ihy ihz => exact .simplifyBetween ihx ihy ihz
  | instanceOf target _ ih => exact .instanceOf target ih
  | filter kind _ _ ihs ihf => exact .filter kind ihs ihf
  | forIn hshape _ _ ihs ih =>
    have hbindings := simplifyBindings (Binding.moved_of_sources hshape ihs)
    exact .forIn (Binding.moved_shape hbindings) (Binding.moved_sources hbindings) ih
  | quantified every hshape _ _ ihs ih =>
    have hbindings := simplifyBindings (Binding.moved_of_sources hshape ihs)
    exact .quantified every (Binding.moved_shape hbindings) (Binding.moved_sources hbindings) ih
  | call names hsort hlength _ ih =>
    rw [simplify_call, simplify_call]
    refine .call names (by rw [List.length_map]; exact hsort)
      (by rw [List.length_map, List.length_map, hlength]) ?_
    rw [List.zip_map]
    exact List.forall_mem_map.mpr ih
  | convert target _ ih => exact .convert target ih
  | unaryMatch _ ih => exact .unaryMatch ih
  | listContains _ _ ihl ihr => exact .listContains ihl ihr
  | rangeContains _ _ ihl ihr => exact .rangeContains ihl ihr
  | withTestInput _ _ ihl ihr => exact .withTestInput ihl ihr

/-! ### Equality of code -/

/-- Pools that hold each value once give a value one place. -/
theorem index_eq {pool : List Value} (hpool : pool.Nodup) {i j : Nat} {v : Value}
    (hi : pool[i]? = some v) (hj : pool[j]? = some v) : i = j := by
  obtain ⟨hlt, -⟩ := List.getElem?_eq_some_iff.mp hi
  exact (List.getElem?_inj hlt hpool).mp (hi.trans hj.symm)

/-- Whether pairs of moved code are the same code. -/
def SameAs (p q : List Value) (shift : Nat) (c d : Code) : Prop :=
  ∀ c' d', Moved p q shift c' d' → c.same c' = d.same d'

theorem sameList_eq {cs ds cs' ds' : List Code} (h : List.Forall₂ (SameAs p q shift) cs ds)
    (h' : List.Forall₂ (Moved p q shift) cs' ds') : sameList cs cs' = sameList ds ds' := by
  induction h generalizing cs' ds' with
  | nil =>
    cases h' with
    | nil => rfl
    | cons _ _ => simp [sameList]
  | cons hcd _ ih =>
    cases h' with
    | nil => simp [sameList]
    | cons hcd' h' => simp only [sameList, hcd _ _ hcd', ih h']

/-- A step is a sum with the cursor. -/
theorem stepCode_cases (element : Ty) (offset : Int) :
    (∃ mode, ∀ cursor, Lower.stepCode element cursor offset =
      .arith .add mode (.local cursor) (.const (.int offset)) false) ∨
    ∀ cursor, Lower.stepCode element cursor offset =
      .temporal .add (.local cursor) (.const (.dayTimeDuration (offset * Lower.dayNanos))) := by
  cases element with
  | number k => exact .inl ⟨_, fun _ => rfl⟩
  | _ => exact .inr fun _ => rfl

/-- Steps from cursors are the same where their cursors are and they go on in one way. -/
theorem same_stepCode (element element' : Ty) (cursor cursor' : String) (offset : Int) :
    (Lower.stepCode element cursor offset).same (Lower.stepCode element' cursor' offset) =
      ((cursor == cursor') &&
        (Lower.stepCode element "" offset).same (Lower.stepCode element' "" offset)) := by
  obtain ⟨mode, h⟩ | h := stepCode_cases element offset <;>
    obtain ⟨mode', h'⟩ | h' := stepCode_cases element' offset <;>
    simp [h, h', same, Bool.and_assoc, Bool.and_left_comm]

theorem sameBindings_eq {as bs as' bs' : List (Binding Code)}
    (h : List.Forall₂ (Binding.Moved (SameAs p q shift) shift) as bs)
    (h' : List.Forall₂ (Binding.Moved (Moved p q shift) shift) as' bs') :
    sameBindings as as' = sameBindings bs bs' := by
  induction h generalizing as' bs' with
  | nil =>
    cases h' with
    | nil => rfl
    | cons _ _ => simp [sameBindings]
  | @cons a b _ _ hab _ ih =>
    cases h' with
    | nil => simp [sameBindings]
    | @cons a' b' _ _ hab' h' =>
      obtain ⟨name, domain⟩ := a
      obtain ⟨_, domain₁⟩ := b
      obtain ⟨rfl, hdomain⟩ := hab
      obtain ⟨name', domain'⟩ := a'
      obtain ⟨_, domain₁'⟩ := b'
      obtain ⟨rfl, hdomain'⟩ := hab'
      have hsame : sameDomain domain domain' = sameDomain domain₁ domain₁' := by
        cases hdomain with
        | values hcd =>
          cases hdomain' with
          | values hcd' => simp only [sameDomain, hcd _ _ hcd']
          | steps => simp [sameDomain]
        | steps element n hf hl =>
          cases hdomain' with
          | values _ => simp [sameDomain]
          | steps element' n' hf' hl' =>
            have hcursor : (Draft.cursor n == Draft.cursor n') =
                (Draft.cursor (n + shift) == Draft.cursor (n' + shift)) := by
              rw [Bool.eq_iff_iff, beq_iff_eq, beq_iff_eq]
              refine ⟨fun h => ?_, fun h => ?_⟩
              · rw [Draft.cursor_injective h]
              · rw [Nat.add_right_cancel (Draft.cursor_injective h)]
            have hstep : ∀ offset, (Lower.stepCode element (Draft.cursor n) offset).same
                (Lower.stepCode element' (Draft.cursor n') offset) =
                (Lower.stepCode element (Draft.cursor (n + shift)) offset).same
                  (Lower.stepCode element' (Draft.cursor (n' + shift)) offset) := by
              intro offset
              rw [same_stepCode element element' (Draft.cursor n),
                same_stepCode element element' (Draft.cursor (n + shift)), hcursor]
            simp only [sameDomain, hf _ _ hf', hl _ _ hl', hcursor, hstep]
      simp only [sameBindings, hsame, ih h']

/-- Moved code keeps its form. -/
theorem ctorIdx_eq (h : Moved p q shift c d) : c.ctorIdx = d.ctorIdx := by
  cases h <;> rfl

/-- Only code of one form has to be compared. -/
theorem sameAs_of_form (hform : c.ctorIdx = d.ctorIdx)
    (h : ∀ c' d', c'.ctorIdx = c.ctorIdx → Moved p q shift c' d' → c.same c' = d.same d') :
    SameAs p q shift c d := by
  intro c' d' h'
  by_cases hc : c'.ctorIdx = c.ctorIdx
  · exact h c' d' hc h'
  · rw [same_of_ctorIdx_ne (Ne.symm hc),
      same_of_ctorIdx_ne (hform ▸ h'.ctorIdx_eq ▸ Ne.symm hc)]

/-- Of moved code of a plain form the roots are the same, and the parts are moved. -/
theorem of_plain (h : Moved p q shift c d) (hplain : c.isPlain = true) :
    c.bare = d.bare ∧ List.Forall₂ (Moved p q shift) c.children d.children := by
  cases h with
  | const | constRef | forIn | quantified => cases hplain
  | list hlength h =>
    rw [bare, bare, List.map_const', List.map_const', hlength]
    exact ⟨rfl, forall₂_of_zip hlength h⟩
  | @context es fs hnames h =>
    have hroots : es.map (fun e => (e.1, input)) = fs.map fun f => (f.1, input) := by
      simpa [Function.comp_def] using congrArg (List.map fun name => (name, input)) hnames
    refine ⟨congrArg Code.context hroots, List.forall₂_map_left_iff.mpr
      (List.forall₂_map_right_iff.mpr (forall₂_of_zip ?_ h))⟩
    simpa using congrArg List.length hnames
  | call names _ hlength h =>
    rw [bare, bare, List.map_const', List.map_const', hlength]
    exact ⟨rfl, forall₂_of_zip hlength h⟩
  | testInput | «local» | inputField => exact ⟨rfl, .nil⟩
  | member _ h | not h | negate h | instanceOf _ h | convert _ h | unaryMatch h =>
    exact ⟨rfl, .cons h .nil⟩
  | arith _ _ _ hl hr | concat hl hr | temporal _ hl hr | compare _ _ hl hr | equal _ _ hl hr
  | logic _ _ hl hr | dynamic _ hl hr | range _ _ hl hr | filter _ hl hr | listContains hl hr
  | rangeContains hl hr | withTestInput hl hr => exact ⟨rfl, .cons hl (.cons hr .nil)⟩
  | ite hx hy hz | between hx hy hz => exact ⟨rfl, .cons hx (.cons hy (.cons hz .nil))⟩

theorem sameAs_plain (h : Moved p q shift c d) (hplain : c.isPlain = true)
    (ih : List.Forall₂ (SameAs p q shift) c.children d.children) : SameAs p q shift c d := by
  refine sameAs_of_form h.ctorIdx_eq fun c' d' hform h' => ?_
  obtain ⟨hbare, -⟩ := h.of_plain hplain
  obtain ⟨hbare', hparts'⟩ := h'.of_plain (isPlain_of_form hplain hform)
  rw [same_plain hplain, same_plain (isPlain_of_form hplain h.ctorIdx_eq.symm), hbare, hbare',
    sameList_eq ih hparts']

/-- **Moved code is the same as moved code where the code is.** -/
theorem same_eq (hp : p.Nodup) (hq : q.Nodup) (h : Moved p q shift c d) :
    SameAs p q shift c d := by
  revert d
  refine partsInduction (P := fun c => ∀ {d}, Moved p q shift c d → SameAs p q shift c d)
    (fun c ih d h => ?_) c
  by_cases hplain : c.isPlain = true
  · have hparts := (h.of_plain hplain).2
    exact h.sameAs_plain hplain (forall₂_of_zip hparts.length_eq fun x hx =>
      ih x.1 (List.of_mem_zip hx).1 (zip_of_forall₂ hparts x hx))
  refine sameAs_of_form h.ctorIdx_eq fun c' d' hform h' => ?_
  cases h with
  | const v => cases h' <;> simp only [same]
  | constRef hi hj =>
    obtain ⟨_, rfl⟩ : ∃ x, c' = .constRef x := constRef.elim c' hform fun _ => ⟨_, rfl⟩
    cases h' with
    | constRef hi' hj' =>
      simp only [same]
      rw [Bool.eq_iff_iff, beq_iff_eq, beq_iff_eq]
      refine ⟨fun h => ?_, fun h => ?_⟩
      · subst h
        cases hi.symm.trans hi'
        exact index_eq hq hj hj'
      · subst h
        cases hj.symm.trans hj'
        exact index_eq hp hi hi'
  | forIn hshape hs h =>
    obtain ⟨_, _, rfl⟩ : ∃ x y, c' = .forIn x y := forIn.elim c' hform fun _ _ => ⟨_, _, rfl⟩
    cases h' with
    | forIn hshape' hs' h' =>
      have hbindings := Binding.moved_of_sources hshape fun x hx =>
        ih x.1 (List.mem_append_left _ (Binding.mem_cells (List.of_mem_zip hx).1)) (hs x hx)
      simp only [same, ih _ (List.mem_append_right _ (.head _)) h _ _ h',
        sameBindings_eq hbindings (Binding.moved_of_sources hshape' hs')]
  | quantified every hshape hs h =>
    obtain ⟨_, _, _, rfl⟩ : ∃ x y z, c' = .quantified x y z :=
      quantified.elim c' hform fun _ _ _ => ⟨_, _, _, rfl⟩
    cases h' with
    | quantified every' hshape' hs' h' =>
      have hbindings := Binding.moved_of_sources hshape fun x hx =>
        ih x.1 (List.mem_append_left _ (Binding.mem_cells (List.of_mem_zip hx).1)) (hs x hx)
      simp only [same, ih _ (List.mem_append_right _ (.head _)) h _ _ h',
        sameBindings_eq hbindings (Binding.moved_of_sources hshape' hs')]
  | _ => exact absurd rfl hplain

end Moved

end Code

end Feel
