import Feel.Proofs.FoldingOperators

/-!
# Forms with and without folding

From parts that follow each other every form of an expression is lowered to fragments that follow
each other.

* `Code.Follows.list` and the laws beside it: code follows code where its parts do.
* `Code.Settles.list`, `Code.Settles.context`, `Code.Settles.range`: structures of known values.
* `Lower.Folds`: a part is lowered to fragments that follow each other.
* `Lower.pairs_list` and the laws beside it: one for each form.
-/

namespace Feel

attribute [local instance] Strictness.exact Frames.closed

namespace Code

variable {rt : Runtime} {p q p' q' : List Value} {cs ds : List Code} {c d : Code}

/-! ### Code of several parts -/

/-- Parts that follow each other refine each other, where what is promised of them holds. -/
theorem Follows.parts {m n : Machine} (h : List.Forall₂ (Follows rt p q) cs ds)
    (hm : m.Over rt p) (hn : n.Over rt q) (hcs : ∀ c ∈ cs, c.WellMarked m)
    (hds : ∀ d ∈ ds, d.Foldable n) : List.Forall₂ (Code.Refines m n) cs ds := by
  induction h with
  | nil => exact .nil
  | cons hcd _ ih =>
    rw [List.forall_mem_cons] at hcs hds
    exact .cons (hcd m n hm hn hcs.1 hds.1) (ih hcs.2 hds.2)

theorem Follows.list (h : List.Forall₂ (Follows rt p q) cs ds) :
    Follows rt p q (list cs) (list ds) := by
  intro m n hm hn hmarked hfold
  have hparts := Follows.parts h hm hn (fun c hc => hmarked.part hc) fun d hd => hfold.part hd
  exact .list (denoteList_refines hparts)

/-- Entries of the same names refine each other where their codes do. -/
theorem entryRefines_zip {m n : Machine} (names : List String)
    (h : List.Forall₂ (Code.Refines m n) cs ds) :
    List.Forall₂ (EntryRefines m n) (names.zip cs) (names.zip ds) := by
  induction h generalizing names with
  | nil =>
    rw [List.zip_nil_right]
    exact .nil
  | cons hcd _ ih =>
    cases names with
    | nil => exact .nil
    | cons name names => exact .cons ⟨rfl, hcd⟩ (ih names)

/-- Entries whose code gives closed values. -/
theorem keeps_entries {m : Machine} {es : List (String × Code)}
    (h : ∀ e ∈ es, (e.2.denote m).Keeps) : ∀ e ∈ denoteEntries m es, e.2.Keeps := by
  induction es with
  | nil => exact List.forall_mem_nil _
  | cons e es ih =>
    rw [List.forall_mem_cons] at h
    exact List.forall_mem_cons.mpr ⟨h.1, ih h.2⟩

theorem Follows.context (names : List String) (hlength : names.length = cs.length)
    (h : List.Forall₂ (Follows rt p q) cs ds) :
    Follows rt p q (context (names.zip cs)) (context (names.zip ds)) := by
  intro m n hm hn hmarked hfold
  have hcs : (Code.context (names.zip cs)).children = cs :=
    List.map_snd_zip (Nat.le_of_eq hlength.symm)
  have hds : (Code.context (names.zip ds)).children = ds :=
    List.map_snd_zip (Nat.le_of_eq (hlength.trans h.length_eq).symm)
  have hparts := Follows.parts h hm hn (fun c hc => hmarked.part (by rw [hcs]; exact hc))
    fun d hd => hfold.part (by rw [hds]; exact hd)
  refine .context (denoteEntries_refines (entryRefines_zip names hparts)) (keeps_entries ?_)
  exact fun e he => (hmarked.part (List.mem_map_of_mem he)).keeps

theorem Follows.range {l r l' r' : Code} (si ei : Bool) (hl : Follows rt p q l l')
    (hr : Follows rt p q r r') :
    Follows rt p q (range (some l) (some r) si ei) (range (some l') (some r') si ei) := by
  intro m n hm hn hmarked hfold
  have hl' := hl m n hm hn (hmarked.part (by simp [children])) (hfold.part (by simp [children]))
  have hr' := hr m n hm hn (hmarked.part (by simp [children])) (hfold.part (by simp [children]))
  exact .range (.some hl') (.some hr') si ei

theorem Follows.ite {x y z x' y' z' : Code} (hx : Follows rt p q x x') (hy : Follows rt p q y y')
    (hz : Follows rt p q z z') : Follows rt p q (ite x y z) (ite x' y' z') := by
  intro m n hm hn hmarked hfold
  exact .ite
    (hx m n hm hn (hmarked.part (by simp [children])) (hfold.part (by simp [children])))
    (hy m n hm hn (hmarked.part (by simp [children])) (hfold.part (by simp [children])))
    (hz m n hm hn (hmarked.part (by simp [children])) (hfold.part (by simp [children])))

/-- The branch that is taken stands for the whole where the condition is known. -/
theorem Follows.branch {x y z d : Code} {v : Value} (hx : x.Settles rt p v)
    (h : Follows rt p q (if v.isBool true then y else z) d) :
    Follows rt p q (Code.ite x y z) d := by
  intro m n hm hn hmarked hfold site frame w hframe hw
  obtain ⟨a, ha, hw⟩ := bind_eq_ok.mp hw
  rw [hx m hm (hmarked.part (by simp [children])) _ _ a hframe ha] at hw
  split at hw
  · next htrue =>
    rw [if_pos htrue] at h
    exact h m n hm hn (hmarked.part (by simp [children])) hfold site frame w hframe hw
  · next hfalse =>
    rw [if_neg hfalse] at h
    exact h m n hm hn (hmarked.part (by simp [children])) hfold site frame w hframe hw

/-- What is known of the branch that is taken is known of the whole. -/
theorem Settles.branch {x y z : Code} {v w : Value} (hx : x.Settles rt p v)
    (h : Settles rt p (if v.isBool true then y else z) w) : (Code.ite x y z).Settles rt p w := by
  intro m hm hmarked site frame u hframe hu
  obtain ⟨a, ha, hu⟩ := bind_eq_ok.mp hu
  rw [hx m hm (hmarked.part (by simp [children])) _ _ a hframe ha] at hu
  split at hu
  · next htrue =>
    rw [if_pos htrue] at h
    exact h m hm (hmarked.part (by simp [children])) site frame u hframe hu
  · next hfalse =>
    rw [if_neg hfalse] at h
    exact h m hm (hmarked.part (by simp [children])) site frame u hframe hu

theorem Follows.between {x y z x' y' z' : Code} (hx : Follows rt p q x x')
    (hy : Follows rt p q y y') (hz : Follows rt p q z z') :
    Follows rt p q (between x y z) (between x' y' z') := by
  intro m n hm hn hmarked hfold
  exact .between
    (hx m n hm hn (hmarked.part (by simp [children])) (hfold.part (by simp [children])))
    (hy m n hm hn (hmarked.part (by simp [children])) (hfold.part (by simp [children])))
    (hz m n hm hn (hmarked.part (by simp [children])) (hfold.part (by simp [children])))

theorem Follows.filter {s f s' f' : Code} (kind : FilterKind) (hs : Follows rt p q s s')
    (hf : Follows rt p q f f') : Follows rt p q (filter s f kind) (filter s' f' kind) := by
  intro m n hm hn hmarked hfold
  have hmarkedSource := hmarked.part (d := s) (by simp [children])
  exact Filter.run_refines (hs m n hm hn hmarkedSource (hfold.part (by simp [children])))
    hmarkedSource.keeps
    (hf m n hm hn (hmarked.part (by simp [children])) (hfold.part (by simp [children]))) kind

theorem Follows.withTestInput {s b s' b' : Code} (hs : Follows rt p q s s')
    (hb : Follows rt p q b b') : Follows rt p q (withTestInput s b) (withTestInput s' b') := by
  intro m n hm hn hmarked hfold
  have hmarkedSource := hmarked.part (d := s) (by simp [children])
  exact .withTestInput (hs m n hm hn hmarkedSource (hfold.part (by simp [children])))
    hmarkedSource.keeps
    (hb m n hm hn (hmarked.part (by simp [children])) (hfold.part (by simp [children])))

theorem Follows.unaryMatch (h : Follows rt p q c d) :
    Follows rt p q (unaryMatch c) (unaryMatch d) := by
  intro m n hm hn hmarked hfold
  exact .unaryMatch
    (h m n hm hn (hmarked.part (by simp [children])) (hfold.part (by simp [children])))

theorem isMap_negate : IsMap negate Datum.negate := ⟨fun _ _ => rfl, fun _ => rfl⟩

theorem isMap_not : IsMap not Datum.not := ⟨fun _ _ => rfl, fun _ => rfl⟩

theorem isMap_instanceOf (target : Ty) :
    IsMap (instanceOf · target) fun v => .boolean (target.isInstance v) :=
  ⟨fun _ _ => rfl, fun _ => rfl⟩

theorem isMap_member (name : String) : IsMap (member · name) (·.member name) :=
  ⟨fun _ _ => rfl, fun _ => rfl⟩

theorem isMap_convert (target : Ty) : IsMap (convert · target) (·.convert target) :=
  ⟨fun _ _ => rfl, fun _ => rfl⟩

theorem isBoth_listContains : IsBoth listContains fun _ => Action.listContains :=
  ⟨fun _ _ _ => rfl, fun _ _ => rfl⟩

theorem isBoth_rangeContains : IsBoth rangeContains fun _ => Action.rangeContains :=
  ⟨fun _ _ _ => rfl, fun _ _ => rfl⟩

/-! ### Iterations and calls -/

/-- Code of steps that is the same on both sides. -/
theorem Follows.step (element : Ty) (cursor : String) (offset : Int) :
    Follows rt p q (Lower.stepCode element cursor offset)
      (Lower.stepCode element cursor offset) := by
  intro m n hm hn _ _
  unfold Lower.stepCode
  split
  · exact .arith (hm.similar hn) _ _ _ (.refl _) (.refl _)
  · exact .both _ (.refl _) (.refl _)

/-- Bindings whose domains follow each other. -/
abbrev BindingsFollow (rt : Runtime) (p q : List Value) (as bs : List (Binding Code)) : Prop :=
  List.Forall₂ (Binding.Rel (Follows rt p q)) as bs

theorem bindingsFollow_extend {as bs : List (Binding Code)} (h : BindingsFollow rt p q as bs)
    (hp : p <+: p') (hq : q <+: q') : BindingsFollow rt p' q' as bs :=
  h.imp fun _ _ hab => ⟨hab.name, hab.domain.imp fun _ _ hcd => hcd.extend hp hq⟩

/-- Domains that follow each other refine each other, where what is promised holds. -/
theorem Follows.domain {m n : Machine} {a b : Domain Code} (h : a.Rel (Follows rt p q) b)
    (hm : m.Over rt p) (hn : n.Over rt q) (ha : ∀ c ∈ a.cells, c.WellMarked m)
    (hb : ∀ d ∈ b.cells, d.Foldable n) : a.Rel (Code.Refines m n) b := by
  have hcell : ∀ {c d : Code}, Follows rt p q c d → c ∈ a.cells → d ∈ b.cells →
      Code.Refines m n c d := fun h hc hd => h m n hm hn (ha _ hc) (hb _ hd)
  cases h with
  | values h => exact .values (hcell h (by simp [Domain.cells]) (by simp [Domain.cells]))
  | steps cursor hf hl hs hp =>
    exact .steps cursor (hcell hf (by simp [Domain.cells]) (by simp [Domain.cells]))
      (hcell hl (by simp [Domain.cells]) (by simp [Domain.cells]))
      (hcell hs (by simp [Domain.cells]) (by simp [Domain.cells]))
      (hcell hp (by simp [Domain.cells]) (by simp [Domain.cells]))

theorem Follows.bindings {m n : Machine} {as bs : List (Binding Code)}
    (h : BindingsFollow rt p q as bs) (hm : m.Over rt p) (hn : n.Over rt q)
    (has : ∀ c ∈ as.flatMap (·.domain.cells), c.WellMarked m)
    (hbs : ∀ d ∈ bs.flatMap (·.domain.cells), d.Foldable n) :
    List.Forall₂ (Binding.Rel (Code.Refines m n)) as bs := by
  induction h with
  | nil => exact .nil
  | cons hab _ ih =>
    rw [List.flatMap_cons, List.forall_mem_append] at has hbs
    exact .cons ⟨hab.name, Follows.domain hab.domain hm hn has.1 hbs.1⟩ (ih has.2 hbs.2)

/-- Bindings whose domains give closed values. -/
theorem keeps_bindings {m : Machine} {bs : List (Binding Code)}
    (h : ∀ c ∈ bs.flatMap (·.domain.cells), c.WellMarked m) :
    Iteration.Keep (denoteBindings m bs) := by
  induction bs with
  | nil => exact List.forall_mem_nil _
  | cons b bs ih =>
    rw [List.flatMap_cons, List.forall_mem_append] at h
    refine List.forall_mem_cons.mpr ⟨?_, ih h.2⟩
    obtain ⟨name, domain⟩ := b
    cases domain <;> exact List.forall_mem_map.mpr fun c hc => (h.1 c hc).keeps

theorem Follows.forIn {as bs : List (Binding Code)} (h : BindingsFollow rt p q as bs)
    (hbody : Follows rt p q c d) : Follows rt p q (forIn as c) (forIn bs d) := by
  intro m n hm hn hmarked hfold
  have hdomains : ∀ c ∈ as.flatMap (·.domain.cells), c.WellMarked m :=
    fun c hc => hmarked.part (List.mem_append_left _ hc)
  have hbindings := Follows.bindings h hm hn hdomains
    fun d hd => hfold.part (List.mem_append_left _ hd)
  exact Iteration.collect_refines (denoteBindings_refines hbindings) (keeps_bindings hdomains)
    (hbody m n hm hn (hmarked.part (by simp [children])) (hfold.part (by simp [children])))

theorem Follows.quantified (every : Bool) {as bs : List (Binding Code)}
    (h : BindingsFollow rt p q as bs) (hbody : Follows rt p q c d) :
    Follows rt p q (quantified every as c) (quantified every bs d) := by
  intro m n hm hn hmarked hfold
  have hdomains : ∀ c ∈ as.flatMap (·.domain.cells), c.WellMarked m :=
    fun c hc => hmarked.part (List.mem_append_left _ hc)
  have hbindings := Follows.bindings h hm hn hdomains
    fun d hd => hfold.part (List.mem_append_left _ hd)
  exact Iteration.quantify_refines (denoteBindings_refines hbindings) (keeps_bindings hdomains)
    (hbody m n hm hn (hmarked.part (by simp [children])) (hfold.part (by simp [children]))) every

theorem Follows.call (name : String) (names : Option (List String))
    (h : List.Forall₂ (Follows rt p q) cs ds) :
    Follows rt p q (call (.builtin name) cs names) (call (.builtin name) ds names) := by
  intro m n hm hn hmarked hfold
  have hparts := Follows.parts h hm hn (fun c hc => hmarked.part hc) fun d hd => hfold.part hd
  exact .call (hm.similar hn) (.builtin name) (denoteList_refines hparts) names

theorem Follows.valueCall (names : Option (List String)) (hcallee : Follows rt p q c d)
    (h : List.Forall₂ (Follows rt p q) cs ds) :
    Follows rt p q (Code.call (.value c) cs names) (Code.call (.value d) ds names) := by
  intro m n hm hn hmarked hfold
  have hparts := Follows.parts h hm hn (fun c hc => hmarked.part (List.mem_cons_of_mem _ hc))
    fun d hd => hfold.part (List.mem_cons_of_mem _ hd)
  exact .call (hm.similar hn)
    (.value (hcallee m n hm hn (hmarked.part List.mem_cons_self) (hfold.part List.mem_cons_self)))
    (denoteList_refines hparts) names

/-- Code without closures defines no function. -/
theorem Follows.function (params : List String) (body : Code) (type : Ty) :
    Follows rt p q (function params body type) d :=
  fun _ _ _ _ hmarked _ => absurd trivial hmarked.closed.here

/-! ### Known structures -/

/-- Parts that are known give their values. -/
theorem Settles.all {m : Machine} {vs : List Value} (h : List.Forall₂ (Settles rt p) cs vs)
    (hm : m.Over rt p) (hcs : ∀ c ∈ cs, c.WellMarked m) (site : Site) {frame : Frame}
    (hframe : frame.Closed) (i : Nat) (ws : List Value) (hws : Action.all site frame i (denoteList m cs) = .ok ws) : ws = vs := by
  induction h generalizing i ws with
  | nil =>
    cases hws
    rfl
  | cons hc _ ih =>
    rw [List.forall_mem_cons] at hcs
    obtain ⟨w, hw, hws⟩ := bind_eq_ok.mp hws
    obtain ⟨rest, hrest, hws⟩ := bind_eq_ok.mp hws
    rw [← pure_eq_ok.mp hws, hc m hm hcs.1 _ _ w hframe hw, ih hcs.2 _ _ hrest]

theorem Settles.list {vs : List Value} (h : List.Forall₂ (Settles rt p) cs vs) :
    (list cs).Settles rt p (.list vs) := by
  intro m hm hmarked site frame w hframe hw
  obtain ⟨ws, hws, hw⟩ := bind_eq_ok.mp hw
  rw [← pure_eq_ok.mp hw, Settles.all h hm (fun c hc => hmarked.part hc) _ hframe _ _ hws]

/-- Entries that are known are written one after another, whatever they see of each other. -/
theorem Settles.entries {m : Machine} {vs : List Value} (h : List.Forall₂ (Settles rt p) cs vs)
    (hm : m.Over rt p) (hcs : ∀ c ∈ cs, c.WellMarked m) (names : List String) (site : Site)
    (i : Nat) {frame : Frame} (hframe : frame.Closed) (done es : List (String × Value))
    (hes : Action.entries site i frame (denoteEntries m (names.zip cs)) done = .ok es) :
    es = (names.zip vs).foldl (fun acc e => Entries.insert acc e.1 e.2) done := by
  induction h generalizing names i frame done with
  | nil =>
    rw [List.zip_nil_right] at hes ⊢
    cases hes
    rfl
  | cons hc _ ih =>
    rw [List.forall_mem_cons] at hcs
    cases names with
    | nil =>
      cases hes
      rfl
    | cons name names =>
      obtain ⟨w, hw, hes⟩ := bind_eq_ok.mp hes
      have hbound := hframe.bind name (hcs.1.keeps _ _ _ hframe hw)
      rw [hc m hm hcs.1 _ _ w hframe hw] at hes hbound
      exact ih hcs.2 names _ hbound _ hes

theorem Settles.context (names : List String) (hlength : names.length = cs.length)
    {vs : List Value} (h : List.Forall₂ (Settles rt p) cs vs) :
    (context (names.zip cs)).Settles rt p (.context (Entries.ofList (names.zip vs))) := by
  intro m hm hmarked site frame w hframe hw
  have hchildren : (Code.context (names.zip cs)).children = cs :=
    List.map_snd_zip (Nat.le_of_eq hlength.symm)
  obtain ⟨es, hes, hw⟩ := bind_eq_ok.mp hw
  rw [← pure_eq_ok.mp hw, Settles.entries h hm
    (fun c hc => hmarked.part (by rw [hchildren]; exact hc)) names _ _ hframe _ _ hes]
  rfl

theorem Settles.range {l r : Code} {a b : Value} (si ei : Bool) (hl : l.Settles rt p a)
    (hr : r.Settles rt p b) :
    (range (some l) (some r) si ei).Settles rt p (.range (some a) (some b) si ei) := by
  intro m hm hmarked site frame w hframe hw
  obtain ⟨x, hx, hw⟩ := bind_eq_ok.mp hw
  obtain ⟨y, hy, hw⟩ := bind_eq_ok.mp hw
  obtain ⟨x', hx', rfl⟩ := map_eq_ok.mp hx
  obtain ⟨y', hy', rfl⟩ := map_eq_ok.mp hy
  rw [← pure_eq_ok.mp hw, hl m hm (hmarked.part (by simp [children])) _ _ x' hframe hx',
    hr m hm (hmarked.part (by simp [children])) _ _ y' hframe hy']

end Code

/-! ### Parts -/

namespace Lower

open Lowering (Pairs Relation Free)
open Fragment (Tracks Granted)

/-- Fragments that follow each other. -/
abbrev Tracked (rt : Runtime) : Relation Fragment :=
  fun f g p q => Tracks rt p q f g

/-- Fragments of one type that follow each other. -/
abbrev Typed (rt : Runtime) : Relation Fragment :=
  fun f g p q => Tracks rt p q f g ∧ g.type = f.type

/-- A part is lowered to related fragments, without folding and with it. -/
def Folds (K : Value → Prop) (S : Scope) (R : Relation Fragment) (l : Lower) : Prop :=
  ∀ test p q, Pairs (Draft.Linked K) p q (l (S.lowering test false)) (l (S.lowering test true))
    Free R

/-- A part as it is lowered side by side, without folding and with it. -/
structure Lowered (K : Value → Prop) (S : Scope) (l : Lower) (test : Option Ty) (d e : Draft)
    (f : Fragment) (d' : Draft) (g : Fragment) (e' : Draft) : Prop where
  linked : Draft.Linked K d e
  without : l (S.lowering test false) d = .ok (f, d')
  folded : l (S.lowering test true) e = .ok (g, e')

/-- A part that has one type, whatever it is lowered in. -/
def OneType (S : Scope) (l : Lower) : Prop := ∃ type, HasType S l type

/-- What is known of a part, if it is pooled, is of a kind. -/
def KnownIn (K : Value → Prop) (S : Scope) (l : Lower) : Prop :=
  ∀ test d e f d' g e', Lowered K S l test d e f d' g e' →
    ∀ v, g.constant = some v → Draft.isInline v = false → K v

/-- Operands that are the same code with folding have equal values without. -/
def SameAgree (rt : Runtime) (K : Value → Prop) (S : Scope) (left right : Lower) : Prop :=
  ∀ test d e l d₁ l' e₁ r d₂ r' e₂, Lowered K S left test d e l d₁ l' e₁ →
    Lowered K S right test d₁ e₁ r d₂ r' e₂ → Draft.Linked K d₂ e₂ →
    Tracks rt d₂.constants e₂.constants l l' → Tracks rt d₂.constants e₂.constants r r' →
    l'.code.same r'.code = true → l.code.Agree rt d₂.constants r.code

variable {rt : Runtime} {K : Value → Prop} {S : Scope} {R : Relation Fragment}
  {p q : List Value} {test : Option Ty}

theorem pairs_all (hR : ∀ f g p q p' q', p <+: p' → q <+: q' → R f g p q → R f g p' q')
    {ls : List Lower} (h : ∀ l ∈ ls, Folds K S R l) (test : Option Ty) (p q : List Value) :
    Pairs (Draft.Linked K) p q (all (S.lowering test false) ls) (all (S.lowering test true) ls) Free
      fun fs gs p' q' =>
        fs.length = ls.length ∧ List.Forall₂ (fun f g => R f g p' q') fs gs := by
  induction ls generalizing p q with
  | nil => exact .pure fun _ _ _ _ _ => ⟨rfl, .nil⟩
  | cons l ls ih =>
    rw [List.forall_mem_cons] at h
    refine .bind (h.1 test p q) fun f g p₁ q₁ _ _ hfg => ?_
    refine .bind (ih h.2 p₁ q₁) fun fs gs p₂ q₂ hp hq ⟨hlength, hrest⟩ => ?_
    refine .pure fun p₃ q₃ hp' hq' _ => ⟨congrArg (· + 1) hlength, ?_⟩
    exact .cons (hR f g _ _ _ _ (hp.trans hp') (hq.trans hq') hfg)
      (hrest.imp fun f g hfg => hR f g _ _ _ _ hp' hq' hfg)

theorem tracked_extend (f g : Fragment) (p q p' q' : List Value) (hp : p <+: p') (hq : q <+: q')
    (h : Tracked rt f g p q) : Tracked rt f g p' q' :=
  Tracks.extend h hp hq

theorem typed_extend (f g : Fragment) (p q p' q' : List Value) (hp : p <+: p') (hq : q <+: q')
    (h : Typed rt f g p q) : Typed rt f g p' q' :=
  ⟨h.1.extend hp hq, h.2⟩

theorem Lowered.type_eq {l : Lower} {d e d' e' : Draft} {f g : Fragment}
    (h : Lowered K S l test d e f d' g e') (htype : OneType S l) : g.type = f.type := by
  obtain ⟨type, htype⟩ := htype
  rw [htype _ _ _ _ _ h.without, htype _ _ _ _ _ h.folded]

theorem Folds.typed {l : Lower} (h : Folds K S (Tracked rt) l) (htype : OneType S l) :
    Folds K S (Typed rt) l := by
  intro test p q d e f d' g e' hlink hp hq hf hg
  obtain ⟨hd, he, h⟩ := h test p q d e f d' g e' hlink hp hq hf hg
  refine ⟨hd, he, fun hfree => ?_⟩
  obtain ⟨hlink', htracks⟩ := h hfree
  have hlowered : Lowered K S l test d e f d' g e' := ⟨hlink, hf, hg⟩
  exact ⟨hlink', htracks, hlowered.type_eq htype⟩

/-- A form of which what is known is of a kind. -/
theorem Folds.of_granted {l : Lower}
    (h : ∀ test p q, Pairs (Draft.Linked K) p q (l (S.lowering test false))
      (l (S.lowering test true)) (Granted K) R) (hknown : KnownIn K S l) : Folds K S R l := by
  intro test p q
  refine (h test p q).grant fun d e f d' g e' hlink hf hg => ?_
  exact hknown test d e f d' g e' ⟨hlink, hf, hg⟩

/-- The code of fragments that follow each other. -/
theorem follows_codes {fs gs : List Fragment} (h : List.Forall₂ (Tracks rt p q) fs gs) :
    List.Forall₂ (Code.Follows rt p q) (fs.map (·.code)) (gs.map (·.code)) := by
  induction h with
  | nil => exact .nil
  | cons hfg _ ih => exact .cons hfg.runs ih

/-- Values that are known with folding are those of the code without. -/
theorem settles_codes {fs gs : List Fragment} (h : List.Forall₂ (Tracks rt p q) fs gs)
    {vs : List Value} (hvs : gs.mapM (·.constant) = some vs) :
    List.Forall₂ (Code.Settles rt p) (fs.map (·.code)) vs := by
  induction h generalizing vs with
  | nil =>
    cases hvs
    exact .nil
  | cons hfg _ ih =>
    rw [List.mapM_cons] at hvs
    obtain ⟨v, hv, hvs⟩ := Option.bind_eq_some_iff.mp hvs
    obtain ⟨rest, hrest, hvs⟩ := Option.bind_eq_some_iff.mp hvs
    cases hvs
    exact .cons (hfg.known v hv) (ih hrest)

/-! ### Structures -/

section Forms

variable (hK : ApartInPool K)
include hK

theorem pairs_list {items : List Lower} (h : ∀ l ∈ items, Folds K S (Tracked rt) l)
    (type : Ty) :
    Pairs (Draft.Linked K) p q (list items type (S.lowering test false))
      (list items type (S.lowering test true)) (Granted K) (Tracked rt) := by
  refine .bind (pairs_all tracked_extend h test p q) fun fs gs p' q' _ _ ⟨_, hfg⟩ => ?_
  have hoff : Fragment.values? (S.lowering test false).options fs = none := rfl
  have hon : Fragment.values? (S.lowering test true).options gs = gs.mapM (·.constant) := rfl
  rw [hoff, hon]
  cases hvs : gs.mapM (·.constant) with
  | some vs => exact Fragment.pairs_constant hK (.list (settles_codes hfg hvs))
  | none =>
    refine .pure fun p'' q'' hp hq _ => ?_
    exact ((Tracks.computed (.list (follows_codes hfg))).nonNull nofun).extend hp hq

theorem pairs_context {entries : List (String × Lower)}
    (h : ∀ e ∈ entries, Folds K S (Tracked rt) e.2) (type : Ty) :
    Pairs (Draft.Linked K) p q (context entries type (S.lowering test false))
      (context entries type (S.lowering test true)) (Granted K) (Tracked rt) := by
  refine .bind (pairs_all tracked_extend (List.forall_mem_map.mpr h) test p q)
    fun fs gs p' q' _ _ ⟨hlength, hfg⟩ => ?_
  have hoff : Fragment.values? (S.lowering test false).options fs = none := rfl
  have hon : Fragment.values? (S.lowering test true).options gs = gs.mapM (·.constant) := rfl
  have hnames : (entries.map (·.1)).length = (fs.map (·.code)).length := by
    rw [List.length_map, List.length_map, hlength, List.length_map]
  rw [hoff, hon]
  cases hvs : gs.mapM (·.constant) with
  | some vs =>
    exact Fragment.pairs_constant hK (.context _ hnames (settles_codes hfg hvs))
  | none =>
    refine .pure fun p'' q'' hp hq _ => ?_
    have hruns := Code.Follows.context _ hnames (follows_codes hfg)
    exact ((Tracks.computed hruns).nonNull nofun).extend hp hq

theorem pairs_range {start finish : Lower} (hs : Folds K S (Tracked rt) start)
    (hf : Folds K S (Tracked rt) finish) (si ei : Bool) (type : Ty) :
    Pairs (Draft.Linked K) p q (range start finish si ei type (S.lowering test false))
      (range start finish si ei type (S.lowering test true)) (Granted K) (Tracked rt) := by
  refine .bind (hs test p q) fun s s' p₁ q₁ _ _ hs' => ?_
  refine .bind (hf test p₁ q₁) fun f f' p₂ q₂ hp hq hf' => ?_
  have hs' := hs'.extend hp hq
  have hoff : Fragment.operands? (S.lowering test false).options s f = none := rfl
  rw [hoff]
  cases hknown : Fragment.operands? (S.lowering test true).options s' f' with
  | some pair =>
    obtain ⟨ha, hb⟩ := Fragment.constants_of_operands? hknown
    exact Fragment.pairs_constant hK (.range si ei (hs'.known _ ha) (hf'.known _ hb))
  | none =>
    refine .pure fun p₃ q₃ hp hq _ => ?_
    exact ((Tracks.computed (.range si ei hs'.runs hf'.runs)).nonNull nofun).extend hp hq

/-! ### Operators -/

theorem pairs_negation {operand : Lower} (h : Folds K S (Tracked rt) operand) (type : Ty) :
    Pairs (Draft.Linked K) p q (negation operand type (S.lowering test false))
      (negation operand type (S.lowering test true)) (Granted K) (Tracked rt) := by
  refine .bind (h test p q) fun f g p' q' _ _ hfg => ?_
  have hoff : f.value? (S.lowering test false).options = none := rfl
  rw [hoff]
  cases hv : g.value? (S.lowering test true).options with
  | some v =>
    have hsettles := (hfg.known v (Fragment.constant_of_value? hv)).map Code.isMap_negate
    refine Fragment.pairs_constant hK ?_
    rw [Fragment.code_withNullable]
    exact hsettles
  | none =>
    refine .pure fun p'' q'' hp hq _ => ?_
    exact (((Tracks.computed (.map Code.isMap_negate hfg.runs)).left _).right nofun _).extend
      hp hq

theorem pairs_binary {left right : Lower} (op : Operator) (hl : Folds K S (Tracked rt) left)
    (hr : Folds K S (Tracked rt) right)
    (htypes : op.looksAtTypes = true → OneType S left ∧ OneType S right)
    (hsame : op.isEquality = true → SameAgree rt K S left right)
    (hprecision : S.options.precision = rt.precision) (span : Span) :
    Pairs (Draft.Linked K) p q (binary op left right span (S.lowering test false))
      (binary op left right span (S.lowering test true)) (Granted K) (Tracked rt) := by
  intro d e c d' c' e' hlink hp hq hc hc'
  obtain ⟨⟨l, d₁⟩, hl₁, hc⟩ := bind_eq_ok.mp hc
  obtain ⟨⟨r, d₂⟩, hr₁, hc⟩ := bind_eq_ok.mp hc
  obtain ⟨⟨l', e₁⟩, hl₂, hc'⟩ := bind_eq_ok.mp hc'
  obtain ⟨⟨r', e₂⟩, hr₂, hc'⟩ := bind_eq_ok.mp hc'
  obtain ⟨hd₁, he₁, hleft⟩ := hl test p q d e l d₁ l' e₁ hlink hp hq hl₁ hl₂
  obtain ⟨hlink₁, htl⟩ := hleft .intro
  obtain ⟨hd₂, he₂, hright⟩ := hr test _ _ d₁ e₁ r d₂ r' e₂ hlink₁ (List.prefix_refl _)
    (List.prefix_refl _) hr₁ hr₂
  obtain ⟨hlink₂, htr⟩ := hright .intro
  have hleft : Lowered K S left test d e l d₁ l' e₁ := ⟨hlink, hl₁, hl₂⟩
  have hright : Lowered K S right test d₁ e₁ r d₂ r' e₂ := ⟨hlink₁, hr₁, hr₂⟩
  have hbinary := Fragment.pairs_binary (o := S.options) (htl.extend hd₂ he₂) htr op
    (fun hlooks => ⟨hleft.type_eq (htypes hlooks).1, hright.type_eq (htypes hlooks).2⟩)
    (fun hequality => hsame hequality _ _ _ _ _ _ _ _ _ _ _ hleft hright hlink₂
      (htl.extend hd₂ he₂) htr) hprecision hK span
  obtain ⟨hd, he, h⟩ := hbinary d₂ e₂ c d' c' e' hlink₂ (List.prefix_refl _) (List.prefix_refl _)
    hc hc'
  exact ⟨(hd₁.trans hd₂).trans hd, (he₁.trans he₂).trans he, h⟩

theorem pairs_instanceOf {value : Lower} (h : Folds K S (Tracked rt) value) (target : Ty) :
    Pairs (Draft.Linked K) p q (instanceOf value target (S.lowering test false))
      (instanceOf value target (S.lowering test true)) (Granted K) (Tracked rt) := by
  refine .bind (h test p q) fun f g p' q' _ _ hfg => ?_
  have hoff : f.value? (S.lowering test false).options = none := rfl
  rw [hoff]
  cases hv : g.value? (S.lowering test true).options with
  | some v =>
    have hsettles := (hfg.known v (Fragment.constant_of_value? hv)).map
      (Code.isMap_instanceOf target)
    exact Fragment.pairs_constant hK hsettles
  | none =>
    refine .pure fun p'' q'' hp hq _ => ?_
    have hruns := hfg.runs.map (Code.isMap_instanceOf target)
    exact ((Tracks.computed hruns).nonNull nofun).extend hp hq

omit hK

theorem pairs_between {value low high : Lower} (hv : Folds K S (Tracked rt) value)
    (hl : Folds K S (Tracked rt) low) (hh : Folds K S (Tracked rt) high) :
    Pairs (Draft.Linked K) p q (between value low high (S.lowering test false))
      (between value low high (S.lowering test true)) (Granted K) (Tracked rt) := by
  refine .bind (hv test p q) fun v v' p₁ q₁ _ _ hv' => ?_
  refine .bind (hl test p₁ q₁) fun l l' p₂ q₂ hp₂ hq₂ hl' => ?_
  refine .bind (hh test p₂ q₂) fun h h' p₃ q₃ hp₃ hq₃ hh' => ?_
  refine .pure fun p₄ q₄ hp₄ hq₄ _ => .extend (.computed ?_) hp₄ hq₄
  exact .between ((hv'.runs.extend hp₂ hq₂).extend hp₃ hq₃) (hl'.runs.extend hp₃ hq₃) hh'.runs

/-- The tests of a value see its type, which is one with folding and without. -/
theorem pairs_isIn {value tests : Lower} (hv : Folds K S (Typed rt) value)
    (ht : Folds K S (Tracked rt) tests) :
    Pairs (Draft.Linked K) p q (isIn value tests (S.lowering test false))
      (isIn value tests (S.lowering test true)) (Granted K) (Tracked rt) := by
  refine .bind (hv test p q) fun v v' p₁ q₁ _ _ ⟨hv', htype⟩ => ?_
  rw [htype]
  refine .bind (ht (some v.type) p₁ q₁) fun t t' p₂ q₂ hp₂ hq₂ ht' => ?_
  refine .pure fun p₃ q₃ hp₃ hq₃ _ => .extend (.computed ?_) hp₃ hq₃
  exact .withTestInput (hv'.runs.extend hp₂ hq₂) ht'.runs

/-! ### Control -/

theorem pairs_ite {condition yes no : Lower}
    (hc : Folds K S (Tracked rt) condition) (hy : Folds K S (Tracked rt) yes)
    (hn : Folds K S (Tracked rt) no) (type : Ty) :
    Pairs (Draft.Linked K) p q (ite condition yes no type (S.lowering test false))
      (ite condition yes no type (S.lowering test true)) (Granted K) (Tracked rt) := by
  refine .bind (hc test p q) fun c c' p₁ q₁ _ _ hc' => ?_
  refine .bind (hy test p₁ q₁) fun y y' p₂ q₂ hp₂ hq₂ hy' => ?_
  refine .bind (hn test p₂ q₂) fun n n' p₃ q₃ hp₃ hq₃ hn' => ?_
  have hc' := (hc'.extend hp₂ hq₂).extend hp₃ hq₃
  have hy' := hy'.extend hp₃ hq₃
  have hoff : c.value? (S.lowering test false).options = none := rfl
  rw [hoff]
  cases hv : c'.value? (S.lowering test true).options with
  | some v =>
    have hcond := hc'.known v (Fragment.constant_of_value? hv)
    refine .pure fun p₄ q₄ hp₄ hq₄ _ => .extend (.left ?_ _) hp₄ hq₄
    have hbranch : Tracks rt p₃ q₃ (if v.isBool true then y else n)
        (if v.isBool true then y' else n') := by
      split
      · exact hy'
      · exact hn'
    have hcode : (if v.isBool true then y else n).code =
        if v.isBool true then y.code else n.code := by
      split <;> rfl
    refine ⟨.branch hcond (hcode ▸ hbranch.runs), fun w hw => ?_, hbranch.locals⟩
    exact .branch hcond (hcode ▸ hbranch.known w hw)
  | none =>
    have hruns := Code.Follows.ite hc'.runs hy'.runs hn'.runs
    refine .pure fun p₄ q₄ hp₄ hq₄ _ => ?_
    exact (((Tracks.computed hruns).left _).right nofun _).extend hp₄ hq₄

/-- What a binding runs over is lowered to related fragments. -/
structure DomainFolds (rt : Runtime) (K : Value → Prop) (S : Scope) (part : DomainPart) :
    Prop where
  whole : Folds K S (Tracked rt) part.whole
  bounds : ∀ b, part.bounds = some b →
    Folds K S (Tracked rt) b.start ∧ Folds K S (Tracked rt) b.finish

theorem pairs_domain {part : DomainPart} (h : DomainFolds rt K S part) :
    Pairs (Draft.Linked K) p q (domain part (S.lowering test false))
      (domain part (S.lowering test true)) Free fun a b p' q' => a.Rel (Code.Follows rt p' q') b := by
  have hvalues : ∀ p q, Pairs (Draft.Linked K) p q
      (do return Domain.values (← part.whole (S.lowering test false)).code)
      (do return Domain.values (← part.whole (S.lowering test true)).code) Free
      fun a b p' q' => a.Rel (Code.Follows rt p' q') b := by
    intro p q
    refine .bind (h.whole test p q) fun f g p₁ q₁ _ _ hfg => ?_
    exact .pure fun p₂ q₂ hp hq _ => .values (hfg.runs.extend hp hq)
  unfold domain
  cases hbounds : part.bounds with
  | none => exact hvalues p q
  | some b =>
    obtain ⟨hs, hf⟩ := h.bounds b hbounds
    refine .bind (hs test p q) fun s s' p₁ q₁ _ _ hs' => ?_
    refine .bind (hf test p₁ q₁) fun f f' p₂ q₂ hp₂ hq₂ hf' => ?_
    split
    · refine .bind (R := fun a b _ _ => a = b) (.fresh fun _ _ _ _ _ => rfl)
        fun cursor cursor' p₃ q₃ hp₃ hq₃ hcursor => ?_
      subst hcursor
      refine .pure fun p₄ q₄ hp₄ hq₄ _ => ?_
      have hp := hp₃.trans hp₄
      have hq := hq₃.trans hq₄
      exact .steps cursor ((hs'.runs.extend hp₂ hq₂).extend hp hq) (hf'.runs.extend hp hq)
        (.step part.element cursor 1) (.step part.element cursor (-1))
    · exact hvalues p₂ q₂

theorem pairs_bindings {parts : List DomainPart} (h : ∀ part ∈ parts, DomainFolds rt K S part)
    (p q : List Value) :
    Pairs (Draft.Linked K) p q (bindings (S.lowering test false) parts)
      (bindings (S.lowering test true) parts) Free fun as bs p' q' => Code.BindingsFollow rt p' q' as bs := by
  induction parts generalizing p q with
  | nil => exact .pure fun _ _ _ _ _ => .nil
  | cons part parts ih =>
    rw [List.forall_mem_cons] at h
    refine .bind (pairs_domain h.1) fun a b p₁ q₁ _ _ hab => ?_
    refine .bind (ih h.2 p₁ q₁) fun as bs p₂ q₂ hp hq hrest => ?_
    refine .pure fun p₃ q₃ hp' hq' _ => .cons ⟨rfl, ?_⟩ (Code.bindingsFollow_extend hrest hp' hq')
    exact hab.imp fun c d hcd => (hcd.extend hp hq).extend hp' hq'

theorem pairs_forIn {parts : List DomainPart} (h : ∀ part ∈ parts, DomainFolds rt K S part)
    {body : Lower} (hb : Folds K S (Tracked rt) body) (type : Ty) :
    Pairs (Draft.Linked K) p q (forIn parts body type (S.lowering test false))
      (forIn parts body type (S.lowering test true)) (Granted K) (Tracked rt) := by
  refine .bind (pairs_bindings h p q) fun as bs p₁ q₁ _ _ hab => ?_
  refine .bind (hb test p₁ q₁) fun b b' p₂ q₂ hp₂ hq₂ hb' => ?_
  refine .pure fun p₃ q₃ hp₃ hq₃ _ => .extend (.nonNull (.computed ?_) nofun) hp₃ hq₃
  exact .forIn (Code.bindingsFollow_extend hab hp₂ hq₂) hb'.runs

theorem pairs_quantified (every : Bool) {parts : List DomainPart}
    (h : ∀ part ∈ parts, DomainFolds rt K S part) {condition : Lower}
    (hc : Folds K S (Tracked rt) condition) :
    Pairs (Draft.Linked K) p q (quantified every parts condition (S.lowering test false))
      (quantified every parts condition (S.lowering test true)) (Granted K)
      (Tracked rt) := by
  refine .bind (pairs_bindings h p q) fun as bs p₁ q₁ _ _ hab => ?_
  refine .bind (hc test p₁ q₁) fun c c' p₂ q₂ hp₂ hq₂ hc' => ?_
  refine .pure fun p₃ q₃ hp₃ hq₃ _ => .extend (.computed ?_) hp₃ hq₃
  exact .quantified every (Code.bindingsFollow_extend hab hp₂ hq₂) hc'.runs

theorem pairs_filter {source filter : Lower} (hs : Folds K S (Tracked rt) source)
    (hf : Folds K S (Tracked rt) filter) (kind : FilterKind) (type : Ty) :
    Pairs (Draft.Linked K) p q (Lower.filter source filter kind type (S.lowering test false))
      (Lower.filter source filter kind type (S.lowering test true)) (Granted K)
      (Tracked rt) := by
  refine .bind (hs test p q) fun s s' p₁ q₁ _ _ hs' => ?_
  refine .bind (hf test p₁ q₁) fun f f' p₂ q₂ hp₂ hq₂ hf' => ?_
  refine .pure fun p₃ q₃ hp₃ hq₃ _ => .extend (.computed ?_) hp₃ hq₃
  exact .filter kind (hs'.runs.extend hp₂ hq₂) hf'.runs

theorem pairs_path {source : Lower} (h : Folds K S (Typed rt) source) (member : String)
    (span : Span) :
    Pairs (Draft.Linked K) p q (path source member span (S.lowering test false))
      (path source member span (S.lowering test true)) (Granted K) (Tracked rt) := by
  refine .bind (h test p q) fun f g p₁ q₁ _ _ ⟨hfg, htype⟩ => ?_
  rw [htype]
  split
  · refine .pure fun p₂ q₂ hp₂ hq₂ _ => .extend (.computed ?_) hp₂ hq₂
    exact hfg.runs.map (Code.isMap_member member)
  · exact .throw

/-! ### Functions and names -/

theorem pairs_function (params : List (String × Ty)) {body : Lower}
    (h : Folds K S (Tracked rt) body) (type : Ty) :
    Pairs (Draft.Linked K) p q (function params body type (S.lowering test false))
      (function params body type (S.lowering test true)) (Granted K) (Tracked rt) := by
  refine .bind (h test p q) fun f g p₁ q₁ _ _ _ => ?_
  refine .pure fun p₂ q₂ _ _ _ => ?_
  exact Tracks.nonNull (.computed (.function _ _ _)) nofun

/-- Arguments of one type are converted in one way. -/
theorem typed_convertTo {f g : Fragment} (h : Typed rt f g p q) (param : Ty) :
    Typed rt (f.convertTo param) (g.convertTo param) p q := by
  obtain ⟨htracks, htype⟩ := h
  have hconvert : Typed rt (.computed (.convert f.code param) param)
      (.computed (.convert g.code param) param) p q :=
    ⟨.computed (htracks.runs.map (Code.isMap_convert param)), rfl⟩
  unfold Fragment.convertTo
  rw [htype]
  split
  · split
    · exact ⟨htracks, htype⟩
    · exact hconvert
  · split
    · exact ⟨htracks, htype⟩
    · exact hconvert
  · exact ⟨htracks, htype⟩

theorem typed_convertAll {fs gs : List Fragment}
    (h : List.Forall₂ (fun f g => Typed rt f g p q) fs gs) (signature : Ty) :
    List.Forall₂ (fun f g => Typed rt f g p q) (Fragment.convertAll fs signature)
      (Fragment.convertAll gs signature) := by
  unfold Fragment.convertAll
  split
  · next params _ _ =>
    induction h generalizing params with
    | nil =>
      rw [List.zip_nil_left]
      exact .nil
    | cons hfg _ ih =>
      cases params with
      | nil => exact .nil
      | cons param params => exact .cons (typed_convertTo hfg param) (ih params)
  · exact h

/-- A call of a built-in function is code of its own, but for a negation. -/
theorem lower?_call {name : String} {f : Builtin} (hname : Builtin.ofName? name = some f)
    {args : List Fragment} (h : ¬ (f = .not ∧ args.length = 1)) :
    Libraries.lower? [.builtins] name args =
      some (pure (.computed (.call (.builtin name) (args.map (·.code)) none)
        (((f.signature? (args.map (·.type))).bind (·.result?)).getD .any))) := by
  rw [Libraries.lower?, List.findSome?_singleton, Library.lower?]
  simp only [hname, Option.bind_eq_bind, Option.bind_some]
  split
  · next hcodes =>
    have hlength := congrArg List.length hcodes
    rw [List.length_map] at hlength
    exact absurd ⟨rfl, hlength⟩ h
  · rfl

/-- A call of a built-in function is lowered in one way over arguments of one type. -/
theorem pairs_builtin {fs gs : List Fragment}
    (h : List.Forall₂ (fun f g => Typed rt f g p q) fs gs) (name : String) :
    (Libraries.lower? [.builtins] name fs = none ∧ Libraries.lower? [.builtins] name gs = none) ∨
      ∃ f g, Libraries.lower? [.builtins] name fs = some (pure f) ∧
        Libraries.lower? [.builtins] name gs = some (pure g) ∧ Typed rt f g p q := by
  cases hname : Builtin.ofName? name with
  | none =>
    refine .inl ⟨?_, ?_⟩ <;>
      rw [Libraries.lower?, List.findSome?_singleton, Library.lower?] <;>
      simp only [hname, Option.bind_eq_bind, Option.bind_none]
  | some f =>
    refine .inr ?_
    by_cases hnot : f = .not ∧ fs.length = 1
    · obtain ⟨rfl, hlength⟩ := hnot
      obtain ⟨x, rfl⟩ := List.length_eq_one_iff.mp hlength
      cases h with
      | @cons _ y _ _ hxy hnil =>
        cases hnil
        refine ⟨.computed (.not x.code) .boolean, .computed (.not y.code) .boolean, ?_, ?_,
          .computed (hxy.1.runs.map Code.isMap_not), rfl⟩ <;>
          rw [Libraries.lower?, List.findSome?_singleton, Library.lower?] <;>
          simp only [hname] <;> rfl
    · have htypes : gs.map (·.type) = fs.map (·.type) := by
        clear hnot
        induction h with
        | nil => rfl
        | cons hfg _ ih => rw [List.map_cons, List.map_cons, hfg.2, ih]
      have hcodes := follows_codes (h.imp fun _ _ hfg => hfg.1)
      refine ⟨_, _, lower?_call hname hnot, lower?_call hname (h.length_eq ▸ hnot), ?_⟩
      rw [htypes]
      exact ⟨.computed (.call name none hcodes), rfl⟩

theorem pairs_namedCall (hlibraries : S.libraries = [.builtins]) {args : List Lower}
    (h : ∀ l ∈ args, Folds K S (Typed rt) l) (name : String) (signature : Ty)
    (names : Option (List String)) (type : Ty) (span : Span) :
    Pairs (Draft.Linked K) p q
      (invocation (.named name signature) args names type span (S.lowering test false))
      (invocation (.named name signature) args names type span (S.lowering test true))
      (Granted K) (Tracked rt) := by
  refine .bind (pairs_all typed_extend h test p q) fun fs gs p₁ q₁ _ _ ⟨_, hfg⟩ => ?_
  have hlibs : ∀ b, (S.lowering test b).libraries = [.builtins] := fun _ => hlibraries
  dsimp only
  rw [hlibs, hlibs]
  obtain ⟨hf, hg⟩ | ⟨f, g, hf, hg, hcall⟩ := pairs_builtin (typed_convertAll hfg signature) name
  · rw [hf, hg]
    exact .throw
  · rw [hf, hg]
    obtain ⟨hcall, htype⟩ := hcall
    refine .pure fun p₂ q₂ hp₂ hq₂ _ => Tracks.extend ?_ hp₂ hq₂
    rw [htype]
    split
    · exact ⟨hcall.runs, hcall.known, hcall.locals⟩
    · exact hcall

theorem pairs_valueCall {args : List Lower} (h : ∀ l ∈ args, Folds K S (Tracked rt) l)
    {callee : Lower} (hc : Folds K S (Tracked rt) callee) (names : Option (List String))
    (type : Ty) (span : Span) :
    Pairs (Draft.Linked K) p q
      (invocation (.value callee) args names type span (S.lowering test false))
      (invocation (.value callee) args names type span (S.lowering test true)) (Granted K)
      (Tracked rt) := by
  refine .bind (pairs_all tracked_extend h test p q) fun fs gs p₁ q₁ _ _ ⟨_, hfg⟩ => ?_
  refine .bind (hc test p₁ q₁) fun c c' p₂ q₂ hp₂ hq₂ hc' => ?_
  refine .pure fun p₃ q₃ hp₃ hq₃ _ => Tracks.extend (.computed ?_) hp₃ hq₃
  exact .valueCall names hc'.runs (follows_codes (hfg.imp fun _ _ h => h.extend hp₂ hq₂))

/-- Code that runs the same over both pools. -/
theorem follows_of_denote {c : Code} (h : ∀ m n : Machine, c.denote m = c.denote n) :
    c.Follows rt p q c := by
  intro m n _ _ _ _
  rw [Code.Refines, h m n]
  exact .refl _

include hK in
/-- A value that is pooled is found in both pools. -/
theorem pairs_intern {v : Value} (hv : Poolable K v) :
    Pairs (Draft.Linked K) p q (Lowering.intern v) (Lowering.intern v) Free
      fun i j p' q' => p'[i]? = some v ∧ q'[j]? = some v := by
  intro d e i d' j e' hlink _ _ hi hj
  have hi : d.intern v = (i, d') := Except.ok.inj hi
  have hj : e.intern v = (j, e') := Except.ok.inj hj
  obtain ⟨hgrow, hlocals, hpool, hplace⟩ := Draft.intern_spec hK hlink.left hv
  obtain ⟨hgrow', hlocals', hpool', hplace'⟩ := Draft.intern_spec hK hlink.right hv
  rw [hi] at hgrow hlocals hpool hplace
  rw [hj] at hgrow' hlocals' hpool' hplace'
  exact ⟨hgrow, hgrow', fun _ =>
    ⟨⟨hlocals.trans (hlink.locals.trans hlocals'.symm), hpool, hpool'⟩, hplace, hplace'⟩⟩

include hK in
theorem pairs_name (hlibraries : S.libraries = [.builtins]) (name : String) (origin : Origin)
    (type : Ty) (span : Span) :
    Pairs (Draft.Linked K) p q (Lower.name name origin type span (S.lowering test false))
      (Lower.name name origin type span (S.lowering test true)) (Granted K)
      (Tracked rt) := by
  have hfield : Pairs (Draft.Linked K) p q (pure (.computed (.inputField name) type))
      (pure (.computed (.inputField name) type)) (Granted K) (Tracked rt) :=
    .pure fun _ _ _ _ _ => .computed (follows_of_denote fun _ _ => rfl)
  cases origin with
  | bound => exact .pure fun _ _ _ _ _ => .computed (follows_of_denote fun _ _ => rfl)
  | input => exact hfield
  | dynamic => exact hfield
  | function =>
    have hvalue : ∀ b, (S.lowering test b).libraries.value? name =
        (Builtin.ofName? name).map (·.functionValue) := by
      intro b
      change Libraries.value? S.libraries name = _
      rw [hlibraries, Libraries.value?, List.findSome?_singleton]
      rfl
    unfold Lower.name
    dsimp only
    rw [hvalue, hvalue]
    cases Builtin.ofName? name with
    | none => exact .throw
    | some f =>
      refine .bind (pairs_intern hK (.inr ⟨f, rfl⟩)) fun i j p₁ q₁ _ _ hplace => ?_
      refine .pure fun p₂ q₂ hp₂ hq₂ _ =>
        Tracks.extend (.nonNull (.computed ?_) fun _ h => by cases h) hp₂ hq₂
      exact (Code.loads_constRef hplace.2).follows (Code.loads_constRef hplace.1).settles

/-! ### Unary tests -/

/-- Only the value under test is the same code as it. -/
theorem eq_of_same_testInput {c : Code} (h : Code.testInput.same c = true) : c = .testInput := by
  unfold Code.same at h
  split at h
  · rfl
  · cases h

/-- The value under test on both sides. -/
theorem tracks_subject (type : Ty) :
    Tracks rt p q (.computed .testInput type) (.computed .testInput type) :=
  .computed (follows_of_denote fun _ _ => rfl)

/-- Values without closures are pooled in drafts without closures. -/
theorem closed_of_linked (hclosed : ∀ v, K v → v.Closed) {d e : Draft}
    (h : Draft.Linked K d e) : AllClosed e.constants := by
  intro v hv
  rcases h.right v hv with hv | ⟨f, rfl⟩
  · exact hclosed v hv
  · exact .builtin (by cases f <;> decide)

section Subject

variable (hnatives : rt.natives.Uniform) (hclosed : ∀ v, K v → v.Closed)
include hnatives hclosed

/-- What is folded to the value under test is equal to it. -/
theorem agree_subject {d e : Draft} (hlink : Draft.Linked K d e) {f g : Fragment}
    (h : Tracks rt d.constants e.constants f g) (hsame : Code.testInput.same g.code = true) :
    Code.testInput.Agree rt d.constants f.code := by
  have hruns := h.runs
  rw [eq_of_same_testInput hsame] at hruns
  refine Code.Follows.agree hnatives (closed_of_linked hclosed hlink) ?_ ?_ ?_
    (follows_of_denote fun _ _ => rfl) hruns
  · exact Code.everywhere_iff.mpr ⟨trivial, nofun⟩
  · exact .of_parts trivial nofun
  · exact Code.everywhere_iff.mpr ⟨⟨trivial, trivial⟩, nofun⟩

include hK

theorem pairs_comparison (op : Operator) {value : Lower} (h : Folds K S (Tracked rt) value)
    (htype : op.looksAtTypes = true → OneType S value)
    (hprecision : S.options.precision = rt.precision) (span : Span) :
    Pairs (Draft.Linked K) p q (comparison op value span (S.lowering test false))
      (comparison op value span (S.lowering test true)) (Granted K) (Tracked rt) := by
  intro d e c d' c' e' hlink hp hq hc hc'
  obtain ⟨⟨f, d₁⟩, hf, hc⟩ := bind_eq_ok.mp hc
  obtain ⟨⟨g, e₁⟩, hg, hc'⟩ := bind_eq_ok.mp hc'
  obtain ⟨hd₁, he₁, hvalue⟩ := h test p q d e f d₁ g e₁ hlink hp hq hf hg
  obtain ⟨hlink₁, htracks⟩ := hvalue .intro
  have hlowered : Lowered K S value test d e f d₁ g e₁ := ⟨hlink, hf, hg⟩
  have hbinary := Fragment.pairs_binary (o := S.options)
    (tracks_subject (subjectType (S.lowering test false))) htracks op
    (fun hlooks => ⟨rfl, hlowered.type_eq (htype hlooks)⟩)
    (fun _ => agree_subject hnatives hclosed hlink₁ htracks) hprecision hK span
  obtain ⟨hd, he, h⟩ := hbinary d₁ e₁ c d' c' e' hlink₁ (List.prefix_refl _) (List.prefix_refl _)
    hc hc'
  exact ⟨hd₁.trans hd, he₁.trans he, h⟩

/-- A value serves as a test in one way, without folding and with it. -/
theorem pairs_matching {d e : Draft} (hlink : Draft.Linked K d e) {f g : Fragment}
    (h : Typed rt f g d.constants e.constants) (span : Span) (subject : Ty) :
    Pairs (Draft.Linked K) d.constants e.constants
      (matching (S.lowering test false).options span subject f)
      (matching (S.lowering test true).options span subject g) Free (Tracked rt) := by
  obtain ⟨htracks, htype⟩ := h
  have hwhole : ∀ {c c' : Code}, c.Follows rt d.constants e.constants c' →
      Pairs (Draft.Linked K) d.constants e.constants (pure (.computed c .boolean))
        (pure (.computed c' .boolean)) Free (Tracked rt) :=
    fun hcode => .pure fun _ _ hp hq _ => Tracks.extend (.computed hcode) hp hq
  have hsubject : Tracks rt d.constants e.constants _ _ := tracks_subject subject
  have hequal := Fragment.pairs_eq (o := S.options) hK hsubject htracks
    (agree_subject hnatives hclosed hlink htracks) span
  unfold matching
  dsimp only
  rw [htype]
  split
  · split
    · exact hequal
    · exact hwhole (.both Code.isBoth_listContains Code.isBoth_listContains (fun _ _ _ => rfl)
        htracks.runs hsubject.runs)
  · exact hwhole (.both Code.isBoth_rangeContains Code.isBoth_rangeContains (fun _ _ _ => rfl)
      htracks.runs hsubject.runs)
  · split
    · exact hwhole (.unaryMatch htracks.runs)
    · split
      · exact hequal
      · exact .pure fun _ _ hp hq _ => htracks.extend hp hq
  · exact hwhole (.unaryMatch htracks.runs)
  · exact hequal

/-- A test is lowered to related fragments. One that does not speak of the value under test has
one type. -/
structure TestFolds (rt : Runtime) (K : Value → Prop) (S : Scope) (part : TestPart) : Prop where
  complete : part.isComplete = true → Folds K S (Tracked rt) part.lower
  incomplete : part.isComplete = false → Folds K S (Typed rt) part.lower

theorem pairs_test {part : TestPart} (h : TestFolds rt K S part) :
    Pairs (Draft.Linked K) p q (Lower.test (S.lowering test false) part)
      (Lower.test (S.lowering test true) part) Free (Tracked rt) := by
  unfold Lower.test
  cases hcomplete : part.isComplete with
  | true =>
    refine .bind (h.complete hcomplete test p q) fun f g p₁ q₁ _ _ hfg => ?_
    exact .pure fun _ _ hp hq _ => hfg.extend hp hq
  | false =>
    exact .bindLinked (h.incomplete hcomplete test p q) fun f g d e hlink _ _ hfg =>
      pairs_matching hK hnatives hclosed hlink hfg part.span _

theorem pairs_anyOf (span : Span) {parts : List TestPart}
    (h : ∀ part ∈ parts, TestFolds rt K S part) {f g : Fragment} (hfg : Tracks rt p q f g) :
    Pairs (Draft.Linked K) p q (anyOf (S.lowering test false) span f parts)
      (anyOf (S.lowering test true) span g parts) Free (Tracked rt) := by
  induction parts generalizing f g p q with
  | nil => exact .pure fun _ _ hp hq _ => hfg.extend hp hq
  | cons part parts ih =>
    rw [List.forall_mem_cons] at h
    refine .bind (pairs_test hK hnatives hclosed h.1) fun t t' p₁ q₁ hp₁ hq₁ ht => ?_
    exact .bind (Fragment.pairs_or hK (hfg.extend hp₁ hq₁) ht span)
      fun b b' p₂ q₂ _ _ hb => ih h.2 hb

theorem pairs_disjunction (span : Span) {parts : List TestPart}
    (h : ∀ part ∈ parts, TestFolds rt K S part) :
    Pairs (Draft.Linked K) p q (disjunction (S.lowering test false) span parts)
      (disjunction (S.lowering test true) span parts) Free (Tracked rt) := by
  cases parts with
  | nil =>
    refine Pairs.grant (Fragment.pairs_literal hK (.boolean false) .boolean) ?_
    intro d e f d' g e' _ _ hg v hv hinline
    cases hg
    cases hv
    cases hinline
  | cons part parts =>
    rw [List.forall_mem_cons] at h
    exact .bind (pairs_test hK hnatives hclosed h.1) fun t t' p₁ q₁ _ _ ht =>
      pairs_anyOf hK hnatives hclosed span h.2 ht

theorem pairs_tests (negated : Bool) {parts : List TestPart}
    (h : ∀ part ∈ parts, TestFolds rt K S part) (span : Span) :
    Pairs (Draft.Linked K) p q (tests negated parts span (S.lowering test false))
      (tests negated parts span (S.lowering test true)) (Granted K) (Tracked rt) := by
  refine .bind (pairs_disjunction hK hnatives hclosed span h) fun f g p₁ q₁ _ _ hfg => ?_
  cases negated with
  | false => exact .pure fun _ _ hp hq _ => hfg.extend hp hq
  | true =>
    have hoff : f.value? (S.lowering test false).options = none := rfl
    simp only [Bool.not_true, Bool.false_eq_true, if_false]
    rw [hoff]
    cases hv : g.value? (S.lowering test true).options with
    | some v =>
      have hsettles := (hfg.known v (Fragment.constant_of_value? hv)).map Code.isMap_not
      exact Fragment.pairs_constant hK hsettles
    | none =>
      refine .pure fun _ _ hp hq _ => Tracks.extend (.computed ?_) hp hq
      exact hfg.runs.map Code.isMap_not

end Subject

end Forms

end Lower

end Feel
