import Feel.Proofs.LoweringTypes

/-!
# The types of the forms of expressions

From sound parts every form of an expression is lowered to a sound fragment, at the type that the
form is written with. Entries and iterations are sound in the scopes that those before them lead
to.

* `Lower.Sound`: a part is lowered to sound fragments.
* `Lower.EntriesSound`, `Lower.PartsSound`: entries and iterations.
* `Lower.Sound.list` and the laws beside it: one for each form.
-/

namespace Feel

/-- The options and the libraries are those that programs are compiled with where nothing else
is asked for. -/
structure Scope.Standard (S : Scope) : Prop where
  options : S.options = {}
  libraries : S.libraries = [.builtins]

namespace Lower

/-- A part is lowered to fragments that are sound at a type, in frames that suit a scope. -/
def Sound (S : Scope) (T : Ty) (l : Lower) : Prop :=
  ∀ (L : Scope) (pool : List Value), L.Standard →
    Lowering.Ensures pool (l L) fun f pool' => f.Sound pool' (Frame.Suits S (subjectType L)) T

variable {S : Scope} {T U V : Ty}

/-! ### Several parts -/

/-- Fragments that are sound at types, pairwise. -/
abbrev AllSound (pool : List Value) (Q : Frame → Prop) (fs : List Fragment) (Ts : List Ty) :
    Prop :=
  List.Forall₂ (fun f T => Fragment.Sound pool Q T f) fs Ts

theorem AllSound.extend {pool pool' : List Value} {Q : Frame → Prop} {fs : List Fragment}
    {Ts : List Ty} (h : AllSound pool Q fs Ts) (hpool : pool <+: pool') :
    AllSound pool' Q fs Ts :=
  h.imp fun _ _ hf => hf.extend hpool

/-- What runs of sound fragments give meets their types. -/
theorem AllSound.runs {pool : List Value} {Q : Frame → Prop} {fs : List Fragment} {Ts : List Ty}
    (h : AllSound pool Q fs Ts) :
    ∃ Ps : List (Value → Prop),
      List.Forall₂ (fun c P => Code.Gives pool Q c P) (fs.map (·.code)) Ps ∧
      ∀ vs, List.Forall₂ (fun v P => P v) vs Ps → MeetsAll vs (fs.map (·.type)) Ts := by
  induction h with
  | nil =>
    refine ⟨[], .nil, fun vs hvs => ?_⟩
    cases hvs
    exact .nil
  | @cons f T fs Ts hf _ ih =>
    obtain ⟨Ps, hPs, hmeets⟩ := ih
    refine ⟨(fun v => Meets v f.type T) :: Ps, .cons hf.runs hPs, fun vs hvs => ?_⟩
    cases hvs with
    | cons hv hvs => exact .cons hv (hmeets _ hvs)

/-- The values of sound fragments, where they are all known, meet their types. -/
theorem AllSound.known {pool : List Value} {Q : Frame → Prop} {fs : List Fragment} {Ts : List Ty}
    (h : AllSound pool Q fs Ts) {vs : List Value} (hvs : Fragment.values? {} fs = some vs) :
    MeetsAll vs (fs.map (·.type)) Ts := by
  change fs.mapM (·.constant) = some vs at hvs
  induction h generalizing vs with
  | nil =>
    cases hvs
    exact .nil
  | cons hf _ ih =>
    simp only [List.mapM_cons, Option.bind_eq_bind, Option.bind_eq_some_iff] at hvs
    obtain ⟨v, hv, ws, hws, heq⟩ := hvs
    cases heq
    exact .cons (hf.known v hv) (ih hws)

theorem ensures_all {ls : List Lower} {Ts : List Ty}
    (h : List.Forall₂ (fun l T => Sound S T l) ls Ts) {L : Scope} (hL : L.Standard) (pool : List Value) :
    Lowering.Ensures pool (all L ls) fun fs pool' =>
      AllSound pool' (Frame.Suits S (subjectType L)) fs Ts := by
  induction h generalizing pool with
  | nil => exact .pure fun _ _ => .nil
  | cons hl _ ih =>
    refine (hl L pool hL).bind fun f pool' _ hf => (ih pool').bind fun fs pool'' hpool hfs => ?_
    exact .pure fun pool''' hmore => .cons (hf.extend (hpool.trans hmore)) (hfs.extend hmore)

/-! ### Structures -/

/-- Values that fit types make a list that fits the join of the types. -/
theorem fits_list {vs : List Value} {fs Ts : List Ty} (h : MeetsAll vs fs Ts) :
    Fits (.list vs) (.list (Ty.joinAll Ts)) := by
  refine .list fun v hv => ?_
  obtain ⟨t, ht, hfits⟩ : ∃ t ∈ Ts, Fits v t := by
    induction h with
    | nil => simp at hv
    | cons h _ ih =>
      rcases List.mem_cons.mp hv with rfl | hv
      · exact ⟨_, List.mem_cons_self, h.written⟩
      · obtain ⟨t, ht, hfits⟩ := ih hv
        exact ⟨t, List.mem_cons_of_mem _ ht, hfits⟩
  exact hfits.joinAll ht

theorem Sound.list {items : List Lower} {Ts : List Ty}
    (h : List.Forall₂ (fun l T => Sound S T l) items Ts) :
    Sound S (.list (Ty.joinAll Ts)) (.list items (.list (Ty.joinAll Ts))) := by
  intro L pool hL
  refine (ensures_all h hL pool).bind fun fs pool' _ hfs => ?_
  rw [hL.options]
  split
  · next vs hvs => exact Fragment.ensures_ofConstant (.of_fits (fits_list (hfs.known hvs)))
  · obtain ⟨Ps, hPs, hmeets⟩ := hfs.runs
    refine .pure fun pool'' hpool => .nonNull (.computed_of_fits (Code.Gives.extend ?_ hpool))
    exact .list hPs fun vs hvs => fits_list (hmeets vs hvs)

/-- Entries and their types, each in the scope that those before it lead to. -/
inductive EntriesSound : Scope → List (String × Lower) → List (String × Ty) → Prop
  | nil (S : Scope) : EntriesSound S [] []
  | cons {S : Scope} {name : String} {l : Lower} {T : Ty} {es : List (String × Lower)}
      {fields : List (String × Ty)} (h : Sound S T l)
      (hs : EntriesSound (S.declare name T) es fields) :
      EntriesSound S ((name, l) :: es) ((name, T) :: fields)

/-- The fragments of entries: what is known of their values, and their code. -/
theorem EntriesSound.ensures {es : List (String × Lower)} {fields : List (String × Ty)}
    (h : EntriesSound S es fields) {L : Scope} (hL : L.Standard) (pool : List Value) :
    Lowering.Ensures pool (all L (es.map (·.2))) fun fs pool' =>
      (∀ vs, Fragment.values? {} fs = some vs →
        ∀ name v, (name, v) ∈ (es.map (·.1)).zip vs → ∃ t, (name, t) ∈ fields ∧ Fits v t) ∧
      Code.EntriesGive pool' (Frame.Suits S (subjectType L))
        ((es.map (·.1)).zip (fs.map (·.code))) fields := by
  induction h generalizing pool with
  | nil => exact .pure fun _ _ => ⟨fun vs _ name v hmem => by simp at hmem, .nil _⟩
  | @cons S name l T es fields hl _ ih =>
    refine (hl L pool hL).bind fun f pool' _ hf => (ih pool').bind fun fs pool'' hpool hfs => ?_
    refine .pure fun pool''' hmore => ⟨fun vs hvs other v hmem => ?_, ?_⟩
    · change (f :: fs).mapM (·.constant) = some vs at hvs
      simp only [List.mapM_cons, Option.bind_eq_bind, Option.bind_eq_some_iff] at hvs
      obtain ⟨w, hw, ws, hws, heq⟩ := hvs
      cases heq
      rcases List.mem_cons.mp hmem with heq | hmem
      · cases heq
        exact ⟨T, List.mem_cons_self, (hf.known v hw).written⟩
      · obtain ⟨t, ht, hfits⟩ := hfs.1 ws hws other v hmem
        exact ⟨t, List.mem_cons_of_mem _ ht, hfits⟩
    · have hgive := (hf.extend (hpool.trans hmore)).runs.imp fun v hv => hv.written
      exact .cons hgive (fun frame v hQ hv => hQ.declare name hv) (hfs.2.extend hmore)

/-- An entry of a context that is made of a list is in the list. -/
theorem mem_of_lookup_ofList {entries : List (String × Value)} {name : String} {v : Value}
    (h : (Entries.ofList entries).lookup name = some v) : (name, v) ∈ entries := by
  have hfold : ∀ acc : List (String × Value),
      (entries.foldl (fun acc (name, value) => Entries.insert acc name value) acc).lookup name =
        some v → (name, v) ∈ entries ∨ acc.lookup name = some v := by
    clear h
    induction entries with
    | nil => exact fun acc h => .inr h
    | cons e entries ih =>
      intro acc h
      rcases ih _ h with hmem | hacc
      · exact .inl (List.mem_cons_of_mem _ hmem)
      · by_cases hname : name = e.1
        · rw [hname, Entries.lookup_insert_self, Option.some.injEq] at hacc
          refine .inl (List.mem_cons.mpr (.inl ?_))
          rw [hname, ← hacc]
        · rw [Entries.lookup_insert_of_ne hname] at hacc
          exact .inr hacc
  rcases hfold [] h with hmem | hnone
  · exact hmem
  · simp at hnone

theorem Sound.context {es : List (String × Lower)} {fields : List (String × Ty)}
    (h : EntriesSound (S.push false) es fields) (hnames : Code.OneTyped fields) :
    Sound S (.context fields) (.context es (.context fields)) := by
  intro L pool hL
  refine (h.ensures hL pool).bind fun fs pool' _ hfs => ?_
  rw [hL.options]
  split
  · next vs hvs =>
    refine Fragment.ensures_ofConstant (.of_fits (Code.fits_context hnames fun name v hv => ?_))
    exact hfs.1 vs hvs name v (mem_of_lookup_ofList hv)
  · refine .pure fun pool'' hpool => .nonNull (.computed_of_fits (Code.Gives.extend ?_ hpool))
    intro m hm hp site frame v hQ hv
    exact Code.Gives.context hfs.2 hnames m hm hp site frame v (hQ.push false) hv

theorem Sound.range {start finish : Lower} (hs : Sound S T start) (hf : Sound S U finish)
    (si ei : Bool) :
    Sound S (.range (T.join U) (some si) (some ei))
      (.range start finish si ei (.range (T.join U) (some si) (some ei))) := by
  intro L pool hL
  have hfits : ∀ {f g : Ty} x y, Meets x f T → Meets y g U →
      Fits (.range (some x) (some y) si ei) (.range (T.join U) (some si) (some ei)) := by
    intro f g x y hx hy
    refine .range (fun v hv => ?_) fun v hv => ?_
    · cases hv
      exact hx.written.join_left U
    · cases hv
      exact hy.written.join_right T
  refine (hs L pool hL).bind fun s pool' _ hs => (hf L pool' hL).bind fun e pool'' hpool he => ?_
  rw [hL.options]
  split
  · next a b hab =>
    obtain ⟨ha, hb⟩ := Fragment.constants_of_operands? hab
    exact Fragment.ensures_ofConstant (.of_fits (hfits a b (hs.known a ha) (he.known b hb)))
  · refine .pure fun pool''' hmore => .nonNull (.computed_of_fits (Code.Gives.extend ?_ hmore))
    exact .range (hs.extend hpool).runs he.runs hfits

/-! ### Operators -/

theorem Sound.binary {left right : Lower} (hl : Sound S T left) (hr : Sound S U right)
    (op : Operator) (span : Span) :
    Sound S (op.resultType T U) (.binary op left right span) := by
  intro L pool hL
  refine (hl L pool hL).bind fun l pool' _ hl => (hr L pool' hL).bind fun r pool'' hpool hr => ?_
  rw [hL.options]
  exact Fragment.ensures_binary span (hl.extend hpool) hr

theorem Sound.negation {operand : Lower} (h : Sound S T operand) :
    Sound S (Elaboration.negationType T) (.negation operand (Elaboration.negationType T)) := by
  intro L pool hL
  refine (h L pool hL).bind fun f pool' _ hf => ?_
  rw [hL.options]
  split
  · next v hv =>
    exact Fragment.ensures_ofConstant (.of_fits (Fits.negate (hf.known v hv).written))
  · refine .pure fun _ hpool => .withNullable (.computed_of_fits (Code.Gives.extend ?_ hpool)) _
    exact .negate hf.runs fun v hv => Fits.negate hv.written

theorem Sound.between {value low high : Lower} (hv : Sound S T value) (hl : Sound S U low)
    (hh : Sound S V high) : Sound S .boolean (.between value low high) := by
  intro L pool hL
  refine (hv L pool hL).bind fun _ pool' _ _ => (hl L pool' hL).bind fun _ pool'' _ _ =>
    (hh L pool'' hL).bind fun _ _ _ _ => .pure fun _ _ => ?_
  exact .computed_of_fits (.between Fits.and)

theorem Sound.isIn {value tests : Lower} (hv : Sound S T value)
    (ht : Sound (S.withTest T) .boolean tests) : Sound S .boolean (.isIn value tests) := by
  intro L pool hL
  refine (hv L pool hL).bind fun f pool' _ hf => ?_
  have hinner : (L.withTest f.type).Standard := ⟨hL.options, hL.libraries⟩
  refine (ht _ pool' hinner).bind fun g pool'' hpool hg => .pure fun pool''' hmore => ?_
  refine .computed_of_fits (.withTestInput (hf.extend (hpool.trans hmore)).runs
    ((hg.extend hmore).runs.imp fun v hv => hv.written) fun frame v hQ hv => ?_)
  exact hQ.withTest hv

theorem Sound.instanceOf {value : Lower} (hv : Sound S T value) (target : Ty) :
    Sound S .boolean (.instanceOf value target) := by
  intro L pool hL
  refine (hv L pool hL).bind fun f pool' _ hf => ?_
  split
  · exact Fragment.ensures_ofConstant (.of_fits (.boolean _))
  · exact .pure fun _ _ => .nonNull (.computed_of_fits (.instanceOf fun b => .boolean b))

/-! ### Control -/

theorem Sound.ite {condition yes no : Lower} (hc : Sound S V condition) (hy : Sound S T yes)
    (hn : Sound S U no) : Sound S (T.join U) (.ite condition yes no (T.join U)) := by
  intro L pool hL
  refine (hc L pool hL).bind fun _ pool' _ _ => (hy L pool' hL).bind fun y pool'' _ hy =>
    (hn L pool'' hL).bind fun n pool''' hpool hn => ?_
  have hy : Fragment.Sound pool''' _ (T.join U) { y with type := T.join U } :=
    (hy.extend hpool).withType fun v hv => hv.join_left U
  have hn : Fragment.Sound pool''' _ (T.join U) { n with type := T.join U } :=
    hn.withType fun v hv => hv.join_right T
  split
  · next v hv =>
    refine .pure fun _ hmore => ?_
    split
    · exact hy.extend hmore
    · exact hn.extend hmore
  · refine .pure fun _ hmore => .withNullable (.computed (Code.Gives.extend ?_ hmore)) _
    exact .ite hy.runs hn.runs

/-- An iteration: its domain has a type, and its bounds, where they are written, join to the type
of the elements. -/
structure PartSound (S : Scope) (T : Ty) (part : DomainPart) : Prop where
  element : part.element = T.elementType
  whole : Sound S T part.whole
  bounds : ∀ b, part.bounds = some b → ∃ A B, Sound S A b.start ∧ Sound S B b.finish ∧
    T.elementType = A.join B

/-- Iterations, each in the scope that those before it lead to, and the scope of the body. -/
inductive PartsSound : Scope → List DomainPart → Scope → Prop
  | nil (S : Scope) : PartsSound S [] S
  | cons {S S' : Scope} {T : Ty} {part : DomainPart} {parts : List DomainPart}
      (h : PartSound S T part)
      (hs : PartsSound (S.declare part.name T.elementType) parts S') :
      PartsSound S (part :: parts) S'

/-- The value next to the one in a cursor fits the type that can be stepped through. -/
theorem stepCode_gives (pool : List Value) (cursor : String) (offset : Int)
    (h : hasSteps T = true) :
    (stepCode T cursor offset).Gives pool (fun frame => Fits (frame.lookup cursor) T)
      fun v => Fits v T := by
  have hcursor : (Code.local cursor).Gives pool (fun frame => Fits (frame.lookup cursor) T)
      fun v => Fits v T := .local fun frame hframe => hframe
  have hall : ∀ c : Code, c.Gives pool (fun frame => Fits (frame.lookup cursor) T)
      fun _ => True := fun c => .trivial fun _ => .intro
  unfold stepCode
  split
  · next k =>
    exact .arith hcursor (hall _) (fun x y _ _ => Fits.arith .add x y _ _ k) fun _ => .null _
  · next hnot =>
    have hdate : T = .date := by
      cases T <;> simp [hasSteps, Ty.isNumber] at h hnot ⊢
    subst hdate
    have hoffset : (Code.const (.dayTimeDuration (offset * dayNanos))).Gives pool
        (fun frame => Fits (frame.lookup cursor) .date) fun v => Fits v .dayTimeDuration :=
      .const (.dayTimeDuration _)
    exact .temporal hcursor hoffset fun x y hx hy => Fits.temporal hx hy rfl

theorem PartSound.ensures {part : DomainPart} (h : PartSound S T part) {L : Scope}
    (hL : L.Standard) (pool : List Value) :
    Lowering.Ensures pool (domain part L) fun d pool' =>
      Code.DomainGives pool' (Frame.Suits S (subjectType L)) d T.elementType := by
  have hvalues : ∀ pool, Lowering.Ensures pool
      (do return Domain.values (← part.whole L).code) fun d pool' =>
        Code.DomainGives pool' (Frame.Suits S (subjectType L)) d T.elementType := by
    intro pool
    refine (h.whole L pool hL).bind fun f pool' _ hf => .pure fun _ hpool => ?_
    exact .values ((hf.extend hpool).runs.imp fun v hv => hv.written)
  unfold domain
  extract_lets values
  split
  · exact hvalues pool
  · next b hb =>
    obtain ⟨A, B, hstart, hfinish, hjoin⟩ := h.bounds b hb
    refine (hstart L pool hL).bind fun s pool' _ hs => (hfinish L pool' hL).bind
      fun e pool'' hpool _ => ?_
    split
    · next hsteps =>
      rw [Bool.and_eq_true, h.element] at hsteps
      rw [h.element]
      refine Lowering.Ensures.bind (.fresh (P := fun _ _ => True) fun _ _ _ => .intro)
        fun cursor pool₃ hmore _ => .pure fun pool₄ hlast => ?_
      refine .steps ?_ (stepCode_gives _ _ _ hsteps.2) (stepCode_gives _ _ _ hsteps.2)
      refine (hs.extend (hpool.trans (hmore.trans hlast))).runs.imp fun v hv => ?_
      rw [hjoin]
      exact hv.written.join_left B
    · exact hvalues pool''

theorem PartsSound.ensures {S' : Scope} {parts : List DomainPart} (h : PartsSound S parts S')
    {L : Scope} (hL : L.Standard) (pool : List Value) :
    Lowering.Ensures pool (bindings L parts) fun bs pool' =>
      Code.BindingsGive pool' (Frame.Suits S (subjectType L)) bs
        (Frame.Suits S' (subjectType L)) := by
  induction h generalizing pool with
  | nil S => exact .pure fun _ _ => .nil _
  | @cons S S' T part parts h _ ih =>
    refine (h.ensures hL pool).bind fun d pool' _ hd => (ih pool').bind fun bs pool'' hpool hbs =>
      .pure fun _ hmore => ?_
    exact .cons (hd.extend (hpool.trans hmore)) (fun frame v hQ hv => hQ.declare part.name hv)
      (hbs.extend hmore)

theorem Sound.forIn {S' : Scope} {parts : List DomainPart} {body : Lower}
    (h : PartsSound (S.push false) parts S') (hbody : Sound S' T body) :
    Sound S (.list T) (.forIn parts body (.list T)) := by
  intro L pool hL
  refine (h.ensures hL pool).bind fun bs pool' _ hbs => (hbody L pool' hL).bind
    fun f pool'' hpool hf => .pure fun _ hmore => ?_
  have hgives := Code.Gives.forIn (hbs.extend (hpool.trans hmore))
    ((hf.extend hmore).runs.imp fun v hv => hv.written)
  refine .nonNull (.computed_of_fits fun m hm hp site frame v hQ hv => ?_)
  exact hgives m hm hp site frame v (hQ.push false) hv

theorem Sound.quantified {S' : Scope} {parts : List DomainPart} {condition : Lower}
    (h : PartsSound (S.push false) parts S') (hcondition : Sound S' T condition)
    (every : Bool) : Sound S .boolean (.quantified every parts condition) := by
  intro L pool hL
  refine (h.ensures hL pool).bind fun bs pool' _ _ => (hcondition L pool' hL).bind
    fun f pool'' _ _ => .pure fun _ _ => ?_
  exact .computed_of_fits (.quantified fun b => .boolean b)

/-- Whether a type is that of ranges, which filters do not run through. -/
def isRange : Ty → Bool
  | .range _ _ _ => true
  | _ => false

/-- The elements that a filter runs over fit the type of elements. -/
theorem fits_filterItem {v : Value} (h : Fits v T) (hT : isRange T = false) {x : Value}
    (hx : x ∈ Filter.items v) : Fits x T.elementType := by
  cases h with
  | null t =>
    rw [List.mem_singleton.mp hx]
    exact .null _
  | any v => exact .any x
  | list hitems => exact hitems x hx
  | range => simp [isRange] at hT
  | context hfields =>
    rw [List.mem_singleton.mp hx]
    exact .context hfields
  | _ =>
    rw [List.mem_singleton.mp hx]
    constructor

theorem Sound.filter {S' : Scope} {source filter : Lower} (hs : Sound S T source)
    (hf : Sound S' U filter) (hT : isRange T = false) :
    Sound S (Elaboration.filterKind T.elementType U).2
      (.filter source filter (Elaboration.filterKind T.elementType U).1
        (Elaboration.filterKind T.elementType U).2) := by
  intro L pool hL
  refine (hs L pool hL).bind fun f pool' _ hf' => (hf L pool' hL).bind
    fun _ pool'' hpool _ => .pure fun _ hmore => ?_
  have hsource := (hf'.extend (hpool.trans hmore)).runs
  refine .computed_of_fits (.filter hsource (fun v hv x hx => fits_filterItem hv.written hT hx)
    (.null _) (fun hkind x hx => ?_) fun hkind items hitems => ?_)
  · unfold Elaboration.filterKind at hkind ⊢
    split
    · exact hx
    · exact .any x
    · next h₁ h₂ => cases U <;> simp_all
  · unfold Elaboration.filterKind at hkind ⊢
    split
    · simp at hkind
    · exact .any _
    · exact .list hitems

theorem Sound.path {source : Lower} (hs : Sound S T source) {member : String}
    (hmember : T.member? member = some U) (span : Span) :
    Sound S U (.path source member span) := by
  intro L pool hL
  refine (hs L pool hL).bind fun f pool' _ hf => ?_
  split
  · next t ht =>
    refine .pure fun _ hpool => .computed (.member (hf.extend hpool).runs fun v hv => ?_)
    exact ⟨hv.lowered.member ht, hv.written.member hmember, hv.agree.member ht hmember⟩
  · exact .throw

/-! ### Functions and names -/

theorem Sound.function {S' : Scope} {body : Lower} (hbody : Sound S' T body)
    (params : List (String × Ty)) :
    Sound S (.named params T) (.function params body (.named params T)) := by
  intro L pool hL
  refine (hbody L pool hL).bind fun f pool' _ _ => .pure fun _ _ => ?_
  exact .nonNull (.computed_of_fits (.function fun g => .function g _ _ _))

/-- A call of a function value, of whose result nothing is known. -/
theorem Sound.valueCall {callee : Lower} {args : List Lower} {Ts : List Ty}
    (hcallee : Sound S T callee) (hargs : List.Forall₂ (fun l T => Sound S T l) args Ts)
    (names : Option (List String)) (span : Span) :
    Sound S .any (.invocation (.value callee) args names .any span) := by
  intro L pool hL
  refine (ensures_all hargs hL pool).bind fun fs pool' _ _ => (hcallee L pool' hL).bind
    fun f pool'' _ _ => .pure fun _ _ => ?_
  exact .computed_of_fits (.trivial fun v => .any v)

/-- A built-in function as a value fits its type. -/
theorem fits_functionValue {name : String} {f : FunctionValue}
    (h : Libraries.value? [.builtins] name = some f) : Fits (.function f) f.type := by
  rw [Libraries.value?, List.findSome?_singleton] at h
  obtain ⟨b, -, rfl⟩ := Option.map_eq_some_iff.mp h
  have htype : ∃ ps ns r, (b.functionValue).type = .function ps ns r := by
    cases b <;> exact ⟨_, _, _, rfl⟩
  obtain ⟨ps, ns, r, htype⟩ := htype
  rw [htype]
  exact .function _ ps ns r

theorem Sound.name (name : String) {ref : Reference} (href : S.resolve? name = some ref)
    (hS : S.Standard) (span : Span) :
    Sound S ref.type (.name name ref.origin ref.type span) := by
  intro L pool hL
  unfold Scope.resolve? at href
  split at href
  · next t ht =>
    cases href
    exact .pure fun _ _ => .computed_of_fits (.local fun frame hQ => hQ.locals name t ht)
  split at href
  · cases href
    exact .pure fun _ _ => .computed_of_fits (.trivial fun v => .any v)
  split at href
  · next t ht =>
    cases href
    exact .pure fun _ _ => .computed_of_fits (.inputField fun frame hQ => hQ.inputs name t ht)
  split at href
  · next f hf =>
    cases href
    rw [hS.libraries] at hf
    have hfits := fits_functionValue hf
    unfold Lower.name
    rw [hL.libraries, hf]
    refine Lowering.Ensures.bind (P := fun i pool' => (Code.constRef i).Gives pool' _
      fun v => Fits v f.type) (.intern fun i pool' w _ hw hsame => .constRef hw ?_)
      fun i pool' _ hi => .pure fun _ hpool => .nonNull (.computed_of_fits (hi.extend hpool))
    rcases hsame with rfl | hsame
    · exact hfits
    · exact hfits.of_same hsame
  split at href
  · cases href
    exact .pure fun _ _ => .computed_of_fits (.trivial fun v => .any v)
  · cases href

theorem Sound.testInput (hT : S.testType = some T) :
    Sound S T (fun _ => return Fragment.computed .testInput T) := by
  intro L pool hL
  refine .pure fun _ _ => .computed_of_fits (.testInput fun frame hQ => ?_)
  have htested := hQ.tested.written
  rw [hT] at htested
  exact htested

/-! ### Unary tests -/

/-- The value under test, as a fragment. -/
theorem sound_subject (S L : Scope) (pool : List Value) :
    Fragment.Sound pool (Frame.Suits S (subjectType L)) (subjectType S)
      (.computed .testInput (subjectType L)) :=
  .computed (.testInput fun _ hQ => hQ.tested)

/-- Operators that give a boolean, or null, whatever their operands are. -/
def isTesting (op : Operator) : Bool := op.isEquality || op.isLogic || op.isOrdering

/-- A fragment of a testing operator is a boolean as it is written. -/
theorem sound_boolean_of_testing {pool : List Value} {Q : Frame → Prop} {op : Operator}
    (hop : isTesting op = true) {f : Fragment} (h : f.Sound pool Q (op.resultType T U)) :
    f.Sound pool Q .boolean := by
  have hcases : op.resultType T U = .boolean ∨ op.resultType T U = .null := by
    unfold Operator.resultType
    unfold isTesting at hop
    split
    · exact .inl rfl
    · split
      · split <;> simp
      · simp_all
  rcases hcases with heq | heq
  · rw [heq] at h
    exact h
  · rw [heq] at h
    refine h.imp fun v hv => ?_
    rw [hv.written.eq_null]
    exact .null _ _

theorem Sound.comparison {value : Lower} (hv : Sound S U value)
    {op : Operator} (hop : isTesting op = true) (span : Span) :
    Sound S .boolean (.comparison op value span) := by
  intro L pool hL
  refine (hv L pool hL).bind fun f pool' _ hf => ?_
  rw [hL.options]
  refine (Fragment.ensures_binary span (sound_subject S L _) hf).imp fun g pool'' _ hg => ?_
  exact sound_boolean_of_testing hop hg

theorem fits_matchTest (test input : Value) : Fits (Action.matchTest test input) .boolean := by
  unfold Action.matchTest
  split
  · exact .boolean _
  · exact .ofBool? _
  · exact .boolean _
  · exact .boolean _
  · exact .boolean _

theorem fits_listContains (list v : Value) : Fits (Action.listContains list v) .boolean := by
  unfold Action.listContains
  split
  · exact .boolean _
  · exact .null _

theorem fits_rangeContains (range v : Value) : Fits (Action.rangeContains range v) .boolean := by
  unfold Action.rangeContains
  split
  · exact .ofBool? _
  · exact .null _

/-- A value that serves as a test gives a boolean. -/
theorem ensures_matching {L : Scope} {pool : List Value}
    {value : Fragment} (hv : value.Sound pool (Frame.Suits S (subjectType L)) U) (span : Span) :
    Lowering.Ensures pool (matching {} span (subjectType L) value) fun f pool' =>
      f.Sound pool' (Frame.Suits S (subjectType L)) .boolean := by
  have hequal : Lowering.Ensures pool (Fragment.binary {} span .eq
      (.computed .testInput (subjectType L)) value) fun f pool' =>
        f.Sound pool' (Frame.Suits S (subjectType L)) .boolean :=
    Fragment.ensures_binary span (sound_subject S L _) hv
  unfold matching
  extract_lets whole equal
  have hwhole : ∀ c : Code,
      c.Gives pool (Frame.Suits S (subjectType L)) (fun v => Fits v .boolean) →
      Lowering.Ensures pool (whole c) fun f pool' =>
        f.Sound pool' (Frame.Suits S (subjectType L)) .boolean :=
    fun c hc => .pure fun _ hpool => .computed_of_fits (hc.extend hpool)
  split
  · split
    · exact hequal
    · exact hwhole _ (.listContains fits_listContains)
  · exact hwhole _ (.rangeContains fits_rangeContains)
  · next htype =>
    split
    · exact hwhole _ (.unaryMatch fits_matchTest)
    · split
      · exact hequal
      · -- a condition is lowered to a boolean, whatever it is written as
        refine .pure fun _ hpool => ((hv.extend hpool).imp fun v hv => ?_)
        rw [htype] at hv ⊢
        exact .of_fits hv.lowered
  · exact hwhole _ (.unaryMatch fits_matchTest)
  · exact hequal

/-- A test whose value is sound; one that speaks of the value under test by itself is written as
a boolean or as null, where it is asked to. -/
def TestSound (S : Scope) (strict : Bool) (part : TestPart) : Prop :=
  ∃ U, Sound S U part.lower ∧
    (strict = true → part.isComplete = true → U = .boolean ∨ U = .null)

theorem ensures_test {L : Scope} (hL : L.Standard) (pool : List Value)
    {strict : Bool} {part : TestPart} (h : TestSound S strict part) :
    Lowering.Ensures pool (test L part) fun f pool' =>
      ∃ U, f.Sound pool' (Frame.Suits S (subjectType L)) U ∧
        (strict = true → U = .boolean) := by
  obtain ⟨U, hU, hcomplete⟩ := h
  refine (hU L pool hL).bind fun f pool' _ hf => ?_
  rw [hL.options]
  split
  · next hpart =>
    refine .pure fun _ hpool => ?_
    cases strict with
    | false => exact ⟨U, hf.extend hpool, fun h => by simp at h⟩
    | true =>
      refine ⟨.boolean, ?_, fun _ => rfl⟩
      rcases hcomplete rfl hpart with rfl | rfl
      · exact hf.extend hpool
      · refine (hf.extend hpool).imp fun v hv => ?_
        rw [hv.written.eq_null]
        exact .null _ _
  · exact (ensures_matching hf part.span).imp fun g pool'' _ hg => ⟨.boolean, hg, fun _ => rfl⟩

/-- A disjunction of several tests gives a boolean. -/
theorem ensures_anyOf {L : Scope} (hL : L.Standard) (span : Span)
    {parts : List TestPart} (h : ∀ part ∈ parts, TestSound S false part) (pool : List Value)
    {first : Fragment} (hfirst : first.Sound pool (Frame.Suits S (subjectType L)) U)
    (hU : parts = [] → U = .boolean) :
    Lowering.Ensures pool (anyOf L span first parts) fun f pool' =>
      f.Sound pool' (Frame.Suits S (subjectType L)) .boolean := by
  induction parts generalizing pool first U with
  | nil =>
    rw [hU rfl] at hfirst
    exact .pure fun _ hpool => hfirst.extend hpool
  | cons part parts ih =>
    refine (ensures_test hL pool (h part List.mem_cons_self)).bind fun next pool' hpool hnext => ?_
    obtain ⟨V, hnext, -⟩ := hnext
    rw [hL.options]
    refine (Fragment.ensures_binary span (hfirst.extend hpool) hnext).bind
      fun both pool'' _ hboth => ?_
    exact ih (fun p hp => h p (List.mem_cons_of_mem _ hp)) pool'' hboth fun _ => rfl

/-- Less is asked of tests that are not alone. -/
theorem TestSound.loose {strict : Bool} {part : TestPart} (h : TestSound S strict part) :
    TestSound S false part := by
  obtain ⟨U, hU, -⟩ := h
  exact ⟨U, hU, fun h => by simp at h⟩

theorem ensures_disjunction {L : Scope} (hL : L.Standard) (span : Span)
    {strict : Bool} {parts : List TestPart}
    (h : ∀ part ∈ parts, TestSound S (strict && parts.length == 1) part) (pool : List Value) :
    Lowering.Ensures pool (disjunction L span parts) fun f pool' =>
      ∃ U, f.Sound pool' (Frame.Suits S (subjectType L)) U ∧ (strict = true → U = .boolean) := by
  cases parts with
  | nil =>
    have hfalse : Lowering.Ensures pool (Fragment.ofConstant (.boolean false) .boolean)
        fun f pool' => f.Sound pool' (Frame.Suits S (subjectType L)) .boolean :=
      Fragment.ensures_ofConstant (.of_fits (.boolean false))
    exact hfalse.imp fun f _ _ hf => ⟨.boolean, hf, fun _ => rfl⟩
  | cons part parts =>
    refine (ensures_test hL pool (h part List.mem_cons_self)).bind fun f pool' _ hf => ?_
    obtain ⟨U, hf, hU⟩ := hf
    cases parts with
    | nil =>
      refine .pure fun _ hpool => ⟨U, hf.extend hpool, fun hstrict => hU ?_⟩
      rw [hstrict]
      rfl
    | cons next parts =>
      have hrest : ∀ p ∈ next :: parts, TestSound S false p :=
        fun p hp => (h p (List.mem_cons_of_mem _ hp)).loose
      refine (ensures_anyOf hL span hrest pool' hf fun h => by simp at h).imp fun g _ _ hg => ?_
      exact ⟨.boolean, hg, fun _ => rfl⟩

/-- Unary tests give a boolean: a lone test that is not negated has to be one. -/
theorem Sound.tests {negated : Bool} {parts : List TestPart}
    (h : ∀ part ∈ parts, TestSound S (!negated && parts.length == 1) part) (span : Span) :
    Sound S .boolean (.tests negated parts span) := by
  intro L pool hL
  refine (ensures_disjunction hL span h pool).bind fun f pool' _ hf => ?_
  obtain ⟨U, hf, hU⟩ := hf
  split
  · next hnegated =>
    rw [hU hnegated] at hf
    exact .pure fun _ hpool => hf.extend hpool
  · split
    · exact Fragment.ensures_ofConstant (Fragment.meets_own (.of_fits (Fits.not _)))
    · exact .pure fun _ _ => .computed_of_fits (.not Fits.not)

end Lower

end Feel
