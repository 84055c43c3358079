import Feel.Proofs.CallTypes
import Feel.Proofs.Programs

/-!
# Static types are sound

A term is elaborated in a scope and lowered to a fragment. Over frames that suit the scope, the
values of the fragment fit the type of the term, and the type of the program. A few forms say more
than they keep, and a term that is free of them is regular.

* `Term.regular`: the terms without those forms.
* `Term.Sound`: a term is lowered to sound fragments, and its bounds are.
* `Elaboration.Sound`: a part becomes a sound term, if it becomes a regular one.
* `Program.run_fits`: what the program of an expression gives fits the type of the program.
-/

namespace Feel

/-! ### Regular terms -/

namespace Term

/-- Whether a node keeps what its type says. Left out are contexts with entries of one name and two
types, filters over ranges, calls of function values with a known result, absolute values of what
may be anything, lone tests that speak of the value under test and are no conditions, and
comparisons by an operator that does not compare. -/
def ownRegular (t : Term) : Bool :=
  match t.shape with
  | .context entries =>
    entries.all fun e => entries.all fun e' => e.1 != e'.1 || e.2.type == e'.2.type
  | .filter source _ _ => !Lower.isRange source.type
  | .invocation (.value _) _ _ => t.type.isAny
  | .invocation (.named name _) args _ =>
    !(Builtin.ofName? name == some .abs && args.head?.map (·.type) == some .any)
  | .tests false [test] =>
    !test.isCompleteTest || test.type == .boolean || test.type == .null
  | .comparison op _ => Lower.isTesting op
  | _ => true

/-- Whether all nodes of a term keep what their types say. -/
def regular (t : Term) : Bool := t.fold fun t parts => t.ownRegular && parts.all id

@[simp] theorem regular_withComments (t : Term) (more : List String) :
    (t.withComments more).regular = t.regular := by
  cases t
  rfl

@[simp] theorem regular_withWarning (t : Term) (more : Option String) :
    (t.withWarning more).regular = t.regular := by
  cases t
  rfl

@[simp] theorem type_withComments (t : Term) (more : List String) :
    (t.withComments more).type = t.type := by
  cases t
  rfl

@[simp] theorem type_withWarning (t : Term) (more : Option String) :
    (t.withWarning more).type = t.type := by
  cases t
  rfl

/-- The node and the parts of a regular term are regular. -/
theorem regular_plain (ts : List Term) {shape : Shape Term} {type : Ty} {span : Span}
    (h : (plain shape type span).regular = true)
    (hshape : foldShape (fun t parts => t.ownRegular && parts.all id) shape = ts.map regular) :
    (plain shape type span).ownRegular = true ∧ ∀ t ∈ ts, t.regular = true := by
  change (_ && (foldShape _ shape).all id) = true at h
  rw [hshape, Bool.and_eq_true, List.all_eq_true, List.forall_mem_map] at h
  exact h

theorem foldList_eq_map {α : Type} (f : Term → List α → α) (ts : List Term) :
    foldList f ts = ts.map (fold f) := by
  induction ts with
  | nil => rfl
  | cons t ts ih => exact congrArg _ ih

theorem foldEntries_eq_map {α : Type} (f : Term → List α → α) (es : List (String × Term)) :
    foldEntries f es = (es.map (·.2)).map (fold f) := by
  induction es with
  | nil => rfl
  | cons e es ih => exact congrArg _ ih

theorem foldIterations_eq_map {α : Type} (f : Term → List α → α) (its : List (Iteration Term)) :
    foldIterations f its = (its.map (·.domain)).map (fold f) := by
  induction its with
  | nil => rfl
  | cons it its ih => exact congrArg _ ih

/-- The domains and the body of a regular iteration are regular. -/
theorem regular_iterations {shape : Shape Term} {type : Ty} {span : Span}
    {its : List (Iteration Term)} (body : Term) (h : (plain shape type span).regular = true)
    (hshape : foldShape (fun t parts => t.ownRegular && parts.all id) shape =
      foldIterations (fun t parts => t.ownRegular && parts.all id) its ++ [body.regular]) :
    (∀ it ∈ its, it.domain.regular = true) ∧ body.regular = true := by
  have hparts := (regular_plain (its.map (·.domain) ++ [body]) h (by
    rw [hshape, foldIterations_eq_map, List.map_append]
    rfl)).2
  rw [List.forall_mem_append, List.forall_mem_map, List.forall_mem_singleton] at hparts
  exact hparts

/-! ### Sound terms -/

/-- A term is lowered to sound fragments at its type, and its bounds, where it is a range, join to
the type of its elements. -/
structure Sound (S : Scope) (t : Term) : Prop where
  whole : Lower.Sound S t.type (Fragment.ofTerm t)
  bounds : ∀ b, Fragment.ofBounds t = some b → ∃ A B, Lower.Sound S A b.start ∧
    Lower.Sound S B b.finish ∧ t.type.elementType = A.join B

theorem Sound.withComments {S : Scope} {t : Term} (h : t.Sound S) (more : List String) :
    (t.withComments more).Sound S := by
  cases t
  exact ⟨h.whole, h.bounds⟩

theorem Sound.withWarning {S : Scope} {t : Term} (h : t.Sound S) (more : Option String) :
    (t.withWarning more).Sound S := by
  cases t
  exact ⟨h.whole, h.bounds⟩

end Term

/-! ### Parts -/

namespace Scope.Standard

variable {S : Scope}

theorem push (h : S.Standard) (isOpen : Bool) : (S.push isOpen).Standard :=
  ⟨h.options, h.libraries⟩

theorem declare (h : S.Standard) (name : String) (type : Ty) : (S.declare name type).Standard := by
  unfold Scope.declare
  split
  · exact h
  · exact ⟨h.options, h.libraries⟩

theorem declareAll (h : S.Standard) (entries : List (String × Ty)) :
    (S.declareAll entries).Standard := by
  induction entries generalizing S with
  | nil => exact h
  | cons e entries ih => exact ih (h.declare e.1 e.2)

theorem withTest (h : S.Standard) (type : Ty) : (S.withTest type).Standard :=
  ⟨h.options, h.libraries⟩

theorem filterScope (h : S.Standard) (element : Ty) :
    (Elaboration.filterScope S element).Standard := by
  unfold Elaboration.filterScope
  extract_lets inner
  have hinner : inner.Standard := by
    simp only [inner]
    split
    · exact (h.push false).declareAll _
    · exact h.push true
  exact hinner.declare _ _

end Scope.Standard

namespace Elaboration

/-- A part becomes a sound term, if it becomes a regular one. -/
def Sound (e : Elaboration) : Prop :=
  ∀ (S : Scope) (t : Term), S.Standard → e S = .ok t → t.regular = true → t.Sound S

/-- Parts are elaborated in order, each one on its own. -/
theorem all_eq_ok_iff {es : List Elaboration} {S : Scope} {ts : List Term} :
    all S es = .ok ts ↔ List.Forall₂ (fun e t => e S = .ok t) es ts := by
  induction es generalizing ts with
  | nil => simp [all, eq_comm]
  | cons e es ih =>
    simp only [all, bind_eq_ok, pure_eq_ok, ih, List.forall₂_cons_left_iff]
    constructor
    · rintro ⟨t, ht, us, hus, rfl⟩
      exact ⟨t, us, ht, hus, rfl⟩
    · rintro ⟨t, us, ht, hus, rfl⟩
      exact ⟨t, ht, us, hus, rfl⟩

theorem exists_of_mem_all {es : List Elaboration} {S : Scope} {ts : List Term}
    (h : all S es = .ok ts) {t : Term} (ht : t ∈ ts) : ∃ e ∈ es, e S = .ok t := by
  induction all_eq_ok_iff.mp h with
  | nil => cases ht
  | cons he hes ih =>
    rcases List.mem_cons.mp ht with rfl | ht
    · exact ⟨_, List.mem_cons_self, he⟩
    · obtain ⟨e, hmem, he⟩ := ih (all_eq_ok_iff.mpr hes) ht
      exact ⟨e, List.mem_cons_of_mem _ hmem, he⟩

theorem all_sound {es : List Elaboration} (h : ∀ e ∈ es, Sound e) {S : Scope} (hS : S.Standard)
    {ts : List Term} (hts : all S es = .ok ts) : ∀ t ∈ ts, t.regular = true → t.Sound S := by
  intro t ht hreg
  obtain ⟨e, he, heq⟩ := exists_of_mem_all hts ht
  exact h e he S t hS heq hreg

/-- The parts of sound terms are lowered to sound fragments. -/
theorem forall₂_ofList {S : Scope} {ts : List Term} (h : ∀ t ∈ ts, t.Sound S) :
    List.Forall₂ (fun l T => Lower.Sound S T l) (Fragment.ofList ts) (ts.map (·.type)) := by
  induction ts with
  | nil => exact .nil
  | cons t ts ih =>
    exact .cons (h t List.mem_cons_self).whole
      (ih fun u hu => h u (List.mem_cons_of_mem _ hu))

/-- A form that is no range is sound where its fragments are. -/
theorem sound_plain {S : Scope} {shape : Shape Term} {type : Ty} {span : Span}
    (hbounds : Fragment.ofShapeBounds shape = none)
    (h : Lower.Sound S type (Fragment.ofShape type span shape)) :
    (Term.plain shape type span).Sound S := by
  refine ⟨h, fun b hb => ?_⟩
  rw [show Fragment.ofBounds (Term.plain shape type span) = none from hbounds] at hb
  cases hb

/-! ### Literals and references -/

/-- A literal is a constant that fits its type. -/
theorem sound_literal {S : Scope} {v : Value} {type : Ty} (h : Fits v type) :
    Lower.Sound S type (fun _ => Fragment.ofConstant v type) :=
  fun _ _ _ => Fragment.ensures_ofConstant (.of_fits h)

theorem sound_null (span : Span) : Sound (fun _ => .ok (.plain .null .null span)) := by
  intro S t hS ht hreg
  cases ht
  exact sound_plain rfl fun L pool hL => .pure fun _ _ => .null

theorem sound_boolean (b : Bool) (span : Span) :
    Sound (fun _ => .ok (.plain (.boolean b) .boolean span)) := by
  intro S t hS ht hreg
  cases ht
  exact sound_plain rfl (sound_literal (.boolean b))

theorem sound_string (s : String) (span : Span) :
    Sound (fun _ => .ok (.plain (.string s) .string span)) := by
  intro S t hS ht hreg
  cases ht
  exact sound_plain rfl (sound_literal (.string s))

theorem sound_dash (span : Span) : Sound (fun _ => .ok (.plain .dash .boolean span)) := by
  intro S t hS ht hreg
  cases ht
  exact sound_plain rfl (sound_literal (.boolean true))

theorem sound_number (text : String) (span : Span) : Sound (number text span) := by
  intro S t hS ht hreg
  unfold number at ht
  split at ht
  · next n hn =>
    cases ht
    exact sound_plain rfl (sound_literal (.number n _))
  · cases ht

/-- A temporal literal fits its own type. -/
theorem fits_of_parseTemporal? {text : String} {v : Value}
    (h : Datum.parseTemporal? text = some v) : Fits v v.type := by
  have hduration : ∀ {s : String} {v : Value}, Datum.parseDuration? s = some v →
      Fits v v.type := by
    intro s v hv
    obtain ⟨d, -, rfl⟩ := Option.map_eq_some_iff.mp hv
    cases d with
    | dayTime nanos => exact .dayTimeDuration nanos
    | yearMonth months => exact .yearMonthDuration months
  unfold Datum.parseTemporal? at h
  extract_lets s at h
  split at h
  · exact hduration h
  · exact hduration h
  · split at h
    · obtain ⟨t, -, rfl⟩ := Option.map_eq_some_iff.mp h
      exact .dateTime t
    · rcases Option.or_eq_some_iff.mp h with h | ⟨-, h⟩
      · obtain ⟨d, -, rfl⟩ := Option.map_eq_some_iff.mp h
        exact .date d
      · obtain ⟨t, -, rfl⟩ := Option.map_eq_some_iff.mp h
        exact .time t

theorem sound_temporal (text : String) (span : Span) : Sound (temporal text span) := by
  intro S t hS ht hreg
  unfold temporal at ht
  split at ht
  · next v hv =>
    cases ht
    exact sound_plain rfl (sound_literal (fits_of_parseTemporal? hv))
  · cases ht

theorem sound_name (name : String) (span : Span) : Sound (Elaboration.name name span) := by
  intro S t hS ht hreg
  unfold Elaboration.name at ht
  split at ht
  · next ref href =>
    cases ht
    exact sound_plain rfl (.name name href hS span)
  · cases ht

/-- The type of the value under test is that of the scope. -/
theorem testType_eq {S : Scope} {span : Span} {type : Ty} (h : testType S span = .ok type) :
    S.testType = some type := by
  unfold testType at h
  split at h
  · next t ht =>
    cases h
    exact ht
  · cases h

theorem sound_testInput (span : Span) : Sound (testInput span) := by
  intro S t hS ht hreg
  obtain ⟨type, htype, ht⟩ := bind_eq_ok.mp ht
  cases ht
  exact sound_plain rfl (.testInput (testType_eq htype))

/-! ### Structures -/

theorem sound_list {items : List Elaboration} (h : ∀ e ∈ items, Sound e) (span : Span) :
    Sound (list items span) := by
  intro S t hS ht hreg
  obtain ⟨ts, hts, ht⟩ := bind_eq_ok.mp ht
  cases ht
  obtain ⟨-, hparts⟩ := Term.regular_plain ts hreg (Term.foldList_eq_map _ ts)
  exact sound_plain rfl (.list (forall₂_ofList fun t ht => all_sound h hS hts t ht (hparts t ht)))

/-- Entries in order are sound, each in the scope that those before it lead to. -/
theorem entries_sound {es : List (String × Elaboration)} (h : ∀ e ∈ es, Sound e.2) {S : Scope}
    (hS : S.Standard) {ts : List (String × Term)} (hts : entries S es = .ok ts)
    (hreg : ∀ e ∈ ts, e.2.regular = true) :
    Lower.EntriesSound S (Fragment.ofEntries ts) (ts.map fun (name, t) => (name, t.type)) := by
  induction es generalizing S ts with
  | nil =>
    cases hts
    exact .nil S
  | cons e es ih =>
    obtain ⟨t, ht, hts⟩ := bind_eq_ok.mp hts
    obtain ⟨rest, hrest, hts⟩ := bind_eq_ok.mp hts
    cases hts
    have hsound := h e List.mem_cons_self S t hS ht (hreg _ List.mem_cons_self)
    refine .cons hsound.whole ?_
    exact ih (fun e he => h e (List.mem_cons_of_mem _ he)) (hS.declare _ _) hrest
      fun e he => hreg e (List.mem_cons_of_mem _ he)

theorem sound_context {es : List (String × Elaboration)} (h : ∀ e ∈ es, Sound e.2)
    (span : Span) : Sound (context es span) := by
  intro S t hS ht hreg
  obtain ⟨ts, hts, ht⟩ := bind_eq_ok.mp ht
  cases ht
  obtain ⟨hown, hparts⟩ := Term.regular_plain _ hreg (Term.foldEntries_eq_map _ ts)
  rw [List.forall_mem_map] at hparts
  refine sound_plain rfl (.context (entries_sound h (hS.push false) hts hparts) ?_)
  intro name t u ht hu
  obtain ⟨⟨_, e⟩, he, heq⟩ := List.mem_map.mp ht
  obtain ⟨⟨_, e'⟩, he', heq'⟩ := List.mem_map.mp hu
  cases heq
  cases heq'
  simpa using List.all_eq_true.mp (List.all_eq_true.mp hown _ he) _ he'

/-- A range of two sound bounds. -/
theorem sound_rangeNode {S : Scope} {start finish : Term} (hs : start.Sound S)
    (hf : finish.Sound S) (si ei : Bool) (span : Span) :
    (Term.rangeNode start finish si ei span).Sound S := by
  refine ⟨.range hs.whole hf.whole si ei, fun b hb => ?_⟩
  cases hb
  exact ⟨start.type, finish.type, hs.whole, hf.whole, rfl⟩

theorem sound_interval {start finish : Elaboration} (hs : Sound start) (hf : Sound finish)
    (si ei : Bool) (span : Span) : Sound (interval start finish si ei span) := by
  intro S t hS ht hreg
  obtain ⟨s, hs', ht⟩ := bind_eq_ok.mp ht
  obtain ⟨e, he', ht⟩ := bind_eq_ok.mp ht
  cases ht
  obtain ⟨-, hparts⟩ := Term.regular_plain [s, e] hreg rfl
  rw [List.forall_mem_cons, List.forall_mem_singleton] at hparts
  exact sound_rangeNode (hs S s hS hs' hparts.1) (hf S e hS he' hparts.2) si ei span

/-! ### Operators -/

theorem sound_binary (source : String) (op : Operator) {left right : Elaboration}
    (hl : Sound left) (hr : Sound right) (span : Span) :
    Sound (binary source op left right span) := by
  intro S t hS ht hreg
  obtain ⟨l, hl', ht⟩ := bind_eq_ok.mp ht
  obtain ⟨r, hr', ht⟩ := bind_eq_ok.mp ht
  cases ht
  rw [Term.regular_withWarning] at hreg
  obtain ⟨-, hparts⟩ := Term.regular_plain [l, r] hreg rfl
  rw [List.forall_mem_cons, List.forall_mem_singleton] at hparts
  refine .withWarning (sound_plain rfl ?_) _
  exact .binary (hl S l hS hl' hparts.1).whole (hr S r hS hr' hparts.2).whole op span

theorem sound_negation {operand : Elaboration} (h : Sound operand) (span : Span) :
    Sound (negation operand span) := by
  intro S t hS ht hreg
  obtain ⟨x, hx, ht⟩ := bind_eq_ok.mp ht
  cases ht
  rw [Term.regular_withWarning] at hreg
  obtain ⟨-, hparts⟩ := Term.regular_plain [x] hreg rfl
  rw [List.forall_mem_singleton] at hparts
  exact .withWarning (sound_plain rfl (.negation (h S x hS hx hparts).whole)) _

theorem sound_between {value low high : Elaboration} (hv : Sound value) (hl : Sound low)
    (hh : Sound high) (span : Span) : Sound (between value low high span) := by
  intro S t hS ht hreg
  obtain ⟨v, hv', ht⟩ := bind_eq_ok.mp ht
  obtain ⟨l, hl', ht⟩ := bind_eq_ok.mp ht
  obtain ⟨h, hh', ht⟩ := bind_eq_ok.mp ht
  cases ht
  obtain ⟨-, hparts⟩ := Term.regular_plain [v, l, h] hreg rfl
  rw [List.forall_mem_cons, List.forall_mem_cons, List.forall_mem_singleton] at hparts
  exact sound_plain rfl (.between (hv S v hS hv' hparts.1).whole
    (hl S l hS hl' hparts.2.1).whole (hh S h hS hh' hparts.2.2).whole)

theorem sound_instanceOf {value : Elaboration} (hv : Sound value) (target : TypeExpr)
    (span : Span) : Sound (instanceOf value target span) := by
  intro S t hS ht hreg
  obtain ⟨v, hv', ht⟩ := bind_eq_ok.mp ht
  obtain ⟨type, -, ht⟩ := bind_eq_ok.mp ht
  cases ht
  obtain ⟨-, hparts⟩ := Term.regular_plain [v] hreg rfl
  rw [List.forall_mem_singleton] at hparts
  exact sound_plain rfl (.instanceOf (hv S v hS hv' hparts).whole type)

/-! ### Unary tests -/

theorem sound_comparison (source : String) (op : Operator) {value : Elaboration}
    (hv : Sound value) (span : Span) : Sound (comparison source op value span) := by
  intro S t hS ht hreg
  obtain ⟨v, hv', ht⟩ := bind_eq_ok.mp ht
  obtain ⟨type, -, ht⟩ := bind_eq_ok.mp ht
  cases ht
  rw [Term.regular_withWarning] at hreg
  obtain ⟨hown, hparts⟩ := Term.regular_plain [v] hreg rfl
  rw [List.forall_mem_singleton] at hparts
  refine .withWarning (sound_plain rfl ?_) _
  exact .comparison (hv S v hS hv' hparts).whole hown span

theorem ofTests_eq_map (ts : List Term) :
    Fragment.ofTests ts = ts.map fun t => ⟨t.isCompleteTest, t.span, Fragment.ofTerm t⟩ := by
  induction ts with
  | nil => rfl
  | cons t ts ih =>
    rw [Fragment.ofTests, ih]
    rfl

/-- Tests of a value, with what is asked of a lone one. -/
theorem sound_testsNode {S : Scope} {negated : Bool}
    {tests : List Term} (htests : ∀ t ∈ tests, t.Sound S) {span : Span}
    (hown : (Term.plain (.tests negated tests) .boolean span).ownRegular = true) :
    (Term.plain (.tests negated tests) .boolean span).Sound S := by
  refine sound_plain rfl (.tests (fun part hpart => ?_) span)
  rw [ofTests_eq_map] at hpart ⊢
  obtain ⟨t, ht, rfl⟩ := List.mem_map.mp hpart
  refine ⟨t.type, (htests t ht).whole, fun hlone hcomplete => ?_⟩
  rw [Bool.and_eq_true, List.length_map, beq_iff_eq] at hlone
  obtain ⟨hnegated, hone⟩ := hlone
  obtain ⟨u, rfl⟩ := List.length_eq_one_iff.mp hone
  rw [List.mem_singleton.mp ht] at hcomplete ⊢
  cases negated with
  | true => cases hnegated
  | false =>
    change u.isCompleteTest = true at hcomplete
    simpa [Term.ownRegular, Term.plain, Term.shape, hcomplete] using hown

theorem sound_isIn {value : Elaboration} (hv : Sound value) {tests : List Elaboration}
    (h : ∀ e ∈ tests, Sound e) (spans : List Span) (span : Span) :
    Sound (isIn value tests spans span) := by
  intro S t hS ht hreg
  obtain ⟨v, hv', ht⟩ := bind_eq_ok.mp ht
  obtain ⟨ts, hts, ht⟩ := bind_eq_ok.mp ht
  cases ht
  obtain ⟨-, hparts⟩ := Term.regular_plain [v, _] hreg rfl
  rw [List.forall_mem_cons, List.forall_mem_singleton] at hparts
  obtain ⟨hown, htests⟩ := Term.regular_plain ts hparts.2 (Term.foldList_eq_map _ ts)
  have hall : ∀ t ∈ ts, t.Sound (S.withTest v.type) :=
    fun t ht => all_sound h (hS.withTest v.type) hts t ht (htests t ht)
  exact sound_plain rfl (.isIn (hv S v hS hv' hparts.1).whole (sound_testsNode hall hown).whole)

theorem sound_tests (negated : Bool) {tests : List Elaboration} (h : ∀ e ∈ tests, Sound e)
    (span : Span) : Sound (Elaboration.tests negated tests span) := by
  intro S t hS ht hreg
  obtain ⟨ts, hts, ht⟩ := bind_eq_ok.mp ht
  cases ht
  obtain ⟨hown, hparts⟩ := Term.regular_plain ts hreg (Term.foldList_eq_map _ ts)
  exact sound_testsNode (fun t ht => all_sound h hS hts t ht (hparts t ht)) hown

/-! ### Control -/

theorem sound_ite {condition yes no : Elaboration} (hc : Sound condition) (hy : Sound yes)
    (hn : Sound no) (span : Span) : Sound (ite condition yes no span) := by
  intro S t hS ht hreg
  obtain ⟨c, hc', ht⟩ := bind_eq_ok.mp ht
  obtain ⟨y, hy', ht⟩ := bind_eq_ok.mp ht
  obtain ⟨n, hn', ht⟩ := bind_eq_ok.mp ht
  cases ht
  obtain ⟨-, hparts⟩ := Term.regular_plain [c, y, n] hreg rfl
  rw [List.forall_mem_cons, List.forall_mem_cons, List.forall_mem_singleton] at hparts
  exact sound_plain rfl (.ite (hc S c hS hc' hparts.1).whole (hy S y hS hy' hparts.2.1).whole
    (hn S n hS hn' hparts.2.2).whole)

/-- What an iterator runs over is sound where its parts are. -/
theorem domain_sound {it : Iterator Elaboration} (hd : Sound it.domain)
    (hf : ∀ e, it.finish = some e → Sound e) {S : Scope} (hS : S.Standard) {t : Term}
    (ht : domain S it = .ok t) (hreg : t.regular = true) : t.Sound S := by
  obtain ⟨start, hstart, ht⟩ := bind_eq_ok.mp ht
  split at ht
  · cases ht
    exact hd S t hS hstart hreg
  · next finish hfinish =>
    obtain ⟨last, hlast, ht⟩ := bind_eq_ok.mp ht
    cases ht
    obtain ⟨-, hparts⟩ := Term.regular_plain [start, last] hreg rfl
    rw [List.forall_mem_cons, List.forall_mem_singleton] at hparts
    exact sound_rangeNode (hd S start hS hstart hparts.1)
      (hf finish hfinish S last hS hlast hparts.2) _ _ _

/-- Iterators in order are sound, each in the scope that those before it lead to. -/
theorem iterations_sound {its : List (Iterator Elaboration)}
    (h : ∀ it ∈ its, Sound it.domain ∧ ∀ e, it.finish = some e → Sound e) {S : Scope}
    (hS : S.Standard) {ts : List (Iteration Term)} {inner : Scope}
    (hts : iterations S its = .ok (ts, inner)) (hreg : ∀ it ∈ ts, it.domain.regular = true) :
    Lower.PartsSound S (Fragment.ofIterations ts) inner ∧ inner.Standard := by
  induction its generalizing S ts with
  | nil =>
    cases hts
    exact ⟨.nil _, hS⟩
  | cons it its ih =>
    obtain ⟨t, ht, hts⟩ := bind_eq_ok.mp hts
    obtain ⟨⟨rest, scope⟩, hrest, hts⟩ := bind_eq_ok.mp hts
    cases hts
    obtain ⟨hd, hf⟩ := h it List.mem_cons_self
    have hsound := domain_sound hd hf hS ht (hreg _ List.mem_cons_self)
    obtain ⟨hparts, hinner⟩ := ih (fun it hit => h it (List.mem_cons_of_mem _ hit))
      (hS.declare _ _) hrest fun it hit => hreg it (List.mem_cons_of_mem _ hit)
    exact ⟨.cons ⟨rfl, hsound.whole, hsound.bounds⟩ hparts, hinner⟩

theorem sound_forIn {its : List (Iterator Elaboration)}
    (h : ∀ it ∈ its, Sound it.domain ∧ ∀ e, it.finish = some e → Sound e)
    {body : Elaboration} (hb : Sound body) (span : Span) : Sound (forIn its body span) := by
  intro S t hS ht hreg
  obtain ⟨⟨ts, inner⟩, hts, ht⟩ := bind_eq_ok.mp ht
  obtain ⟨b, hb', ht⟩ := bind_eq_ok.mp ht
  cases ht
  obtain ⟨hdomains, hbody⟩ := Term.regular_iterations b hreg rfl
  obtain ⟨hits, hinner⟩ := iterations_sound h (hS.push false) hts hdomains
  exact sound_plain rfl (.forIn hits (hb inner b hinner hb' hbody).whole)

theorem sound_quantified (every : Bool) {its : List (Iterator Elaboration)}
    (h : ∀ it ∈ its, Sound it.domain ∧ ∀ e, it.finish = some e → Sound e)
    {condition : Elaboration} (hc : Sound condition) (span : Span) :
    Sound (quantified every its condition span) := by
  intro S t hS ht hreg
  obtain ⟨⟨ts, inner⟩, hts, ht⟩ := bind_eq_ok.mp ht
  obtain ⟨c, hc', ht⟩ := bind_eq_ok.mp ht
  cases ht
  obtain ⟨hdomains, hbody⟩ := Term.regular_iterations c hreg rfl
  obtain ⟨hits, hinner⟩ := iterations_sound h (hS.push false) hts hdomains
  exact sound_plain rfl (.quantified hits (hc inner c hinner hc' hbody).whole every)

theorem sound_filter {source filter : Elaboration} (hs : Sound source) (hf : Sound filter)
    (span : Span) : Sound (Elaboration.filter source filter span) := by
  intro S t hS ht hreg
  obtain ⟨s, hs', ht⟩ := bind_eq_ok.mp ht
  obtain ⟨f, hf', ht⟩ := bind_eq_ok.mp ht
  cases ht
  obtain ⟨hown, hparts⟩ := Term.regular_plain [s, f] hreg rfl
  rw [List.forall_mem_cons, List.forall_mem_singleton] at hparts
  have hrange : Lower.isRange s.type = false := by
    simpa [Term.ownRegular, Term.plain, Term.shape] using hown
  exact sound_plain rfl (.filter (hs S s hS hs' hparts.1).whole
    (hf _ f (hS.filterScope _) hf' hparts.2).whole hrange)

theorem sound_path {source : Elaboration} (hs : Sound source) (member : String) (span : Span) :
    Sound (path source member span) := by
  intro S t hS ht hreg
  obtain ⟨s, hs', ht⟩ := bind_eq_ok.mp ht
  split at ht
  · next type htype =>
    cases ht
    obtain ⟨-, hparts⟩ := Term.regular_plain [s] hreg rfl
    rw [List.forall_mem_singleton] at hparts
    exact sound_plain rfl (.path (hs S s hS hs' hparts).whole htype span)
  · cases ht

/-! ### Functions -/

theorem sound_function (params : List (String × Option TypeExpr)) {body : Elaboration}
    (hb : Sound body) (span : Span) : Sound (function params body span) := by
  intro S t hS ht hreg
  obtain ⟨types, -, ht⟩ := bind_eq_ok.mp ht
  obtain ⟨b, hb', ht⟩ := bind_eq_ok.mp ht
  cases ht
  obtain ⟨-, hparts⟩ := Term.regular_plain [b] hreg rfl
  rw [List.forall_mem_singleton] at hparts
  have hbody := hb _ b ((hS.push false).declareAll types) hb' hparts
  exact sound_plain rfl (.function hbody.whole types)

/-- What a parameter takes is an argument, or null. -/
theorem mem_of_fill {span : Span} {params : List String} {given : List (String × Term)} {t : Term}
    (h : t ∈ fill span params given) :
    t ∈ given.map (·.2) ∨ t = .plain .null .null span := by
  induction params generalizing given with
  | nil => cases h
  | cons p ps ih =>
    rcases List.mem_cons.mp h with rfl | h
    · cases hlookup : given.lookup p with
      | none => exact .inr rfl
      | some t => exact .inl (List.mem_map_of_mem (Ty.mem_of_lookup hlookup))
    · refine (ih h).imp_left fun hmem => ?_
      obtain ⟨e, he, rfl⟩ := List.mem_map.mp hmem
      exact List.mem_map_of_mem (List.mem_filter.mp he).1

/-- Arguments in the order of the parameters are arguments, or null. -/
theorem mem_of_arrange {function : String} {overloads : List Ty} {names : List String}
    {args arranged : List Term} {span : Span}
    (h : arrange function overloads names args span = .ok arranged) {t : Term}
    (ht : t ∈ arranged) : t ∈ args ∨ t = .plain .null .null span := by
  unfold arrange at h
  split at h
  · cases h
  · cases h
    refine (mem_of_fill ht).imp_left fun hmem => ?_
    obtain ⟨e, he, rfl⟩ := List.mem_map.mp hmem
    exact (List.of_mem_zip he).2

/-- The type at which a built-in function is called is its signature for the arguments. -/
theorem callAt_of_signature {name : String} {f : Builtin} (hname : Builtin.ofName? name = some f)
    {types : List Ty} {span : Span} {type : Ty}
    (h : signature [.builtins] name types span = .ok type) : f.CallAt types type := by
  have hsignature : Libraries.signature? [.builtins] name types = f.signature? types := by
    rw [Libraries.signature?, List.findSome?_singleton, Library.signature?, hname]
    rfl
  unfold signature at h
  rw [hsignature] at h
  split at h
  · next t ht =>
    cases h
    exact .inl ht
  · next hnone =>
    split at h
    · next hany =>
      cases h
      exact .inr ⟨hnone, hany, rfl⟩
    · cases h

/-- A call of a library function: its arguments are arranged, and its type is the signature. -/
theorem of_namedCall {name : String} {overloads : List Ty} {names : Option (List String)}
    {args : List Term} {span : Span} {S : Scope} {t : Term}
    (h : namedCall name overloads names args span S = .ok t) :
    ∃ (arranged : List Term) (type : Ty),
      (∀ u ∈ arranged, u ∈ args ∨ u = .plain .null .null span) ∧
      signature S.libraries name (arranged.map (·.type)) span = .ok type ∧
      t = .plain (.invocation (.named name type) arranged none) (type.result?.getD .any) span := by
  cases names with
  | none =>
    obtain ⟨same, hsame, h⟩ := bind_eq_ok.mp h
    obtain ⟨type, htype, h⟩ := bind_eq_ok.mp h
    cases hsame
    cases h
    exact ⟨args, type, fun u hu => .inl hu, htype, rfl⟩
  | some names =>
    obtain ⟨arranged, harranged, h⟩ := bind_eq_ok.mp h
    obtain ⟨type, htype, h⟩ := bind_eq_ok.mp h
    cases h
    exact ⟨arranged, type, fun u hu => mem_of_arrange harranged hu, htype, rfl⟩

theorem namedCall_sound {name : String} {overloads : List Ty} {names : Option (List String)}
    {args : List Term} {span : Span} {S : Scope} (hS : S.Standard)
    (hname : (Builtin.ofName? name).isSome = true)
    (hargs : ∀ t ∈ args, t.regular = true → t.Sound S) {t : Term}
    (ht : namedCall name overloads names args span S = .ok t) (hreg : t.regular = true) :
    t.Sound S := by
  obtain ⟨f, hf⟩ := Option.isSome_iff_exists.mp hname
  obtain ⟨arranged, type, harranged, htype, rfl⟩ := of_namedCall ht
  obtain ⟨hown, hparts⟩ := Term.regular_plain arranged hreg (Term.foldList_eq_map _ arranged)
  have hsound : ∀ u ∈ arranged, u.Sound S := by
    intro u hu
    rcases harranged u hu with hmem | rfl
    · exact hargs u hmem (hparts u hu)
    · exact sound_null span S _ hS rfl (hparts _ hu)
  rw [hS.libraries] at htype
  refine sound_plain rfl (.call (forall₂_ofList hsound) hf (callAt_of_signature hf htype) ?_
    none span)
  rintro rfl hany
  simp [Term.ownRegular, Term.plain, Term.shape, hf, ← hany] at hown

theorem valueCall_sound {source : String} {callee : Elaboration} (hc : Sound callee)
    {names : Option (List String)} {args : List Term} {span : Span} {S : Scope}
    (hS : S.Standard) (hargs : ∀ t ∈ args, t.regular = true → t.Sound S) {t : Term}
    (ht : valueCall source callee names args span S = .ok t) (hreg : t.regular = true) :
    t.Sound S := by
  obtain ⟨c, hc', ht⟩ := bind_eq_ok.mp ht
  split at ht
  · cases ht
  · extract_lets made at ht
    have hmade : ∀ type, (made type).regular = true → (made type).Sound S := by
      intro type hreg
      obtain ⟨hown, hparts⟩ := Term.regular_plain (c :: args) hreg
        (congrArg _ (Term.foldList_eq_map _ args))
      rw [List.forall_mem_cons] at hparts
      have hany : type = .any := by
        cases type <;> simp [Term.ownRegular, Term.plain, Term.shape, Term.type, Ty.isAny] at hown ⊢
      subst hany
      exact sound_plain rfl (.valueCall (hc S c hS hc' hparts.1).whole
        (forall₂_ofList fun u hu => hargs u hu (hparts.2 u hu)) names span)
    split at ht
    · cases ht
      exact hmade _ hreg
    · cases ht
      exact hmade _ hreg
    · cases ht

theorem sound_invocation (source : String) (calleeName : Option String) {callee : Elaboration}
    (hc : Sound callee) {args : Arguments Elaboration} (h : ∀ e ∈ argumentParts args, Sound e)
    (span : Span) : Sound (invocation source calleeName callee args span) := by
  intro S t hS ht hreg
  unfold invocation at ht
  extract_lets names at ht
  obtain ⟨ts, hts, ht⟩ := bind_eq_ok.mp ht
  have hargs := all_sound h hS hts
  split at ht
  · next name hname =>
    split at ht
    · next overloads hoverloads =>
      refine namedCall_sound hS ?_ hargs ht hreg
      rw [hS.libraries, Libraries.overloads?, List.findSome?_singleton] at hoverloads
      obtain ⟨f, hf, -⟩ := Option.map_eq_some_iff.mp hoverloads
      rw [hf]
      rfl
    · exact valueCall_sound hc hS hargs ht hreg
  · exact valueCall_sound hc hS hargs ht hreg

end Elaboration

/-! ### Trees -/

namespace Term

variable (source : String)

theorem ofList_eq_map (ss : List Surface) : ofList source ss = ss.map (ofSurface source) := by
  induction ss with
  | nil => rfl
  | cons s ss ih => rw [ofList, ih, List.map_cons]

theorem ofEntries_eq_map (es : List (String × Surface)) :
    ofEntries source es = es.map fun e => (e.1, ofSurface source e.2) := by
  induction es with
  | nil => rfl
  | cons e es ih => rw [ofEntries, ih, List.map_cons]

mutual

/-- **Terms of parse trees are sound**, where they are regular. -/
theorem ofSurface_sound : ∀ s : Surface, Elaboration.Sound (ofSurface source s)
  | .node form span comments => by
    intro S t hS ht hreg
    obtain ⟨u, hu, ht⟩ := bind_eq_ok.mp ht
    cases ht
    rw [regular_withComments] at hreg
    exact (ofForm_sound span form S u hS hu hreg).withComments comments

theorem ofForm_sound (span : Span) :
    ∀ form : Form Surface, Elaboration.Sound (ofForm source span form)
  | .null => Elaboration.sound_null span
  | .boolean b => Elaboration.sound_boolean b span
  | .number text => Elaboration.sound_number text span
  | .string s => Elaboration.sound_string s span
  | .temporal text => Elaboration.sound_temporal text span
  | .name name => Elaboration.sound_name name span
  | .testInput => Elaboration.sound_testInput span
  | .dash => Elaboration.sound_dash span
  | .list items => Elaboration.sound_list (ofList_sound items) span
  | .context entries => Elaboration.sound_context (ofEntries_sound entries) span
  | .interval start finish si ei =>
    Elaboration.sound_interval (ofSurface_sound start) (ofSurface_sound finish) si ei span
  | .binary op left right =>
    Elaboration.sound_binary source op (ofSurface_sound left) (ofSurface_sound right) span
  | .negation operand => Elaboration.sound_negation (ofSurface_sound operand) span
  | .between value low high =>
    Elaboration.sound_between (ofSurface_sound value) (ofSurface_sound low)
      (ofSurface_sound high) span
  | .isIn value tests =>
    Elaboration.sound_isIn (ofSurface_sound value) (ofList_sound tests) _ span
  | .instanceOf value target => Elaboration.sound_instanceOf (ofSurface_sound value) target span
  | .ite condition yes no =>
    Elaboration.sound_ite (ofSurface_sound condition) (ofSurface_sound yes) (ofSurface_sound no)
      span
  | .forIn its body => Elaboration.sound_forIn (ofIterators_sound its) (ofSurface_sound body) span
  | .quantified every its condition =>
    Elaboration.sound_quantified every (ofIterators_sound its) (ofSurface_sound condition) span
  | .filter list filter =>
    Elaboration.sound_filter (ofSurface_sound list) (ofSurface_sound filter) span
  | .function params body => Elaboration.sound_function params (ofSurface_sound body) span
  | .invocation callee args =>
    Elaboration.sound_invocation source callee.name? (ofSurface_sound callee)
      (ofArguments_sound args) span
  | .path value member => Elaboration.sound_path (ofSurface_sound value) member span
  | .comparison op value => Elaboration.sound_comparison source op (ofSurface_sound value) span
  | .tests negated tests => Elaboration.sound_tests negated (ofList_sound tests) span

theorem ofList_sound : ∀ (ss : List Surface), ∀ e ∈ ofList source ss, Elaboration.Sound e
  | [] => fun _ he => absurd he List.not_mem_nil
  | s :: ss => List.forall_mem_cons.mpr ⟨ofSurface_sound s, ofList_sound ss⟩

theorem ofEntries_sound :
    ∀ (es : List (String × Surface)), ∀ e ∈ ofEntries source es, Elaboration.Sound e.2
  | [] => fun _ he => absurd he List.not_mem_nil
  | (_, s) :: es => List.forall_mem_cons.mpr ⟨ofSurface_sound s, ofEntries_sound es⟩

theorem ofOption_sound :
    ∀ (o : Option Surface), ∀ e, ofOption source o = some e → Elaboration.Sound e
  | none => fun _ he => nomatch he
  | some s => fun _ he => Option.some.inj he ▸ ofSurface_sound s

theorem ofIterators_sound :
    ∀ (its : List (Iterator Surface)), ∀ it ∈ ofIterators source its,
      Elaboration.Sound it.domain ∧ ∀ e, it.finish = some e → Elaboration.Sound e
  | [] => fun _ he => absurd he List.not_mem_nil
  | ⟨_, domain, finish⟩ :: its =>
    List.forall_mem_cons.mpr ⟨⟨ofSurface_sound domain, ofOption_sound finish⟩,
      ofIterators_sound its⟩

theorem ofArguments_sound : ∀ (args : Arguments Surface),
    ∀ e ∈ Elaboration.argumentParts (ofArguments source args), Elaboration.Sound e
  | .positional args => ofList_sound args
  | .named args => List.forall_mem_map.mpr (ofEntries_sound args)

end

end Term

/-! ### Programs -/

namespace Program

/-- Whether the term of a text, if it has one, is regular. -/
def isRegular (scope : Scope) (source : String) : Bool :=
  match Surface.parseExpression source scope.knownNames with
  | .error _ => true
  | .ok tree =>
    match Term.ofSurface source tree scope with
    | .error _ => true
    | .ok term => term.regular

/-- A field of an input that fits a type fits the type of the field. -/
theorem fits_field {input : Value} {type t : Ty} (h : Fits input type) {name : String}
    (ht : type.field? name = some t) : Fits ((input.get? name).getD .null) t := by
  cases h with
  | context hfields =>
    refine .getD fun v hv => ?_
    exact hfields name t (Ty.mem_of_lookup ht) v hv
  | null => exact .null t
  | _ => cases ht

/-- The frame of a run suits what the expression sees. -/
theorem suits_input {input : Value} {type : Ty} (h : Fits input type) :
    Frame.Suits (inputScope type) .any ⟨input, none, []⟩ := by
  refine ⟨fun _ _ ht => ?_, fun _ _ ht => fits_field h ht, .null _ _⟩
  cases ht

/-- A filter over a range takes the range for its only element, but its type is that of the
bounds; and a test that speaks of the value under test is no boolean where its text is none. -/
example :
    let see (source : String) := (ofExpression {} (inputScope .any) source).toOption.bind fun p =>
      (p.run (fun _ _ => .null) .null none).toOption.map fun v => (p.resultType, v.text)
    see "[1..3][1]" = some (.number .integer, "[1..3]") ∧
      see "5 in (? + 1)" = some (.boolean, "6") := by
  decide +kernel

end Program

end Feel
