import Feel.Proofs.Connectives
import Feel.Proofs.FoldingForms
import Feel.Proofs.NumberComparisons
import Feel.Proofs.OperatorFamilies
import Feel.Proofs.OtherScopes

/-!
# What unary tests give

A unary test has an operand: the test itself, or the other side of a comparison with the value under
test. What the test makes of the value of its operand is settled by two static types, that of the
operand and that of the value under test. The program of a list of tests gives the disjunction of
what they make of their operands, or the negation of it, each operand having the value that its own
program gives.

Unary tests can be compiled for values of one type or for any value. Where the type is known some
tests are lowered to other code, which tells the same values apart but in three places: a list that
is tested against a list is equal to it rather than an element of it, machine numbers are compared
as binary64 numbers, and a condition that is null does not become an equality with null.

* `UnaryTest.verdict`: what a test makes of the value of its operand.
* `Surface.TestGives`: the operand of a test and what its own program gives.
* `UnaryTest.StandsAlone`: an operand that does not speak of the value under test.
* `Program.run_tests`: the program of unary tests gives the disjunction of their verdicts.
* `UnaryTest.Agrees`: the type of the value under test makes no difference to a test.
* `UnaryTest.verdict_eq_iff`: it makes none exactly there.
* `Program.typed_tests_iff`: the programs of unary tests with and without the type.
-/

namespace Feel

/-! ## Verdicts and their programs -/

/-! ### Verdicts -/

/-- What a unary test asks of its operand: to be true, to compare with the value under test, or to
accept it. -/
inductive TestUse where
  | holds
  | compares (op : Operator)
  | accepts

/-- A unary test with the static type and the value of its operand. -/
structure UnaryTest where
  use : TestUse
  type : Ty
  value : Value

/-- What a unary test makes of the value of its operand. The static types of the value under test
and of the operand say how. -/
def UnaryTest.verdict (subject : Ty) (t : Value) (u : UnaryTest) : Value :=
  match u.use with
  | .holds => u.value
  | .compares op =>
    if op.isOrdering && !subject.comparable u.type then .null
    else Datum.compared op (Fragment.compareMode subject u.type) t u.value
  | .accepts =>
    match u.type with
    | .list _ =>
      if subject.isList then t.equality u.value false else Action.listContains u.value t
    | .range _ _ _ => Action.rangeContains u.value t
    | .boolean =>
      if subject.isAny then Action.matchTest u.value t
      else if subject.isBoolean then t.equality u.value false
      else u.value
    | .any => Action.matchTest u.value t
    | _ => t.equality u.value false

namespace Datum

/-- The disjunction of values, from the first one on; none of no values is true. -/
def disjunction : List Value → Value
  | [] => .boolean false
  | v :: vs => vs.foldl Datum.or v

/-- A value or its negation. -/
def negatedIf (negated : Bool) (v : Value) : Value := if negated then v.not else v

theorem or_eq_true {v w : Value} :
    v.or w = .boolean true ↔ v = .boolean true ∨ w = .boolean true := by
  cases v with
  | boolean a => cases w with
    | boolean b => cases a <;> cases b <;> simp [Datum.or, asBool?]
    | _ => cases a <;> simp [Datum.or, asBool?]
  | _ => cases w with
    | boolean b => cases b <;> simp [Datum.or, asBool?]
    | _ => simp [Datum.or, asBool?]

theorem or_eq_false {v w : Value} :
    v.or w = .boolean false ↔ v = .boolean false ∧ w = .boolean false := by
  cases v with
  | boolean a => cases w with
    | boolean b => cases a <;> cases b <;> simp [Datum.or, asBool?]
    | _ => cases a <;> simp [Datum.or, asBool?]
  | _ => cases w with
    | boolean b => cases b <;> simp [Datum.or, asBool?]
    | _ => simp [Datum.or, asBool?]

theorem foldl_or_eq_true {v : Value} {vs : List Value} :
    vs.foldl Datum.or v = .boolean true ↔ ∃ w ∈ v :: vs, w = .boolean true := by
  induction vs generalizing v with
  | nil => simp [eq_comm]
  | cons w vs ih =>
    rw [List.foldl_cons, ih, List.exists_mem_cons_iff, or_eq_true, List.exists_mem_cons_iff,
      List.exists_mem_cons_iff, or_assoc]

theorem foldl_or_eq_false {v : Value} {vs : List Value} :
    vs.foldl Datum.or v = .boolean false ↔ ∀ w ∈ v :: vs, w = .boolean false := by
  induction vs generalizing v with
  | nil => simp
  | cons w vs ih =>
    rw [List.foldl_cons, ih, List.forall_mem_cons, or_eq_false, List.forall_mem_cons,
      List.forall_mem_cons, and_assoc]

/-- A disjunction is true where one of the values is. -/
theorem disjunction_eq_true {vs : List Value} :
    disjunction vs = .boolean true ↔ ∃ v ∈ vs, v = .boolean true := by
  cases vs with
  | nil => simp [disjunction]
  | cons v vs => exact foldl_or_eq_true

/-- A disjunction is false where all of the values are. -/
theorem disjunction_eq_false {vs : List Value} :
    disjunction vs = .boolean false ↔ ∀ v ∈ vs, v = .boolean false := by
  cases vs with
  | nil => simp [disjunction]
  | cons v vs => exact foldl_or_eq_false

theorem not_eq_true {v : Value} : v.not = .boolean true ↔ v = .boolean false := by
  cases v with
  | boolean b => cases b <;> simp [Datum.not, asBool?, ofBool?]
  | _ => simp [Datum.not, asBool?, ofBool?]

end Datum

/-! ### Fragments -/

namespace Fragment.Gives

variable {natives : Natives} {input t v : Value} {g r : Fragment} {e e' : Draft} {subject : Ty}

/-- Code that does something with the value under test and the value of a part. -/
theorem of_tested (hg : g.Gives natives ⟨input, some t, []⟩ e.constants v)
    (whole : Code → Code) (f : Value → Value)
    (hsimplify : ∀ pool c, (whole c).simplify pool Number.defaultPrecision =
      whole (c.simplify pool Number.defaultPrecision))
    (hdenote : ∀ m c, (∀ site, Code.denote m c site ⟨input, some t, []⟩ = .ok v) →
      ∀ site, (whole c).denote m site ⟨input, some t, []⟩ = .ok (f v)) :
    (computed (whole g.code) .boolean).Gives natives ⟨input, some t, []⟩ e.constants (f v) := by
  refine of_computed fun pool' hpool site => ?_
  rw [hsimplify]
  exact hdenote _ _ (hg.denote pool' hpool) site

/-- The equality of the value under test with a value, which is asked of values that equal
themselves. -/
theorem equality (op : Operator) (hself : t.equal t = true)
    (hg : g.Gives natives ⟨input, some t, []⟩ e.constants v)
    (h : (Fragment.equality {} op (.computed .testInput subject) g).emit e = .ok (r, e')) :
    e' = e ∧ r.Gives natives ⟨input, some t, []⟩ e.constants (t.equality v (op == .ne)) := by
  unfold Fragment.equality at h
  dsimp only at h
  split at h
  · next hsame =>
    -- an operand that is the value under test itself
    have hcode : g.code = .testInput := Lower.eq_of_same_testInput hsame
    have hv : v = t := by
      have hdenote := hg.denote e.constants (List.prefix_refl _) []
      rw [hcode] at hdenote
      exact (Except.ok.inj hdenote).symm
    have hvalue : t.equality v (op == .ne) = .boolean !(op == .ne) := by
      rw [hv, Datum.equality, hself, Bool.true_bne]
    rw [hvalue]
    exact of_truth (.inl ⟨_, rfl⟩) h
  · cases h
    have hequal := hg.of_tested
      (.equal (equalMode (.computed .testInput subject) g) (op == .ne) .testInput)
      (fun v => t.equality v (op == .ne)) (fun _ _ => rfl)
      fun m c hc site => bind_eq_ok.mpr ⟨t, rfl, bind_eq_ok.mpr ⟨v, hc _, rfl⟩⟩
    exact ⟨rfl, hequal.denote, (fun w hw => by cases hw), fun _ => ⟨_, rfl⟩⟩

/-- A comparison of the value under test with a value. -/
theorem compares {op : Operator} (hop : op.isComparison = true) (hself : t.equal t = true)
    (hg : g.Gives natives ⟨input, some t, []⟩ e.constants v) {span : Span}
    (h : Fragment.binary {} span op (.computed .testInput subject) g e = .ok (r, e')) :
    e' = e ∧ r.Gives natives ⟨input, some t, []⟩ e.constants
      (UnaryTest.verdict subject t ⟨.compares op, g.type, v⟩) := by
  cases hordering : op.isOrdering with
  | false =>
    have hequality : op.isEquality = true := by
      rwa [Operator.isComparison, hordering, Bool.false_or] at hop
    have hrule : outcome? {} op (.computed .testInput subject) g =
        some (Fragment.equality {} op (.computed .testInput subject) g) := if_pos hequality
    have hverdict : UnaryTest.verdict subject t ⟨.compares op, g.type, v⟩ =
        t.equality v (op == .ne) := by
      simp [UnaryTest.verdict, Datum.compared, hordering]
    rw [Fragment.binary, hrule] at h
    rw [hverdict]
    exact equality op hself hg h
  | true =>
    have hequality : op.isEquality = false := by cases op <;> first | rfl | cases hordering
    have hlogic : op.isLogic = false := by cases op <;> first | rfl | cases hordering
    cases hcomparable : subject.comparable g.type with
    | true =>
      have hrule : outcome? {} op (.computed .testInput subject) g =
          some (comparison {} op (.computed .testInput subject) g) := by
        simp [outcome?, Operator.resultType, hequality, hlogic, hordering, hcomparable, computed,
          Ty.isBoolean]
      have hverdict : UnaryTest.verdict subject t ⟨.compares op, g.type, v⟩ =
          Datum.compareAs op (compareMode subject g.type) t v := by
        simp [UnaryTest.verdict, Datum.compared, hordering, hcomparable]
      rw [Fragment.binary, hrule] at h
      cases h
      rw [hverdict]
      exact ⟨rfl, hg.of_tested (.compare op (compareMode subject g.type) .testInput)
        (Datum.compareAs op (compareMode subject g.type) t) (fun _ _ => rfl)
        fun m c hc site => bind_eq_ok.mpr ⟨t, rfl, bind_eq_ok.mpr ⟨v, hc _, rfl⟩⟩⟩
    | false =>
      -- types that have no order are not of anything
      have hknown : subject.isAny = false ∧ g.type.isAny = false := by
        constructor
        · cases subject <;> first | rfl | cases hcomparable
        · cases hany : g.type with
          | any => cases subject <;> rw [hany] at hcomparable <;> cases hcomparable
          | _ => rfl
      have hrule : outcome? {} op (.computed .testInput subject) g = none := by
        simp [outcome?, Operator.resultType, hequality, hlogic, hordering, hcomparable, computed,
          Ty.isBoolean]
      have hverdict : UnaryTest.verdict subject t ⟨.compares op, g.type, v⟩ = .null := by
        simp [UnaryTest.verdict, hordering, hcomparable]
      rw [Fragment.binary, hrule] at h
      simp only [Operator.resultType, hequality, hlogic, hordering, computed, hcomparable,
        hknown] at h
      cases h
      rw [hverdict]
      exact ⟨rfl, fun _ _ _ => rfl, fun _ => Option.some.inj, fun hproven => by cases hproven⟩

/-- A value as a test of the value under test. -/
theorem accepts (hself : t.equal t = true)
    (hg : g.Gives natives ⟨input, some t, []⟩ e.constants v) {span : Span}
    (h : Lower.matching {} span subject g e = .ok (r, e')) :
    e' = e ∧ r.Gives natives ⟨input, some t, []⟩ e.constants
      (UnaryTest.verdict subject t ⟨.accepts, g.type, v⟩) := by
  have hequal : Fragment.binary {} span .eq (.computed .testInput subject) g e = .ok (r, e') →
      e' = e ∧ r.Gives natives ⟨input, some t, []⟩ e.constants (t.equality v false) :=
    equality .eq hself hg
  have hlist : (computed (.listContains g.code .testInput) .boolean).Gives natives
      ⟨input, some t, []⟩ e.constants (Action.listContains v t) :=
    hg.of_tested (.listContains · .testInput) (Action.listContains · t) (fun _ _ => rfl)
      fun m c hc site => bind_eq_ok.mpr ⟨v, hc _, bind_eq_ok.mpr ⟨t, rfl, rfl⟩⟩
  have hrange : (computed (.rangeContains g.code .testInput) .boolean).Gives natives
      ⟨input, some t, []⟩ e.constants (Action.rangeContains v t) :=
    hg.of_tested (.rangeContains · .testInput) (Action.rangeContains · t) (fun _ _ => rfl)
      fun m c hc site => bind_eq_ok.mpr ⟨v, hc _, bind_eq_ok.mpr ⟨t, rfl, rfl⟩⟩
  have hmatch : (computed (.unaryMatch g.code) .boolean).Gives natives
      ⟨input, some t, []⟩ e.constants (Action.matchTest v t) :=
    hg.of_tested .unaryMatch (Action.matchTest · t) (fun _ _ => rfl)
      fun m c hc site => bind_eq_ok.mpr ⟨v, hc _, rfl⟩
  unfold Lower.matching at h
  dsimp only at h
  revert h
  cases g.type with
  | list element =>
    intro h
    cases hsubject : subject.isList with
    | true =>
      rw [hsubject] at h
      simpa [UnaryTest.verdict, hsubject] using hequal h
    | false =>
      rw [hsubject] at h
      cases h
      simpa [UnaryTest.verdict, hsubject] using hlist
  | range element si ei =>
    intro h
    cases h
    exact ⟨rfl, hrange⟩
  | boolean =>
    intro h
    cases hany : subject.isAny with
    | true =>
      rw [hany] at h
      cases h
      simpa [UnaryTest.verdict, hany] using hmatch
    | false =>
      rw [hany] at h
      cases hsubject : subject.isBoolean with
      | true =>
        rw [hsubject] at h
        simpa [UnaryTest.verdict, hany, hsubject] using hequal h
      | false =>
        rw [hsubject] at h
        cases h
        simpa [UnaryTest.verdict, hany, hsubject] using hg
  | any =>
    intro h
    cases h
    exact ⟨rfl, hmatch⟩
  | _ => exact hequal

/-- A negation. -/
theorem not {frame : Frame} {pool : List Value} (hg : g.Gives natives frame pool v) :
    (computed (.not g.code) .boolean).Gives natives frame pool v.not := by
  refine of_computed fun pool' hpool site => ?_
  exact Code.map_refines_onConstant (m := .ofPool natives pool' _) (.refl _) rfl site frame _ trivial
    (bind_eq_ok.mpr ⟨v, hg.denote pool' hpool _, rfl⟩)

end Fragment.Gives

/-! ### Tests in a scope -/

/-- The operand of a unary test is compiled alone in a scope, as an operand is, and its program
gives a value. -/
inductive Surface.TestGives (K : Value → Prop) (S : Scope) (source : String) (natives : Natives)
    (input : Value) (test : Option Value) : Surface → UnaryTest → Prop
  /-- A test that speaks of the value under test, or a dash. -/
  | holds {s : Surface} {term : Term} {p : Program} {v : Value}
      (hterm : Term.ofSurface source s S = .ok term) (hcomplete : term.isCompleteTest = true)
      (hs : S.Operand K source s) (hp : Program.ofTree {} S source s = .ok p)
      (hv : p.run natives input test = .ok v) :
      TestGives K S source natives input test s ⟨.holds, p.resultType, v⟩
  | compares {op : Operator} {value : Surface} {span : Span} {comments : List String}
      {p : Program} {v : Value} (hop : op.isComparison = true) (hs : S.Operand K source value)
      (hp : Program.ofTree {} S source value = .ok p) (hv : p.run natives input test = .ok v) :
      TestGives K S source natives input test (.node (.comparison op value) span comments)
        ⟨.compares op, p.resultType, v⟩
  | accepts {s : Surface} {term : Term} {p : Program} {v : Value}
      (hterm : Term.ofSurface source s S = .ok term) (hcomplete : term.isCompleteTest = false)
      (hs : S.Operand K source s) (hp : Program.ofTree {} S source s = .ok p)
      (hv : p.run natives input test = .ok v) :
      TestGives K S source natives input test s ⟨.accepts, p.resultType, v⟩

/-! ### Operands without the value under test -/

/-- The tree whose value a test asks for: the other side of a comparison, or the test itself. -/
def UnaryTest.operand (u : UnaryTest) (s : Surface) : Surface :=
  match u.use, s.form with
  | .compares _, .comparison _ value => value
  | _, _ => s

/-- The operand of a test has a term where there is no value under test, and does not speak of
it. -/
def UnaryTest.StandsAlone (S : Scope) (source : String) (s : Surface) (u : UnaryTest) : Prop :=
  ∃ term, Term.ofSurface source (u.operand s) (S.testing none) = .ok term ∧ term.Untested

section StandsAlone

variable {K : Value → Prop} {S : Scope} {source : String} {s : Surface} {term : Term} {T U : Ty}

/-- It has the same term for all types of the value under test. -/
theorem Term.ofSurface_withTest (h : ofSurface source s (S.testing none) = .ok term) (T : Ty) :
    ofSurface source s (S.withTest T) = .ok term :=
  ofSurface_kept source s (S.testing none) term (some T) S.options.folding (.inr rfl) h

theorem Scope.Operand.retyped (hterm : Term.ofSurface source s (S.testing none) = .ok term)
    (h : (S.withTest T).Operand K source s) : (S.withTest U).Operand K source s := by
  intro term' hterm'
  cases (Term.ofSurface_withTest hterm U).symm.trans hterm'
  obtain ⟨hmovable, hmarks⟩ := h term (Term.ofSurface_withTest hterm T)
  exact ⟨hmovable.imp fun _ h => ⟨h.firstOrder, h.known⟩, hmarks⟩

theorem Program.ofTree_retyped (hterm : Term.ofSurface source s (S.testing none) = .ok term)
    (huntested : term.Untested) (T U : Ty) :
    ofTree {} (S.withTest T) source s = ofTree {} (S.withTest U) source s := by
  have hlowered (T : Ty) : Fragment.ofTerm term (S.withTest T) = Fragment.ofTerm term S :=
    huntested.lower.1 S (some T)
  unfold ofTree Fragment.ofWarnedTerm
  rw [Term.ofSurface_withTest hterm T, Term.ofSurface_withTest hterm U]
  dsimp only [bind, Except.bind]
  rw [hlowered T, hlowered U]
  rfl

/-- So its program gives one value for all of them. -/
theorem Surface.TestGives.retyped {natives : Natives} {input : Value} {test : Option Value}
    {u : UnaryTest} (halone : u.StandsAlone S source s)
    (h : s.TestGives K (S.withTest T) source natives input test u) :
    s.TestGives K (S.withTest U) source natives input test u := by
  obtain ⟨term, hterm, huntested⟩ := halone
  have hprogram := Program.ofTree_retyped hterm huntested T U
  cases h with
  | holds hterm' hcomplete hs hp hv =>
    cases (Term.ofSurface_withTest hterm T).symm.trans hterm'
    exact .holds (Term.ofSurface_withTest hterm U) hcomplete (hs.retyped hterm) (hprogram ▸ hp) hv
  | compares hop hs hp hv => exact .compares hop (hs.retyped hterm) (hprogram ▸ hp) hv
  | accepts hterm' hcomplete hs hp hv =>
    cases (Term.ofSurface_withTest hterm T).symm.trans hterm'
    exact .accepts (Term.ofSurface_withTest hterm U) hcomplete (hs.retyped hterm) (hprogram ▸ hp) hv

end StandsAlone

namespace Surface

/-- Whether unary tests are negated, and each of them. What is no list of tests is one test. -/
def tests (s : Surface) : Bool × List Surface :=
  match s.form with
  | .tests negated tests => (negated, tests)
  | _ => (false, [s])

end Surface

/-- Parts that are elaborated in order are elaborated one by one. -/
theorem Elaboration.forall₂_all {source : String} {S : Scope} {ss : List Surface}
    {ts : List Term} (h : Elaboration.all S (Term.ofList source ss) = .ok ts) :
    List.Forall₂ (fun s t => Term.ofSurface source s S = .ok t) ss ts := by
  rw [Term.ofList_eq_map, all_eq_ok_iff, List.forall₂_map_left_iff] at h
  exact h

/-- The term of unary tests. -/
theorem Term.of_ofTests {source : String} {tree : Surface} {S : Scope} {term : Term}
    (h : Term.ofTests source tree S = .ok term) :
    ∃ terms type span comments warnings,
      term = .node (.tests tree.tests.1 terms) type span comments warnings ∧
        List.Forall₂ (fun s t => Term.ofSurface source s S = .ok t) tree.tests.2 terms := by
  obtain ⟨form, span, comments⟩ := tree
  obtain ⟨whole, hwhole, h⟩ := bind_eq_ok.mp h
  cases form with
  | tests negated tests =>
    obtain ⟨list, hlist, hwhole⟩ := bind_eq_ok.mp hwhole
    obtain ⟨terms, hterms, hlist⟩ := bind_eq_ok.mp hlist
    cases hlist
    cases hwhole
    cases h
    exact ⟨terms, _, _, _, _, rfl, Elaboration.forall₂_all hterms⟩
  | _ =>
    cases h
    exact ⟨[whole], _, _, _, _, rfl, .cons hwhole .nil⟩

namespace Lowering

/-- A step that pools nothing. -/
theorem Keeps.still {α : Type} {K : Value → Prop} {pool : List Value} {x : Lowering α}
    {P : α → List Value → Prop} (h : ∀ d a d', pool <+: d.constants → x d = .ok (a, d') →
      d' = d ∧ P a d.constants) : Keeps K pool x P := by
  intro d a d' hd hpool hx
  obtain ⟨rfl, ha⟩ := h d a d' hpool hx
  exact ⟨List.prefix_refl _, hd, ha⟩

end Lowering

namespace Lower

open Lowering (Keeps)

variable {K : Value → Prop} {S : Scope} {source : String} {natives : Natives} {input t : Value}
  {pool : List Value}

/-- What a test is lowered to gives its verdict. -/
theorem keeps_test (hS : S.Standard) (hK : ToldApart K) (hself : t.equal t = true) {s : Surface}
    {u : UnaryTest} (h : s.TestGives K S source natives input (some t) u) {term : Term}
    (hterm : Term.ofSurface source s S = .ok term) :
    Keeps K pool (test S ⟨term.isCompleteTest, term.span, Fragment.ofTerm term⟩) fun g pool' =>
      g.Gives natives ⟨input, some t, []⟩ pool' (u.verdict (subjectType S) t) := by
  have hoperand : ∀ {s : Surface} {term : Term} {p : Program} {v : Value} {pool : List Value},
      Term.ofSurface source s S = .ok term → S.Operand K source s →
      Program.ofTree {} S source s = .ok p → p.run natives input (some t) = .ok v →
      Keeps K pool (Fragment.ofTerm term S) fun g pool' => g.type = p.resultType ∧
        g.Gives natives ⟨input, some t, []⟩ pool' v := by
    intro s term p v pool hterm hs hp hv e g e' he _ hg
    obtain ⟨term', f, d, hterm', hf, rfl⟩ := Program.of_ofTree hp
    cases hterm.symm.trans hterm'
    obtain ⟨hgrow, he', hruns⟩ := Program.OperandRuns.of_lowered hS hK hs hterm hf he hg hv
    obtain ⟨shift, hmoved⟩ := hruns.moved
    exact ⟨hgrow, he', hmoved.type, hruns.gives hS⟩
  cases h with
  | holds hterm' hcomplete hs hp hv =>
    cases hterm.symm.trans hterm'
    refine .bind (hoperand hterm hs hp hv) fun g pool₁ _ ⟨_, hg⟩ => ?_
    rw [hcomplete]
    exact .pure fun pool₂ hpool => hg.extend hpool
  | @compares op value span comments p v hop hs hp hv =>
    obtain ⟨form, hform, hterm⟩ := bind_eq_ok.mp hterm
    obtain ⟨tv, htv, hform⟩ := bind_eq_ok.mp hform
    obtain ⟨subject, hsubject, hform⟩ := bind_eq_ok.mp hform
    cases hform
    cases hterm
    have hcomparison : Keeps K pool (comparison op (Fragment.ofTerm tv) span S) fun g pool' =>
        g.Gives natives ⟨input, some t, []⟩ pool'
          (UnaryTest.verdict (subjectType S) t ⟨.compares op, p.resultType, v⟩) := by
      refine .bind (hoperand htv hs hp hv) fun g pool₁ _ ⟨htype, hg⟩ => ?_
      rw [← htype, hS.options]
      exact .still fun d r d' hpool hr => (hg.extend hpool).compares hop hself hr
    exact hcomparison.bind fun g pool₁ _ hg => .pure fun pool₂ hpool => hg.extend hpool
  | accepts hterm' hcomplete hs hp hv =>
    cases hterm.symm.trans hterm'
    refine .bind (hoperand hterm hs hp hv) fun g pool₁ _ ⟨htype, hg⟩ => ?_
    rw [hcomplete, ← htype, hS.options]
    exact .still fun d r d' hpool hr => (hg.extend hpool).accepts hself hr

/-- What later tests are added to gives the disjunction. -/
theorem keeps_anyOf (hS : S.Standard) {parts : List TestPart} {vs : List Value}
    (hparts : List.Forall₂ (fun part v => ∀ pool, Keeps K pool (test S part) fun g pool' =>
      g.Gives natives ⟨input, some t, []⟩ pool' v) parts vs) (span : Span) {first : Fragment}
    {v : Value} (hfirst : first.Gives natives ⟨input, some t, []⟩ pool v) :
    Keeps K pool (anyOf S span first parts) fun g pool' =>
      g.Gives natives ⟨input, some t, []⟩ pool' (vs.foldl Datum.or v) := by
  induction hparts generalizing pool first v with
  | nil => exact .pure fun pool' hpool => hfirst.extend hpool
  | @cons part w parts ws hpart _ ih =>
    refine .bind (hpart pool) fun next pool₁ hpool₁ hnext => ?_
    refine .bind (P := fun g pool' => g.Gives natives ⟨input, some t, []⟩ pool' (v.or w))
      (.still fun d g d' hpool₂ hg => ?_) fun both pool₂ _ hboth => ih hboth
    rw [hS.options] at hg
    exact ((hfirst.extend hpool₁).extend hpool₂).connective (hnext.extend hpool₂) hg

/-- What tests are lowered to gives the disjunction of what each of them gives, or its negation. -/
theorem keeps_tests (hS : S.Standard) {parts : List TestPart} {vs : List Value}
    (hparts : List.Forall₂ (fun part v => ∀ pool, Keeps K pool (test S part) fun g pool' =>
      g.Gives natives ⟨input, some t, []⟩ pool' v) parts vs) (negated : Bool) (span : Span) :
    Keeps K pool (tests negated parts span S) fun g pool' =>
      g.Gives natives ⟨input, some t, []⟩ pool'
        (Datum.negatedIf negated (Datum.disjunction vs)) := by
  have hwhole : Keeps K pool (disjunction S span parts) fun g pool' =>
      g.Gives natives ⟨input, some t, []⟩ pool' (Datum.disjunction vs) := by
    cases hparts with
    | nil => exact .still fun d g d' _ hg => Fragment.Gives.of_truth (.inl ⟨_, rfl⟩) hg
    | cons hpart hparts =>
      exact .bind (hpart pool) fun first pool₁ _ hfirst => keeps_anyOf hS hparts span hfirst
  refine .bind hwhole fun whole pool₁ hpool₁ hgives => ?_
  cases negated with
  | false => exact .pure fun pool₂ hpool => hgives.extend hpool
  | true =>
    simp only [hS.options, Datum.negatedIf, Bool.not_true, Bool.false_eq_true, if_false, if_true]
    split
    · next v hv =>
      rw [hgives.known v (Fragment.constant_of_value? hv)]
      exact .still fun d g d' _ hg => Fragment.Gives.of_truth (Fragment.ofBool?_cases _) hg
    · exact .pure fun pool₂ hpool => (hgives.extend hpool).not

end Lower

/-! ### Programs -/

/-- The steps from the text of unary tests to their program. -/
theorem Program.of_ofTests {entry : EntryPoint} {S : Scope} {source : String} {tree : Surface}
    {p : Program} (htree : Surface.parseTests source S.knownNames = .ok tree)
    (h : ofTests entry S source = .ok p) :
    ∃ term f d, Term.ofTests source tree (testScope S) = .ok term ∧
      Fragment.ofWarnedTerm term (testScope S) {} = .ok (f, d) ∧
        p = ofFragment entry .unaryTest source none S.options f d := by
  have hlowered : (Fragment.ofTestsText source (testScope S)).run {} =
      (liftM (Term.ofTests source tree (testScope S)) >>= fun term =>
        Fragment.ofWarnedTerm term (testScope S) : Lowering Fragment) {} := by
    unfold Fragment.ofTestsText Fragment.testsTree
    rw [show (testScope S).knownNames = S.knownNames from rfl, htree]
    rfl
  unfold ofTests at h
  rw [hlowered] at h
  cases hterm : Term.ofTests source tree (testScope S) with
  | error e =>
    rw [hterm] at h
    cases h
  | ok term =>
    rw [hterm] at h
    obtain ⟨⟨f, d⟩, hf, hp⟩ := bind_eq_ok.mp h
    exact ⟨term, f, d, rfl, hf, (pure_eq_ok.mp hp).symm⟩

/-- **Unary tests.** The program of unary tests of a value that equals itself gives the disjunction
of what each test makes of the value of its operand, or the negation of it. -/
theorem Program.run_tests {K : Value → Prop} (hK : ToldApart K) {entry : EntryPoint} {S : Scope}
    (hS : S.Standard) {source : String} {tree : Surface}
    (htree : Surface.parseTests source S.knownNames = .ok tree) {subject : Ty} {p : Program}
    (hp : ofTests entry (S.withTest subject) source = .ok p) {natives : Natives} {input t : Value}
    (hself : t.equal t = true) {tested : List UnaryTest}
    (htests : List.Forall₂
      (Surface.TestGives K (S.withTest subject) source natives input (some t))
      tree.tests.2 tested) :
    p.run natives input (some t) = .ok (Datum.negatedIf tree.tests.1
      (Datum.disjunction (tested.map (UnaryTest.verdict subject t)))) := by
  have hS' : (S.withTest subject).Standard := ⟨hS.options, hS.libraries⟩
  obtain ⟨term, g, e, hterm, hg, rfl⟩ := of_ofTests (S := S.withTest subject) htree hp
  obtain ⟨terms, type, span, comments, warnings, rfl, hterms⟩ := Term.of_ofTests hterm
  have hparts : List.Forall₂ (fun part v => ∀ pool, Lowering.Keeps K pool
      (Lower.test (S.withTest subject) part) fun g pool' =>
        g.Gives natives ⟨input, some t, []⟩ pool' v)
      (Fragment.ofTests terms) (tested.map (UnaryTest.verdict subject t)) := by
    clear hg hp htree hterm
    generalize tree.tests.2 = ss at hterms htests
    induction hterms generalizing tested with
    | nil =>
      cases htests
      exact .nil
    | cons hterm _ ih =>
      obtain ⟨u, us, hu, hus, rfl⟩ := List.forall₂_cons_left_iff.mp htests
      exact .cons (fun pool => Lower.keeps_test hS' hK hself hu hterm) (ih hus)
  -- the draft holds the warnings and no constants yet
  obtain ⟨d, hd, hg⟩ : ∃ d : Draft, d.Faithful K ∧ Lower.tests tree.tests.1
      (Fragment.ofTests terms) span (S.withTest subject) d = .ok (g, e) :=
    ⟨Draft.warn {} _, ⟨nofun, List.nodup_nil⟩, hg⟩
  obtain ⟨-, -, hgives⟩ := Lower.keeps_tests hS' hparts tree.tests.1 span d g e hd
    List.nil_prefix hg
  rw [show (S.withTest subject).options = {} from hS.options]
  exact run_of_gives hgives

/-! ## With and without the type of the value under test -/

/-! ### Values and types -/

namespace Datum

variable {t w : Value}

/-- Only booleans are of the type of booleans. -/
theorem CarriesFunctionType.of_boolean (h : t.CarriesFunctionType) (htype : t.type = .boolean) :
    ∃ b, t = .boolean b := by
  cases t with
  | boolean b => exact ⟨b, rfl⟩
  | function f =>
    obtain ⟨ps, names, r, hf⟩ := h f rfl
    exact absurd (hf.symm.trans htype) nofun
  | list items =>
    unfold Datum.type at htype
    split at htype <;> cases htype
  | _ => cases htype

/-- Values of types without an order have none, but for instants that were joined with times. -/
theorem order?_eq_none {type : Ty} (hfits : Fits w type) (h : t.type.comparable type = false)
    (htime : type = .time → ¬ (t.type = .date ∨ t.type = .dateTime)) : t.order? w = none := by
  cases hfits with
  | dateTimeAsTime i =>
    cases t with
    | date d => exact absurd (.inl rfl) (htime rfl)
    | dateTime d => exact absurd (.inr rfl) (htime rfl)
    | _ => rfl
  | _ => cases t <;> first | rfl | cases h

end Datum

theorem Datum.compareAs_of_ne {op : Operator} {mode : CompareMode} (h : mode ≠ .double)
    (v w : Value) : compareAs op mode v w = compare op v w := by
  cases mode with
  | double => exact absurd rfl h
  | _ => rfl

/-- Only numbers are compared as binary64 numbers. -/
theorem Fragment.compareMode_eq_double {l r : Ty} (h : compareMode l r = .double) :
    (∃ k, l = .number k) ∧ ∃ k, r = .number k := by
  have hnumber : ∀ {t : Ty}, t.isNumber = true → ∃ k, t = .number k := by
    intro t ht
    cases t <;> first | exact ⟨_, rfl⟩ | cases ht
  unfold compareMode at h
  split at h
  · cases h
  · next hnumbers =>
    simp only [Bool.or_eq_true, Bool.not_eq_true', not_or, Bool.not_eq_false] at hnumbers
    exact ⟨hnumber hnumbers.1, hnumber hnumbers.2⟩

/-! ### Verdicts -/

namespace UnaryTest

/-- The type of the value under test makes no difference to whether a test gives `b`.

* Orders: binary64 numbers are ordered as the numbers that are compared, and an instant that passes
  for a time is not asked for its order to a date.
* Lists: a list is an element of a list where it is equal to it.
* Conditions: one that is null is not taken for an equality with null. -/
def Agrees (b : Bool) (t : Value) (u : UnaryTest) : Prop :=
  match u.use with
  | .holds => True
  | .compares op =>
    op.isOrdering = true →
      (Fragment.compareMode t.type u.type = .double →
        (Datum.compareAs op .double t u.value = .boolean b ↔
          Datum.compare op t u.value = .boolean b)) ∧
      (u.type = .time → t.type = .date ∨ t.type = .dateTime →
        Datum.compare op t u.value ≠ .boolean b)
  | .accepts =>
    match u.type with
    | .list _ =>
      t.type.isList = true →
        (t.equality u.value false = .boolean b ↔ Action.listContains u.value t = .boolean b)
    | .boolean => u.value = .null → if b then t ≠ .null else t = .null ∨ t.type = .boolean
    | _ => True

variable {t : Value} {u : UnaryTest} {b : Bool}

/-- An order that is asked of a value of a known type. -/
theorem compares_iff {op : Operator} {type : Ty} {w : Value} (hfits : Fits w type) :
    (verdict t.type t ⟨.compares op, type, w⟩ = .boolean b ↔
      verdict .any t ⟨.compares op, type, w⟩ = .boolean b) ↔
        Agrees b t ⟨.compares op, type, w⟩ := by
  cases hordering : op.isOrdering with
  | false => simp [verdict, Agrees, Datum.compared, hordering]
  | true =>
    have huntyped : verdict .any t ⟨.compares op, type, w⟩ = Datum.compare op t w := by
      have hany : Ty.any.comparable type = true := by cases type <;> rfl
      simp [verdict, Datum.compared, hordering, hany]
      rfl
    simp only [huntyped, Agrees, hordering, true_implies]
    cases hcomparable : t.type.comparable type with
    | true =>
      have htyped : verdict t.type t ⟨.compares op, type, w⟩ =
          Datum.compareAs op (Fragment.compareMode t.type type) t w := by
        simp [verdict, Datum.compared, hordering, hcomparable]
      have htime : type = .time → t.type = .date ∨ t.type = .dateTime →
          Datum.compare op t w ≠ .boolean b := by
        rintro rfl hdate
        rcases hdate with hdate | hdate <;> rw [hdate] at hcomparable <;> cases hcomparable
      rw [htyped, and_iff_left htime]
      by_cases hmode : Fragment.compareMode t.type type = .double
      · simp [hmode]
      · simp [hmode, Datum.compareAs_of_ne hmode]
    | false =>
      have htyped : verdict t.type t ⟨.compares op, type, w⟩ = .null := by
        simp [verdict, hordering, hcomparable]
      have hmode : Fragment.compareMode t.type type ≠ .double := by
        intro hmode
        obtain ⟨⟨k, hk⟩, k', rfl⟩ := Fragment.compareMode_eq_double hmode
        rw [hk] at hcomparable
        cases hcomparable
      by_cases htime : type = .time ∧ (t.type = .date ∨ t.type = .dateTime)
      · obtain ⟨rfl, hdate⟩ := htime
        simp [htyped, hmode, hdate]
      · have hnone : Datum.compare op t w = .null := by
          rw [Datum.compare, Datum.order?_eq_none hfits hcomparable fun h hdate => htime ⟨h, hdate⟩]
          rfl
        simp [htyped, hmode, hnone]

/-- A condition as a test of a value. -/
theorem condition_iff (ht : t.CarriesFunctionType) {w : Value} (hfits : Fits w .boolean) :
    (verdict t.type t ⟨.accepts, .boolean, w⟩ = .boolean b ↔
      verdict .any t ⟨.accepts, .boolean, w⟩ = .boolean b) ↔
        Agrees b t ⟨.accepts, .boolean, w⟩ := by
  have hany : t.type.isAny = false := Datum.type_isAny ht
  cases hboolean : t.type.isBoolean with
  | true =>
    have htype : t.type = .boolean := by
      cases htype : t.type <;> rw [htype] at hboolean <;> first | rfl | cases hboolean
    obtain ⟨c, rfl⟩ := ht.of_boolean htype
    cases hfits with
    | null =>
      cases b <;> simp [verdict, Agrees, Action.matchTest, Datum.type, Ty.isAny, Ty.isBoolean]
    | boolean x => simp [verdict, Agrees, Action.matchTest, Datum.type, Ty.isAny, Ty.isBoolean]
  | false =>
    have htype : t.type ≠ .boolean := by
      intro htype
      rw [htype] at hboolean
      cases hboolean
    have htyped : verdict t.type t ⟨.accepts, .boolean, w⟩ = w := by
      simp [verdict, hany, hboolean]
    have huntyped : verdict .any t ⟨.accepts, .boolean, w⟩ = Action.matchTest w t := rfl
    rw [htyped, huntyped]
    cases hfits with
    | boolean x =>
      have hmatch : Action.matchTest (.boolean x) t = .boolean x := by
        cases t with
        | boolean c => exact absurd rfl htype
        | _ => rfl
      simp [hmatch, Agrees]
    | null =>
      have hmatch : Action.matchTest .null t = .boolean t.isNull := by
        cases t <;> simp [Action.matchTest, Datum.equality, Datum.equal, Datum.same, Datum.isNull]
      rw [hmatch]
      cases b <;> simp [Agrees, htype, ← Code.isNull_iff]

/-- **The type of the value under test makes a difference to no other tests.** -/
theorem verdict_eq_iff (ht : t.CarriesFunctionType) (hfits : Fits u.value u.type) :
    (u.verdict t.type t = .boolean b ↔ u.verdict .any t = .boolean b) ↔ u.Agrees b t := by
  obtain ⟨use, type, w⟩ := u
  cases use with
  | holds => exact iff_of_true .rfl .intro
  | compares op => exact compares_iff hfits
  | accepts =>
    cases type with
    | list element =>
      have hany : Ty.any.isList = false := rfl
      cases hlist : t.type.isList <;> simp [verdict, Agrees, hlist, hany]
    | boolean => exact condition_iff ht hfits
    | _ => exact iff_of_true .rfl .intro

end UnaryTest

/-! ### Programs -/

namespace Program

/-- Unary tests hold where one of the verdicts is true, and negated ones where all are false. -/
theorem holds_verdicts_iff {negated : Bool} {vs : List Value} :
    holds (.ok (Datum.negatedIf negated (Datum.disjunction vs))) = true ↔
      if negated then ∀ v ∈ vs, v = .boolean false else ∃ v ∈ vs, v = .boolean true := by
  cases negated with
  | false => exact Code.isBool_iff.trans Datum.disjunction_eq_true
  | true =>
    exact Code.isBool_iff.trans (Datum.not_eq_true.trans Datum.disjunction_eq_false)

/-- **Unary tests and the type of the value under test.** Let unary tests be compiled for the type
of a value and for any value, and let the operands of the tests give values. An operand that speaks
of the value under test has the same type and value either way; one that does not has anyway. Both
programs hold of the value alike where the type makes no difference to any of the tests. Of a single
test this is the only case in which they do. -/
theorem typed_tests_iff {K : Value → Prop} (hK : ToldApart K) {entry : EntryPoint} {S : Scope}
    (hS : S.Standard) {source : String} {tree : Surface}
    (htree : Surface.parseTests source S.knownNames = .ok tree) {t : Value}
    (hfunction : t.CarriesFunctionType) (hself : t.equal t = true) {p q : Program}
    (hp : ofTests entry (S.withTest t.type) source = .ok p)
    (hq : ofTests entry (S.withTest .any) source = .ok q) {natives : Natives} {input : Value}
    {tested : List UnaryTest}
    (htests : List.Forall₂
      (Surface.TestGives K (S.withTest t.type) source natives input (some t)) tree.tests.2 tested)
    (huntyped : List.Forall₂ (fun s u => ¬ u.StandsAlone S source s →
      s.TestGives K (S.withTest .any) source natives input (some t) u) tree.tests.2 tested)
    (hfits : ∀ u ∈ tested, Fits u.value u.type) :
    let alike : Prop :=
      holds (p.run natives input (some t)) = holds (q.run natives input (some t))
    ((∀ u ∈ tested, u.Agrees (!tree.tests.1) t) → alike) ∧
      ∀ u, tested = [u] → (alike ↔ u.Agrees (!tree.tests.1) t) := by
  intro alike
  have hany : List.Forall₂ (Surface.TestGives K (S.withTest .any) source natives input (some t))
      tree.tests.2 tested := by
    clear hfits
    generalize tree.tests.2 = ss at htests huntyped
    induction htests with
    | nil => exact .nil
    | @cons s u ss us h _ ih =>
      obtain ⟨hspeaks, hrest⟩ := List.forall₂_cons.mp huntyped
      refine .cons ?_ (ih hrest)
      by_cases halone : u.StandsAlone S source s
      · exact h.retyped halone
      · exact hspeaks halone
  have halike : alike ↔ ((if tree.tests.1 then ∀ u ∈ tested, u.verdict t.type t = .boolean false
      else ∃ u ∈ tested, u.verdict t.type t = .boolean true) ↔
        if tree.tests.1 then ∀ u ∈ tested, u.verdict .any t = .boolean false
        else ∃ u ∈ tested, u.verdict .any t = .boolean true) := by
    show holds _ = holds _ ↔ _
    rw [run_tests hK hS htree hp hself htests, run_tests hK hS htree hq hself hany,
      Bool.eq_iff_iff, holds_verdicts_iff, holds_verdicts_iff]
    simp only [List.mem_map, exists_exists_and_eq_and, forall_exists_index, and_imp,
      forall_apply_eq_imp_iff₂]
  have hverdict : ∀ u ∈ tested, ((u.verdict t.type t = .boolean (!tree.tests.1) ↔
      u.verdict .any t = .boolean (!tree.tests.1)) ↔ u.Agrees (!tree.tests.1) t) :=
    fun u hu => UnaryTest.verdict_eq_iff hfunction (hfits u hu)
  rw [halike]
  cases hnegated : tree.tests.1 with
  | false =>
    rw [hnegated] at hverdict
    refine ⟨fun h => exists_congr fun u => and_congr_right fun hu => ?_, ?_⟩
    · exact (hverdict u hu).mpr (h u hu)
    rintro u rfl
    simpa using hverdict u (List.mem_singleton_self u)
  | true =>
    rw [hnegated] at hverdict
    refine ⟨fun h => forall₂_congr fun u hu => (hverdict u hu).mpr (h u hu), ?_⟩
    rintro u rfl
    simpa using hverdict u (List.mem_singleton_self u)

/-- Whether a tree is a single unary test that is a name. -/
def isNameTest (name : String) : Surface → Bool
  | .node (.tests false [.node (.name name') _ _]) _ _ => name' == name
  | _ => false

/-- A list is tested against an input that is the same list: with the type of the value the two are
equal, without it the first is no element of the second. -/
theorem typed_tests_iff_list :
    let S : Scope := inputScope (.context [("xs", .list (.number .integer))])
    let t : Value := .list [.int 1]
    ∃ p q, ofTests {} (S.withTest t.type) "xs" = .ok p ∧ ofTests {} (S.withTest .any) "xs" = .ok q ∧
      holds (p.run (fun _ _ => .null) (.context [("xs", t)]) (some t)) ≠
        holds (q.run (fun _ _ => .null) (.context [("xs", t)]) (some t)) := by
  intro S t
  let natives : Natives := fun _ _ => .null
  let input : Value := .context [("xs", t)]
  let u : UnaryTest := ⟨.accepts, .list (.number .integer), t⟩
  let own : Program := ofFragment {} .expression "xs" none {}
    (.computed (.inputField "xs") (.list (.number .integer))) {}
  have hparse : (Surface.parseTests "xs" S.knownNames).toOption.map (isNameTest "xs") =
      some true := by decide +kernel
  obtain ⟨tree, htree, hform⟩ := exists_ok hparse
  unfold isNameTest at hform
  split at hform
  · next name span comments span' comments' =>
    rw [beq_iff_eq] at hform
    subst hform
    have htests : List.Forall₂
        (Surface.TestGives (fun _ => False) (S.withTest t.type) "xs" natives input (some t))
        [.node (.name "xs") span comments] [u] :=
      .cons (.accepts (p := own) rfl rfl (Scope.operand_of_forms rfl) rfl rfl) .nil
    -- a name does not speak of the value under test
    have halone : u.StandsAlone S "xs" (.node (.name "xs") span comments) :=
      ⟨_, rfl, .intro rfl nofun⟩
    have hp : ((ofTests {} (S.withTest t.type) "xs").toOption.map fun _ => ()) = some () := by
      decide +kernel
    have hq : ((ofTests {} (S.withTest .any) "xs").toOption.map fun _ => ()) = some () := by
      decide +kernel
    obtain ⟨p, hp, -⟩ := exists_ok hp
    obtain ⟨q, hq, -⟩ := exists_ok hq
    have hK : ToldApart fun _ : Value => False := ⟨fun _ _ h => h.elim, fun _ h => h.elim⟩
    have hfits : ∀ v ∈ [u], Fits v.value v.type := by
      refine List.forall_mem_singleton.mpr (.list (List.forall_mem_singleton.mpr ?_))
      exact .number _ _
    have hfunction : t.CarriesFunctionType := fun f (hf : Datum.list [.int 1] = .function f) =>
      nomatch hf
    have hself : t.equal t = true := by decide +kernel
    obtain ⟨-, hiff⟩ := typed_tests_iff hK ⟨rfl, rfl⟩ htree hfunction hself hp hq htests
      (.cons (fun h => absurd halone h) .nil) hfits
    refine ⟨p, q, hp, hq, fun halike => ?_⟩
    have hagrees : t.equality t false = .boolean true ↔
        Action.listContains t t = .boolean true := (hiff u rfl).mp halike rfl
    have hequal : (t.equality t false).isBool true = true := by decide +kernel
    have hcontains : (Action.listContains t t).isBool true = false := by decide +kernel
    rw [hagrees.mp (Code.isBool_iff.mp hequal)] at hcontains
    cases hcontains
  · cases hform

end Program

end Feel
