import Feel.Proofs.NestedSpans
import Feel.Proofs.TypedTerms

/-!
# Where lists of unary tests stand

A list of unary tests is not an expression. In the tree of a text it is the root or is not there at
all: the tests behind `in` belong to the form itself, and become a list of tests in the term. So
in a term a list of tests is the root or the second part of `in`, and operands of operators and
branches of conditionals are none.

* `Surface.Plain`: trees without a list of tests.
* `Parse.Makes`: what every result of a rule has; `Surface.plain_expressionWithin` for expressions.
* `Term.Plain`: terms whose lists of tests stand behind `in`.
* `Term.plain_ofSurface`: plain trees become plain terms.
* `Term.placesTests_of_text`: the lists of tests in the term of a text.
-/

namespace Feel

/-! ### Trees -/

/-- Whether a form is a list of unary tests. -/
def Form.isTests {ε : Type} : Form ε → Bool
  | .tests _ _ => true
  | _ => false

namespace Surface

/-- A tree without a list of unary tests. -/
inductive Plain : Surface → Prop where
  | node {form : Form Surface} {span : Span} {comments : List String} :
    form.isTests = false → (∀ part ∈ form.parts, Plain part) → Plain (.node form span comments)

/-- A form that makes a plain tree. -/
structure PlainForm (form : Form Surface) : Prop where
  isTests : form.isTests = false
  parts : ∀ part ∈ form.parts, Plain part

namespace Plain

variable {s : Surface}

theorem plain {form : Form Surface} (h : PlainForm form) (span : Span) :
    Plain (.plain form span) := .node h.isTests h.parts

theorem withLeading (h : Plain s) (comments : List String) : Plain (s.withLeading comments) := by
  cases h with
  | node hform hparts => exact .node hform hparts

theorem withTrailing (h : Plain s) (comments : List String) : Plain (s.withTrailing comments) := by
  cases h with
  | node hform hparts => exact .node hform hparts

end Plain

/-- A tree without a list of tests below its root. -/
def PlainBelow (s : Surface) : Prop := ∀ part ∈ s.form.parts, Plain part

theorem Plain.plainBelow {s : Surface} (h : Plain s) : PlainBelow s := by
  cases h with
  | node _ hparts => exact hparts

end Surface

/-! ### Rules -/

namespace Parse

variable {α β : Type} {P : α → Prop} {R : β → Prop} {p : Parse α} {f : α → Parse β}
  {env : Setting}

/-- Every result of a rule has a property, wherever the rule starts. -/
def Makes (P : α → Prop) (p : Parse α) : Prop := ∀ c, Ensures p c fun a _ => P a

namespace Makes

theorem pure {a : α} (h : P a) : Makes P (Pure.pure a) := fun _ => .pure h

theorem bind (hp : Makes P p) (hf : ∀ a, P a → Makes R (f a)) : Makes R (p >>= f) :=
  fun c => (hp c).bind fun a d ha => hf a ha d

/-- A step of whose result nothing is asked. -/
theorem next (hf : ∀ a, Makes R (f a)) : Makes R (p >>= f) :=
  .bind (P := fun _ => True) (fun _ _ _ _ => trivial) fun a _ => hf a

theorem ite {b : Prop} [Decidable b] {p q : Parse α} (hp : Makes P p) (hq : Makes P q) :
    Makes P (if b then p else q) := fun c => .ite (fun _ => hp c) fun _ => hq c

theorem map {g : α → β} (hp : Makes (fun a => R (g a)) p) : Makes R (g <$> p) :=
  fun c => .map (hp c)

theorem failExpected {what : Expectation} : Makes P (Parse.failExpected env what) :=
  fun _ => .failExpected

theorem moreItems (hp : Makes P p) (n : Nat) {items : List α} (h : ∀ a ∈ items, P a) :
    Makes (fun as => ∀ a ∈ as, P a) (Parse.moreItems p n items) := by
  induction n generalizing items with
  | zero => exact .pure (by simpa using h)
  | succ n ih =>
    refine .next fun more => .ite (hp.bind fun a ha => ih ?_) (.pure (by simpa using h))
    exact List.forall_mem_cons.mpr ⟨ha, h⟩

theorem commaSeparated (hp : Makes P p) :
    Makes (fun as => ∀ a ∈ as, P a) (Parse.commaSeparated p) :=
  hp.bind fun _ ha => .next fun n => hp.moreItems n (List.forall_mem_singleton.mpr ha)

end Makes

end Parse

/-! ### Expressions -/

namespace Surface

open Parse

variable {env : Setting} {self : Rule} {closing : Bool}

theorem plain_spanned {form : Form Surface} (h : PlainForm form) (start : Nat) :
    Makes Plain (spanned env form start) := .next fun _ => .pure (.plain h _)

/-- A node that takes over the comments before its first token. -/
theorem plain_node {form : Form Surface} (h : PlainForm form) (start : Nat)
    (comments : List String) :
    Makes Plain (do return (← spanned env form start).withLeading comments) :=
  (plain_spanned h start).bind fun _ ht => .pure (ht.withLeading comments)

theorem plain_atom {form : Form Surface} (h : PlainForm form) : Makes PlainForm (atom form) :=
  .next fun _ => .pure h

/-- A form without parts that is no list of tests. -/
theorem plainForm_leaf {form : Form Surface} (hform : form.isTests = false)
    (hparts : form.parts = []) : PlainForm form :=
  ⟨hform, by simp [hparts]⟩

/-- An operator on two trees. -/
theorem plain_operands {op : Operator} {left right : Surface} (hl : Plain left)
    (hr : Plain right) : Plain (Surface.binary op left right) :=
  .node rfl (by simp [Form.parts, hl, hr])

theorem plain_leftAssociative {operator? : Token → Option Operator} {operand : Parse Surface}
    (h : Makes Plain operand) : Makes Plain (leftAssociative operator? operand) := by
  have hchain (n : Nat) {left : Surface} (hleft : Plain left) :
      Makes Plain (chain operator? operand n left) := by
    induction n generalizing left with
    | zero => exact .pure hleft
    | succ n ih =>
      refine .next fun token => ?_
      split
      · exact .pure hleft
      · exact .next fun _ => h.bind fun right hright => ih (plain_operands hleft hright)
  exact h.bind fun first hfirst => .next fun n => hchain n hfirst

theorem plain_temporalForm : Makes PlainForm (temporalForm env) := by
  refine .next fun _ => .next fun token => ?_
  split
  · exact .next fun _ => .pure (plainForm_leaf rfl rfl)
  · exact .failExpected

section Rules

variable (hself : ∀ closing, Makes Plain (self closing))
include hself

/-! #### What stands alone -/

theorem plain_intervalEnd {first : Surface} (h : Plain first) (si : Bool) :
    Makes PlainForm (intervalEnd env self first si) :=
  (hself true).bind fun finish hfinish => .next fun _ => .pure
    ⟨rfl, by simp [Form.parts, h, hfinish]⟩

theorem plain_parenthesized : Makes Plain (parenthesized env self) := by
  refine .next fun start => .next fun comments => .next fun _ => ?_
  refine (hself false).bind fun inner hinner => .next fun dots => .ite ?_ ?_
  · exact (plain_intervalEnd hself hinner false).bind fun form hform => plain_node hform _ _
  · exact .next fun _ => .pure (hinner.withLeading _)

theorem plain_listOrInterval : Makes PlainForm (listOrInterval env self) := by
  refine .next fun _ => .next fun empty => .ite (.pure (plainForm_leaf rfl rfl)) ?_
  refine (hself false).bind fun first hfirst => .next fun dots => .ite ?_ (.next fun n => ?_)
  · exact plain_intervalEnd hself hfirst true
  · refine ((hself false).moreItems n (List.forall_mem_singleton.mpr hfirst)).bind ?_
    exact fun items hitems => .next fun _ => .pure ⟨rfl, hitems⟩

theorem plain_openInterval : Makes PlainForm (openInterval env self) :=
  .next fun _ => (hself false).bind fun _ hlow => .next fun _ =>
    plain_intervalEnd hself hlow false

theorem plain_contextForm : Makes PlainForm (contextForm env self) := by
  have hentry : Makes (fun e => Plain e.2) (entry env self) :=
    .next fun _ => .next fun _ => .next fun _ => (hself false).bind fun _ ht => .pure ht
  refine .next fun _ => .next fun empty => .ite (.pure (plainForm_leaf rfl rfl)) ?_
  refine hentry.commaSeparated.bind fun entries hentries => .next fun _ => .pure ⟨rfl, ?_⟩
  exact List.forall_mem_map.mpr hentries

theorem plain_primaryForm : Makes PlainForm (primaryForm env self) := by
  refine .next fun token => ?_
  split
  case h_7 => exact plain_temporalForm
  case h_8 => exact .next fun _ => .pure (plainForm_leaf rfl rfl)
  case h_9 => exact plain_listOrInterval hself
  case h_10 => exact plain_openInterval hself
  case h_11 => exact plain_contextForm hself
  case h_12 => exact fun _ => .fail
  -- the others are forms of one token
  all_goals exact plain_atom (plainForm_leaf rfl rfl)

/-! #### Textual forms -/

theorem plain_conditional : Makes PlainForm (conditional env self closing) :=
  .next fun _ => (hself closing).bind fun _ hc => .next fun _ => (hself closing).bind fun _ hy =>
    .next fun _ => (hself closing).bind fun _ hn => .pure ⟨rfl, by simp [Form.parts, hc, hy, hn]⟩

theorem plain_iterator : Makes (fun it => ∀ part ∈ it.parts, Plain part)
    (iterator env self closing) := by
  refine .next fun _ => .next fun _ => (hself closing).bind fun domain hdomain => ?_
  refine .next fun dots => ?_
  refine .ite (.bind (P := fun finish => ∀ part ∈ finish.toList, Plain part) (.map ?_) ?_) ?_
  · exact fun c a d hrun => by simpa using hself closing c a d hrun
  · exact fun finish hfinish => .next fun _ => .pure (List.forall_mem_cons.mpr ⟨hdomain, hfinish⟩)
  · refine .bind (P := (· = none)) (.pure rfl) fun finish hfinish => .next fun _ => .pure ?_
    subst hfinish
    exact List.forall_mem_singleton.mpr hdomain

theorem plain_iterators : Makes (fun its => ∀ part ∈ its.flatMap Iterator.parts, Plain part)
    (commaSeparated (iterator env self closing)) := fun c its d hrun part hpart => by
  obtain ⟨it, hit, hmem⟩ := List.mem_flatMap.mp hpart
  exact (plain_iterator hself).commaSeparated c its d hrun it hit part hmem

theorem plain_iteration : Makes PlainForm (iteration env self closing) :=
  .next fun _ => (plain_iterators hself).bind fun _ hits => .next fun _ =>
    (hself closing).bind fun _ hbody => .pure
      ⟨rfl, List.forall_mem_append.mpr ⟨hits, List.forall_mem_singleton.mpr hbody⟩⟩

theorem plain_quantification : Makes PlainForm (quantification env self closing) :=
  .next fun _ => .next fun _ => (plain_iterators hself).bind fun _ hits => .next fun _ =>
    (hself closing).bind fun _ hbody => .pure
      ⟨rfl, List.forall_mem_append.mpr ⟨hits, List.forall_mem_singleton.mpr hbody⟩⟩

theorem plain_functionDefinition : Makes PlainForm (functionDefinition env self closing) := by
  have hrest (params : List (String × Option TypeExpr)) : Makes PlainForm (do
      expectSymbol env .rparen
      return Form.function params (← self closing)) :=
    .next fun _ => (hself closing).bind fun body hbody => .pure
      ⟨rfl, List.forall_mem_singleton.mpr hbody⟩
  exact .next fun _ => .next fun _ => .next fun _ => .ite (.next hrest) (.next hrest)

theorem plain_textual : Makes Plain (textual env self closing) := by
  refine .next fun start => .next fun comments => .next fun token => ?_
  dsimp only
  split
  · exact (plain_conditional hself).bind fun form hform => plain_node hform _ _
  · exact (plain_iteration hself).bind fun form hform => plain_node hform _ _
  · exact (plain_functionDefinition hself).bind fun form hform => plain_node hform _ _
  · exact (plain_quantification hself).bind fun form hform => plain_node hform _ _

theorem plain_primary : Makes Plain (primary env self) := by
  refine .next fun token => .ite (plain_parenthesized hself) (.ite (plain_textual hself) ?_)
  refine .next fun start => .next fun comments => ?_
  exact (plain_primaryForm hself).bind fun form hform => plain_node hform _ _

/-! #### Filters, paths and calls -/

theorem plain_arguments : Makes (fun args => ∀ part ∈ args.parts, Plain part)
    (arguments env self) := by
  have hnamed : Makes (fun a => Plain a.2) (namedArgument env self) :=
    .next fun _ => .next fun _ => (hself false).bind fun _ ht => .pure ht
  refine .next fun _ => .next fun empty => .ite (.pure (by simp [Arguments.parts])) ?_
  refine .next fun c => .ite ?_ ?_
  · refine .bind (.map fun c as d hrun => ?_) fun args hargs => .next fun _ => .pure hargs
    exact List.forall_mem_map.mpr (hnamed.commaSeparated c as d hrun)
  · exact .bind (.map (hself false).commaSeparated) fun args hargs => .next fun _ => .pure hargs

theorem plain_suffixes (start n : Nat) {inner : Surface} (h : Plain inner) :
    Makes Plain (suffixes env self closing start n inner) := by
  induction n generalizing inner with
  | zero => exact .pure h
  | succ n ih =>
    refine .next fun token => ?_
    split
    · refine .next fun _ => .next fun member => (plain_spanned ⟨rfl, ?_⟩ _).bind fun t ht => ih ht
      exact List.forall_mem_singleton.mpr h
    · refine .ite (.pure h) (.next fun _ => (hself false).bind fun test htest => .next fun _ => ?_)
      refine (plain_spanned ⟨rfl, ?_⟩ _).bind fun t ht => ih ht
      simp [Form.parts, h, htest]
    · refine (plain_arguments hself).bind fun args hargs => ?_
      refine (plain_spanned ⟨rfl, ?_⟩ _).bind fun t ht => ih ht
      exact List.forall_mem_cons.mpr ⟨h, hargs⟩
    · exact .pure h

/-! #### Signs and operators -/

theorem plain_signed (n : Nat) : Makes Plain (signed env self closing n) := by
  have hsuffixes {inner : Surface} (h : Plain inner) :
      Makes Plain (withSuffixes env self closing inner) :=
    .next fun n => plain_suffixes hself _ n h
  have hplain : Makes Plain (primary env self >>= withSuffixes env self closing) :=
    (plain_primary hself).bind fun _ h => hsuffixes h
  induction n with
  | zero => exact hplain
  | succ n ih =>
    refine .next fun minus => .ite (.next fun start => .next fun comments => ?_) hplain
    refine .next fun _ => .next fun token => ?_
    split
    · refine .next fun more => .next fun _ => (plain_spanned (plainForm_leaf rfl rfl) _).bind ?_
      exact fun literal hliteral => hsuffixes (hliteral.withLeading _)
    · refine ih.bind fun operand hoperand => plain_node ⟨rfl, ?_⟩ _ _
      exact List.forall_mem_singleton.mpr hoperand

theorem plain_sum : Makes Plain (sum env self closing) :=
  plain_leftAssociative <| plain_leftAssociative <| plain_leftAssociative <|
    .next fun n => plain_signed hself n

/-! #### Tests and comparisons -/

theorem plain_positiveTest : Makes Plain (positiveTest env self closing) := by
  refine .next fun start => .next fun token => .next fun second => .ite ?_ ?_
  · exact .next fun _ => plain_spanned (plainForm_leaf rfl rfl) _
  · split
    · refine .next fun _ => (plain_sum hself).bind fun value hvalue => plain_spanned ⟨rfl, ?_⟩ _
      exact List.forall_mem_singleton.mpr hvalue
    · exact hself closing

theorem plain_inTests : Makes (fun ts => ∀ t ∈ ts, Plain t) (inTests env self closing) := by
  have htest : Makes Plain (positiveTest env self closing) := plain_positiveTest hself
  refine .next fun paren => .ite (.next fun start => .next fun _ => ?_) ?_
  · refine htest.bind fun first hfirst => .next fun dots => .ite ?_ (.next fun n => ?_)
    · refine (plain_intervalEnd hself hfirst false).bind fun form hform => ?_
      exact (plain_spanned hform _).bind fun t ht => .pure (List.forall_mem_singleton.mpr ht)
    · exact (htest.moreItems n (List.forall_mem_singleton.mpr hfirst)).bind fun ts hts =>
        .next fun _ => .pure hts
  · exact htest.bind fun t ht => .pure (List.forall_mem_singleton.mpr ht)

theorem plain_comparisons (start n : Nat) {left : Surface} (h : Plain left) :
    Makes Plain (comparisons env self closing start n left) := by
  have hsum : Makes Plain (sum env self closing) := plain_sum hself
  induction n generalizing left with
  | zero => exact .pure h
  | succ n ih =>
    refine .next fun token => ?_
    split
    · refine .next fun _ => hsum.bind fun low hlow => .next fun _ => hsum.bind fun high hhigh => ?_
      refine (plain_spanned ⟨rfl, ?_⟩ _).bind fun t ht => ih ht
      simp [Form.parts, h, hlow, hhigh]
    · refine .next fun _ => (plain_inTests hself).bind fun ts hts => ?_
      refine (plain_spanned ⟨rfl, ?_⟩ _).bind fun t ht => ih ht
      exact List.forall_mem_cons.mpr ⟨h, hts⟩
    · refine .next fun _ => .next fun _ => .next fun target => ?_
      refine (plain_spanned ⟨rfl, ?_⟩ _).bind fun t ht => ih ht
      exact List.forall_mem_singleton.mpr h
    · split
      · exact .next fun _ => hsum.bind fun right hright => ih (plain_operands h hright)
      · exact .pure h

theorem plain_expressionRule : Makes Plain (expressionRule env self closing) := by
  have hcomparison : Makes Plain (comparison env self closing) :=
    .next fun start => (plain_sum hself).bind fun first hfirst => .next fun n =>
      plain_comparisons hself start n hfirst
  exact .next fun token => .ite (plain_textual hself)
    (plain_leftAssociative (plain_leftAssociative hcomparison))

end Rules

/-! #### Whole texts -/

/-- By induction on the nesting: at no level there is nothing to read, and each level reads by the
rules in terms of the level below. -/
theorem plain_expressionWithin (n : Nat) (closing : Bool) :
    Makes Plain (expressionWithin env n closing) := by
  induction n generalizing closing with
  | zero => exact .next fun _ _ => .fail
  | succ n ih => exact plain_expressionRule ih

theorem plain_wholeExpression (trailing : List String) :
    Makes Plain (wholeExpression env trailing) :=
  .bind (.next fun _ => plain_expressionWithin _ _) fun _ htree => .next fun _ =>
    .pure (htree.withTrailing trailing)

theorem plainBelow_wholeTests : Makes PlainBelow (wholeTests env) := by
  have htests : Makes (fun ts => ∀ t ∈ ts, Plain t) (positiveTests env) :=
    .next fun _ => (plain_positiveTest (plain_expressionWithin _)).commaSeparated
  have hroot (negated : Bool) {ts : List Surface} (hts : ∀ t ∈ ts, Plain t) (start : Nat) :
      Makes PlainBelow (spanned env (.tests negated ts) start) := .next fun _ => .pure hts
  have hplain (start : Nat) : Makes PlainBelow (do
      let tests ← positiveTests env
      endOfText env
      spanned env (.tests false tests) start) :=
    htests.bind fun ts hts => .next fun _ => hroot false hts start
  have hnegated : Makes (fun ts => ∀ t ∈ ts, Plain t) (negatedTests env) :=
    .next fun _ => htests.bind fun ts hts => .next fun _ => .next fun _ => .pure hts
  refine .next fun start => .next fun before => .ite (.next fun _ => ?_) ?_
  · exact fun c t d hrun => (plain_spanned (plainForm_leaf rfl rfl) start c t d hrun).plainBelow
  · refine .next fun first => .next fun second => .ite ?_ (hplain start)
    split
    · next ts after hattempt => exact .next fun _ => hroot true (hnegated _ ts after hattempt) start
    · exact .next fun _ => hplain start

/-- What a rule makes, wherever it starts, the trees of texts have. -/
theorem of_parseWith {P : Surface → Prop} {rule : Setting → List String → Parse Surface}
    (hrule : ∀ env trailing, Makes P (rule env trailing)) {source : String}
    {known : List String} {tree : Surface} (h : parseWith rule source known = .ok tree) :
    P tree := by
  obtain ⟨_, _, _, d, -, hrun⟩ := exists_of_parseWith h
  exact hrule _ _ _ tree d hrun

/-- Expressions have no lists of tests in them. -/
theorem plain_of_parseExpression {source : String} {known : List String} {tree : Surface}
    (h : parseExpression source known = .ok tree) : Plain tree :=
  of_parseWith (fun _ trailing => plain_wholeExpression trailing) h

/-- In unary tests the only list of tests is the whole. -/
theorem plainBelow_of_parseTests {source : String} {known : List String} {tree : Surface}
    (h : parseTests source known = .ok tree) : PlainBelow tree :=
  of_parseWith (fun _ _ => plainBelow_wholeTests) h

end Surface

/-! ### Terms -/

namespace Term

/-- Whether a term is a list of unary tests. -/
def isTests (t : Term) : Bool :=
  match t.shape with
  | .tests _ _ => true
  | _ => false

/-- A node has a list of tests as a part only behind `in`. -/
def PlacesTests (t : Term) : Prop :=
  (∃ value tests, t.shape = .isIn value tests) ∨ ∀ s ∈ t.parts, s.isTests = false

/-- A term that is no list of tests, and has such lists behind `in` only. -/
structure Plain (t : Term) : Prop where
  isTests : t.isTests = false
  everywhere : t.Everywhere PlacesTests

/-- A node of plain parts. -/
theorem placesTests_of_parts {t : Term} (h : ∀ s ∈ t.parts, s.Plain) : t.Everywhere PlacesTests :=
  .intro (.inr fun s hs => (h s hs).isTests) fun s hs => (h s hs).everywhere

namespace Plain

variable {t : Term}

theorem of_parts (ht : t.isTests = false) (h : ∀ s ∈ t.parts, s.Plain) : t.Plain :=
  ⟨ht, placesTests_of_parts h⟩

theorem withComments (h : t.Plain) (more : List String) : (t.withComments more).Plain := by
  obtain ⟨shape, _, _, _, _⟩ := t
  exact ⟨h.isTests, .intro h.everywhere.here fun s hs => h.everywhere.part hs⟩

theorem withWarning (h : t.Plain) (more : Option String) : (t.withWarning more).Plain := by
  obtain ⟨shape, _, _, _, _⟩ := t
  exact ⟨h.isTests, .intro h.everywhere.here fun s hs => h.everywhere.part hs⟩

/-- A node without parts. -/
theorem leaf (ht : t.isTests = false) (hparts : t.parts = []) : t.Plain :=
  .of_parts ht (by simp [hparts])

end Plain

end Term

namespace Elaboration

/-- A part becomes a plain term, in every scope. -/
def Plain (e : Elaboration) : Prop := ∀ S t, e S = .ok t → t.Plain

/-- The parts of an iterator become plain terms. -/
structure PlainIterator (it : Iterator Elaboration) : Prop where
  domain : Plain it.domain
  finish : ∀ e, it.finish = some e → Plain e

variable {S : Scope}

theorem plain_all {es : List Elaboration} (h : ∀ e ∈ es, Plain e) {ts : List Term}
    (hts : all S es = .ok ts) : ∀ t ∈ ts, t.Plain := by
  intro t ht
  obtain ⟨e, he, heq⟩ := exists_of_mem_all hts ht
  exact h e he S t heq

theorem plain_number (text : String) (span : Span) : Plain (number text span) := by
  intro S t ht
  unfold number at ht
  split at ht
  · cases ht
    exact .leaf rfl rfl
  · cases ht

theorem plain_temporal (text : String) (span : Span) : Plain (temporal text span) := by
  intro S t ht
  unfold temporal at ht
  split at ht
  · cases ht
    exact .leaf rfl rfl
  · cases ht

theorem plain_name (name : String) (span : Span) : Plain (Elaboration.name name span) := by
  intro S t ht
  unfold Elaboration.name at ht
  split at ht
  · cases ht
    exact .leaf rfl rfl
  · cases ht

theorem plain_testInput (span : Span) : Plain (testInput span) := by
  intro S t ht
  obtain ⟨type, -, ht⟩ := bind_eq_ok.mp ht
  cases ht
  exact .leaf rfl rfl

theorem plain_list {items : List Elaboration} (h : ∀ e ∈ items, Plain e) (span : Span) :
    Plain (list items span) := by
  intro S t ht
  obtain ⟨ts, hts, ht⟩ := bind_eq_ok.mp ht
  cases ht
  exact .of_parts rfl (plain_all h hts)

theorem plain_entries {es : List (String × Elaboration)} (h : ∀ e ∈ es, Plain e.2)
    {ts : List (String × Term)} (hts : entries S es = .ok ts) : ∀ e ∈ ts, e.2.Plain := by
  induction es generalizing S ts with
  | nil =>
    cases hts
    exact nofun
  | cons e es ih =>
    obtain ⟨t, ht, hts⟩ := bind_eq_ok.mp hts
    obtain ⟨rest, hrest, hts⟩ := bind_eq_ok.mp hts
    cases hts
    rw [List.forall_mem_cons] at h ⊢
    exact ⟨h.1 S t ht, ih h.2 hrest⟩

theorem plain_context {es : List (String × Elaboration)} (h : ∀ e ∈ es, Plain e.2)
    (span : Span) : Plain (context es span) := by
  intro S t ht
  obtain ⟨ts, hts, ht⟩ := bind_eq_ok.mp ht
  cases ht
  exact .of_parts rfl (List.forall_mem_map.mpr (plain_entries h hts))

theorem plain_rangeNode {start finish : Term} (hs : start.Plain) (hf : finish.Plain) (si ei : Bool)
    (span : Span) : (Term.rangeNode start finish si ei span).Plain :=
  .of_parts rfl (by simp [Term.rangeNode, Term.plain, Term.parts, Term.shape, hs, hf])

theorem plain_interval {start finish : Elaboration} (hs : Plain start) (hf : Plain finish)
    (si ei : Bool) (span : Span) : Plain (interval start finish si ei span) := by
  intro S t ht
  obtain ⟨s, hs', ht⟩ := bind_eq_ok.mp ht
  obtain ⟨e, he', ht⟩ := bind_eq_ok.mp ht
  cases ht
  exact plain_rangeNode (hs S s hs') (hf S e he') si ei span

theorem plain_binary (source : String) (op : Operator) {left right : Elaboration}
    (hl : Plain left) (hr : Plain right) (span : Span) :
    Plain (binary source op left right span) := by
  intro S t ht
  obtain ⟨l, hl', ht⟩ := bind_eq_ok.mp ht
  obtain ⟨r, hr', ht⟩ := bind_eq_ok.mp ht
  cases ht
  refine .withWarning (.of_parts rfl ?_) _
  exact List.forall_mem_cons.mpr ⟨hl S l hl', List.forall_mem_singleton.mpr (hr S r hr')⟩

theorem plain_negation {operand : Elaboration} (h : Plain operand) (span : Span) :
    Plain (negation operand span) := by
  intro S t ht
  obtain ⟨x, hx, ht⟩ := bind_eq_ok.mp ht
  cases ht
  refine .withWarning (.of_parts rfl ?_) _
  exact List.forall_mem_singleton.mpr (h S x hx)

theorem plain_between {value low high : Elaboration} (hv : Plain value) (hl : Plain low)
    (hh : Plain high) (span : Span) : Plain (between value low high span) := by
  intro S t ht
  obtain ⟨v, hv', ht⟩ := bind_eq_ok.mp ht
  obtain ⟨l, hl', ht⟩ := bind_eq_ok.mp ht
  obtain ⟨u, hu', ht⟩ := bind_eq_ok.mp ht
  cases ht
  refine .of_parts rfl (List.forall_mem_cons.mpr ⟨hv S v hv', ?_⟩)
  exact List.forall_mem_cons.mpr ⟨hl S l hl', List.forall_mem_singleton.mpr (hh S u hu')⟩

/-- The one form that makes a list of tests: the tests are its second part. -/
theorem plain_isIn {value : Elaboration} (hv : Plain value) {tests : List Elaboration}
    (h : ∀ e ∈ tests, Plain e) (spans : List Span) (span : Span) :
    Plain (isIn value tests spans span) := by
  intro S t ht
  obtain ⟨v, hv', ht⟩ := bind_eq_ok.mp ht
  obtain ⟨ts, hts, ht⟩ := bind_eq_ok.mp ht
  cases ht
  refine ⟨rfl, .intro (.inl ⟨_, _, rfl⟩) ?_⟩
  refine List.forall_mem_cons.mpr ⟨(hv S v hv').everywhere, ?_⟩
  exact List.forall_mem_singleton.mpr (Term.placesTests_of_parts (plain_all h hts))

theorem plain_instanceOf {value : Elaboration} (hv : Plain value) (target : TypeExpr)
    (span : Span) : Plain (instanceOf value target span) := by
  intro S t ht
  obtain ⟨v, hv', ht⟩ := bind_eq_ok.mp ht
  obtain ⟨type, -, ht⟩ := bind_eq_ok.mp ht
  cases ht
  exact .of_parts rfl (List.forall_mem_singleton.mpr (hv S v hv'))

theorem plain_comparison (source : String) (op : Operator) {value : Elaboration}
    (hv : Plain value) (span : Span) : Plain (comparison source op value span) := by
  intro S t ht
  obtain ⟨v, hv', ht⟩ := bind_eq_ok.mp ht
  obtain ⟨type, -, ht⟩ := bind_eq_ok.mp ht
  cases ht
  refine .withWarning (.of_parts rfl ?_) _
  exact List.forall_mem_singleton.mpr (hv S v hv')

theorem plain_ite {condition yes no : Elaboration} (hc : Plain condition) (hy : Plain yes)
    (hn : Plain no) (span : Span) : Plain (ite condition yes no span) := by
  intro S t ht
  obtain ⟨c, hc', ht⟩ := bind_eq_ok.mp ht
  obtain ⟨y, hy', ht⟩ := bind_eq_ok.mp ht
  obtain ⟨n, hn', ht⟩ := bind_eq_ok.mp ht
  cases ht
  refine .of_parts rfl (List.forall_mem_cons.mpr ⟨hc S c hc', ?_⟩)
  exact List.forall_mem_cons.mpr ⟨hy S y hy', List.forall_mem_singleton.mpr (hn S n hn')⟩

theorem plain_domain {it : Iterator Elaboration} (h : PlainIterator it) {t : Term}
    (ht : domain S it = .ok t) : t.Plain := by
  obtain ⟨start, hstart, ht⟩ := bind_eq_ok.mp ht
  split at ht
  · cases ht
    exact h.domain S t hstart
  · next finish hfinish =>
    obtain ⟨last, hlast, ht⟩ := bind_eq_ok.mp ht
    cases ht
    exact plain_rangeNode (h.domain S start hstart) (h.finish finish hfinish S last hlast) _ _ _

theorem plain_iterations {its : List (Iterator Elaboration)} (h : ∀ it ∈ its, PlainIterator it)
    {ts : List (Iteration Term)} {inner : Scope} (hts : iterations S its = .ok (ts, inner)) :
    ∀ it ∈ ts, it.domain.Plain := by
  induction its generalizing S ts with
  | nil =>
    cases hts
    exact nofun
  | cons it its ih =>
    obtain ⟨t, ht, hts⟩ := bind_eq_ok.mp hts
    obtain ⟨⟨rest, scope⟩, hrest, hts⟩ := bind_eq_ok.mp hts
    cases hts
    rw [List.forall_mem_cons] at h ⊢
    exact ⟨plain_domain h.1 ht, ih h.2 hrest⟩

theorem plain_forIn {its : List (Iterator Elaboration)} (h : ∀ it ∈ its, PlainIterator it)
    {body : Elaboration} (hb : Plain body) (span : Span) : Plain (forIn its body span) := by
  intro S t ht
  obtain ⟨⟨ts, inner⟩, hts, ht⟩ := bind_eq_ok.mp ht
  obtain ⟨b, hb', ht⟩ := bind_eq_ok.mp ht
  cases ht
  refine .of_parts rfl (List.forall_mem_append.mpr ⟨List.forall_mem_map.mpr ?_, ?_⟩)
  · exact plain_iterations h hts
  · exact List.forall_mem_singleton.mpr (hb inner b hb')

theorem plain_quantified (every : Bool) {its : List (Iterator Elaboration)}
    (h : ∀ it ∈ its, PlainIterator it) {condition : Elaboration} (hc : Plain condition)
    (span : Span) : Plain (quantified every its condition span) := by
  intro S t ht
  obtain ⟨⟨ts, inner⟩, hts, ht⟩ := bind_eq_ok.mp ht
  obtain ⟨c, hc', ht⟩ := bind_eq_ok.mp ht
  cases ht
  refine .of_parts rfl (List.forall_mem_append.mpr ⟨List.forall_mem_map.mpr ?_, ?_⟩)
  · exact plain_iterations h hts
  · exact List.forall_mem_singleton.mpr (hc inner c hc')

theorem plain_filter {source filter : Elaboration} (hs : Plain source) (hf : Plain filter)
    (span : Span) : Plain (Elaboration.filter source filter span) := by
  intro S t ht
  obtain ⟨s, hs', ht⟩ := bind_eq_ok.mp ht
  obtain ⟨f, hf', ht⟩ := bind_eq_ok.mp ht
  cases ht
  exact .of_parts rfl (List.forall_mem_cons.mpr
    ⟨hs S s hs', List.forall_mem_singleton.mpr (hf _ f hf')⟩)

theorem plain_path {source : Elaboration} (hs : Plain source) (member : String) (span : Span) :
    Plain (path source member span) := by
  intro S t ht
  obtain ⟨s, hs', ht⟩ := bind_eq_ok.mp ht
  split at ht
  · cases ht
    exact .of_parts rfl (List.forall_mem_singleton.mpr (hs S s hs'))
  · cases ht

theorem plain_function (params : List (String × Option TypeExpr)) {body : Elaboration}
    (hb : Plain body) (span : Span) : Plain (function params body span) := by
  intro S t ht
  obtain ⟨types, -, ht⟩ := bind_eq_ok.mp ht
  obtain ⟨b, hb', ht⟩ := bind_eq_ok.mp ht
  cases ht
  exact .of_parts rfl (List.forall_mem_singleton.mpr (hb _ b hb'))

theorem plain_valueCall {source : String} {callee : Elaboration} (hc : Plain callee)
    {names : Option (List String)} {args : List Term} {span : Span}
    (hargs : ∀ t ∈ args, t.Plain) {t : Term}
    (ht : valueCall source callee names args span S = .ok t) : t.Plain := by
  obtain ⟨c, hc', ht⟩ := bind_eq_ok.mp ht
  split at ht
  · cases ht
  · extract_lets made at ht
    have hmade : ∀ type, (made type).Plain := fun type =>
      .of_parts rfl (List.forall_mem_cons.mpr ⟨hc S c hc', hargs⟩)
    split at ht
    · cases ht
      exact hmade _
    · cases ht
      exact hmade _
    · cases ht

theorem plain_invocation (source : String) (calleeName : Option String) {callee : Elaboration}
    (hc : Plain callee) {args : Arguments Elaboration} (h : ∀ e ∈ argumentParts args, Plain e)
    (span : Span) : Plain (invocation source calleeName callee args span) := by
  intro S t ht
  unfold invocation at ht
  extract_lets names at ht
  obtain ⟨ts, hts, ht⟩ := bind_eq_ok.mp ht
  have hargs := plain_all h hts
  split at ht
  · split at ht
    · obtain ⟨arranged, type, harranged, -, rfl⟩ := of_namedCall ht
      refine .of_parts rfl fun u hu => ?_
      rcases harranged u hu with hmem | rfl
      · exact hargs u hmem
      · exact .leaf rfl rfl
    · exact plain_valueCall hc hargs ht
  · exact plain_valueCall hc hargs ht

end Elaboration

namespace Term

open Elaboration (PlainIterator argumentParts)

variable (source : String)

/-- What holds of the parts of trees holds of the parts of their elaborations. -/
theorem plain_ofList {ss : List Surface} (h : ∀ s ∈ ss, (ofSurface source s).Plain) :
    ∀ e ∈ ofList source ss, e.Plain := by
  rw [ofList_eq_map]
  exact List.forall_mem_map.mpr h

theorem plain_ofEntries {es : List (String × Surface)}
    (h : ∀ s ∈ es.map (·.2), (ofSurface source s).Plain) :
    ∀ e ∈ ofEntries source es, e.2.Plain := by
  rw [ofEntries_eq_map]
  exact List.forall_mem_map.mpr fun e he => h e.2 (List.mem_map_of_mem he)

theorem plain_ofIterators {its : List (Iterator Surface)}
    (h : ∀ s ∈ its.flatMap Iterator.parts, (ofSurface source s).Plain) :
    ∀ it ∈ ofIterators source its, PlainIterator it := by
  induction its with
  | nil => exact nofun
  | cons it its ih =>
    obtain ⟨name, domain, finish⟩ := it
    rw [List.flatMap_cons, List.forall_mem_append] at h
    refine List.forall_mem_cons.mpr ⟨⟨h.1 domain List.mem_cons_self, fun e he => ?_⟩, ih h.2⟩
    cases finish with
    | none => cases he
    | some last =>
      cases he
      exact h.1 last (List.mem_cons_of_mem _ List.mem_cons_self)

theorem plain_ofArguments {args : Arguments Surface}
    (h : ∀ s ∈ args.parts, (ofSurface source s).Plain) :
    ∀ e ∈ argumentParts (ofArguments source args), e.Plain := by
  cases args with
  | positional args => exact plain_ofList source h
  | named args => exact List.forall_mem_map.mpr (plain_ofEntries source h)

/-- A form that is no list of tests, and whose parts become plain terms, becomes a plain term. -/
theorem plain_ofForm {form : Form Surface} (hform : form.isTests = false)
    (h : ∀ s ∈ form.parts, (ofSurface source s).Plain) (span : Span) :
    (ofForm source span form).Plain := by
  have hleaf (u : Term) (hu : u.Plain) : Elaboration.Plain fun _ => .ok u :=
    fun _ _ ht => Except.ok.inj ht ▸ hu
  cases form with
  | null => exact hleaf _ (.leaf rfl rfl)
  | boolean b => exact hleaf _ (.leaf rfl rfl)
  | string s => exact hleaf _ (.leaf rfl rfl)
  | dash => exact hleaf _ (.leaf rfl rfl)
  | number text => exact Elaboration.plain_number text span
  | temporal text => exact Elaboration.plain_temporal text span
  | name name => exact Elaboration.plain_name name span
  | testInput => exact Elaboration.plain_testInput span
  | list items => exact Elaboration.plain_list (plain_ofList source h) span
  | context entries => exact Elaboration.plain_context (plain_ofEntries source h) span
  | interval start finish si ei =>
    simp only [Form.parts, List.forall_mem_cons] at h
    exact Elaboration.plain_interval h.1 h.2.1 si ei span
  | binary op left right =>
    simp only [Form.parts, List.forall_mem_cons] at h
    exact Elaboration.plain_binary source op h.1 h.2.1 span
  | negation operand =>
    exact Elaboration.plain_negation (h _ List.mem_cons_self) span
  | between value low high =>
    simp only [Form.parts, List.forall_mem_cons] at h
    exact Elaboration.plain_between h.1 h.2.1 h.2.2.1 span
  | isIn value tests =>
    rw [Form.parts, List.forall_mem_cons] at h
    exact Elaboration.plain_isIn h.1 (plain_ofList source h.2) _ span
  | instanceOf value target =>
    exact Elaboration.plain_instanceOf (h _ List.mem_cons_self) target span
  | ite condition yes no =>
    simp only [Form.parts, List.forall_mem_cons] at h
    exact Elaboration.plain_ite h.1 h.2.1 h.2.2.1 span
  | forIn its body =>
    rw [Form.parts, List.forall_mem_append, List.forall_mem_singleton] at h
    exact Elaboration.plain_forIn (plain_ofIterators source h.1) h.2 span
  | quantified every its condition =>
    rw [Form.parts, List.forall_mem_append, List.forall_mem_singleton] at h
    exact Elaboration.plain_quantified every (plain_ofIterators source h.1) h.2 span
  | filter list test =>
    simp only [Form.parts, List.forall_mem_cons] at h
    exact Elaboration.plain_filter h.1 h.2.1 span
  | function params body =>
    exact Elaboration.plain_function params (h _ List.mem_cons_self) span
  | invocation callee args =>
    rw [Form.parts, List.forall_mem_cons] at h
    exact Elaboration.plain_invocation source callee.name? h.1 (plain_ofArguments source h.2) span
  | path value member =>
    exact Elaboration.plain_path (h _ List.mem_cons_self) member span
  | comparison op value =>
    exact Elaboration.plain_comparison source op (h _ List.mem_cons_self) span
  | tests negated tests => cases hform

/-- Plain trees become plain terms. -/
theorem plain_ofSurface {s : Surface} (h : s.Plain) : (ofSurface source s).Plain := by
  induction h with
  | @node form span comments hform _ ih =>
    intro S t ht
    obtain ⟨u, hu, ht⟩ := bind_eq_ok.mp ht
    cases ht
    exact (plain_ofForm source hform ih span S u hu).withComments comments

/-- A term of a text: of an expression, or of unary tests. -/
inductive OfText (source : String) (S : Scope) : Term → Prop
  | expression {known : List String} {tree : Surface} {t : Term} :
    Surface.parseExpression source known = .ok tree → ofSurface source tree S = .ok t →
    OfText source S t
  | tests {known : List String} {tree : Surface} {t : Term} :
    Surface.parseTests source known = .ok tree → ofTests source tree S = .ok t →
    OfText source S t

/-- **Lists of unary tests stand at the root or behind `in`.** No other node of the term of a text
has a list of tests as a part. -/
theorem placesTests_of_text {source : String} {S : Scope} {t : Term} (h : OfText source S t) :
    t.Everywhere PlacesTests := by
  cases h with
  | expression htree ht =>
    exact (plain_ofSurface source (Surface.plain_of_parseExpression htree) S t ht).everywhere
  | @tests known tree t htree ht =>
    have hbelow := Surface.plainBelow_of_parseTests htree
    obtain ⟨form, span, comments⟩ := tree
    obtain ⟨u, hu, ht⟩ := bind_eq_ok.mp ht
    cases hform : form.isTests with
    | true =>
      -- the list of tests is the root
      cases form with
      | tests negated ts =>
        obtain ⟨v, hv, hu⟩ := bind_eq_ok.mp hu
        obtain ⟨us, hus, hv⟩ := bind_eq_ok.mp hv
        cases hv
        cases hu
        cases ht
        refine placesTests_of_parts (Elaboration.plain_all (plain_ofList source ?_) hus)
        exact fun s hs => plain_ofSurface source (hbelow s hs)
      | _ => cases hform
    | false =>
      have hplain := plain_ofSurface source (.node hform hbelow) S u hu
      split at ht
      · cases ht
        exact hplain.everywhere
      · cases ht
        exact placesTests_of_parts (List.forall_mem_singleton.mpr hplain)

end Term

end Feel
