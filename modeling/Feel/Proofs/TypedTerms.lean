import Feel.Proofs.TypeSoundness

/-!
# Terms that are typed as they are elaborated

A term is a plain tree with a type at each node. A term that comes from a parse tree has types
that follow from the types of the parts, form by form, whatever the names in it refer to, as long
as the only functions are the built-in ones.

* `Term.parts`, `Term.Everywhere`: the direct parts of a term, and what holds of all of it.
* `Ty.KeepsDoubles`: signatures that ask for binary64 numbers only where they are given.
* `Term.TypedAsMade`: the type of a node is the one that its form and its parts ask for.
* `Scope.OnlyBuiltins`: scopes without functions of a host.
* `NodeLaw`: what holds of nodes that are typed as they are made, and of names and calls in scopes
  of a kind.
* `Term.ofSurface_makes`: it holds of all nodes of the terms of parse trees.
* `Term.ofSurface_typed`: every node of the term of a parse tree is typed as it is made.
-/

namespace Feel

namespace Term

/-- The direct parts of a term, in source order. -/
def parts (t : Term) : List Term :=
  match t.shape with
  | .null | .boolean _ | .number _ | .string _ | .temporal _ | .name _ _ | .testInput
  | .dash => []
  | .list items => items
  | .context entries => entries.map (·.2)
  | .range start finish _ _ => [start, finish]
  | .binary _ left right => [left, right]
  | .negation operand => [operand]
  | .between value low high => [value, low, high]
  | .isIn value tests => [value, tests]
  | .instanceOf value _ => [value]
  | .ite condition yes no => [condition, yes, no]
  | .forIn its body => its.map (·.domain) ++ [body]
  | .quantified _ its condition => its.map (·.domain) ++ [condition]
  | .filter source filter _ => [source, filter]
  | .function _ body => [body]
  | .invocation (.named _ _) args _ => args
  | .invocation (.value callee) args _ => callee :: args
  | .path source _ => [source]
  | .tests _ tests => tests
  | .comparison _ value => [value]

/-- What holds of a term and of everything in it. -/
inductive Everywhere (P : Term → Prop) : Term → Prop
  | intro {t : Term} : P t → (∀ s ∈ t.parts, Everywhere P s) → Everywhere P t

namespace Everywhere

variable {P Q : Term → Prop} {t : Term}

theorem here (h : t.Everywhere P) : P t := by
  cases h with
  | intro h _ => exact h

theorem part (h : t.Everywhere P) {s : Term} (hs : s ∈ t.parts) : s.Everywhere P := by
  cases h with
  | intro _ h => exact h s hs

theorem imp (h : t.Everywhere P) (hP : ∀ s, P s → Q s) : t.Everywhere Q := by
  induction h with
  | intro h _ ih => exact .intro (hP _ h) ih

theorem and (hP : t.Everywhere P) (hQ : t.Everywhere Q) : t.Everywhere fun s => P s ∧ Q s := by
  induction hP with
  | intro h _ ih => exact .intro ⟨h, hQ.here⟩ fun s hs => ih s hs (hQ.part hs)

end Everywhere

end Term

/-! ### How parts are lowered -/

namespace Fragment

theorem mem_ofList {ts : List Term} {l : Lower} (h : l ∈ ofList ts) :
    ∃ t ∈ ts, l = ofTerm t := by
  induction ts with
  | nil => cases h
  | cons t ts ih =>
    rcases List.mem_cons.mp h with rfl | h
    · exact ⟨t, List.mem_cons_self, rfl⟩
    · obtain ⟨s, hs, rfl⟩ := ih h
      exact ⟨s, List.mem_cons_of_mem _ hs, rfl⟩

theorem length_ofList (ts : List Term) : (ofList ts).length = ts.length := by
  induction ts with
  | nil => rfl
  | cons t ts ih => exact congrArg (· + 1) ih

theorem mem_ofEntries {es : List (String × Term)} {e : String × Lower} (h : e ∈ ofEntries es) :
    ∃ t ∈ es.map (·.2), e.2 = ofTerm t := by
  induction es with
  | nil => cases h
  | cons entry es ih =>
    obtain ⟨name, t⟩ := entry
    rcases List.mem_cons.mp h with rfl | h
    · exact ⟨t, List.mem_cons_self, rfl⟩
    · obtain ⟨s, hs, heq⟩ := ih h
      exact ⟨s, List.mem_cons_of_mem _ hs, heq⟩

theorem mem_ofTests {ts : List Term} {part : TestPart} (h : part ∈ ofTests ts) :
    ∃ t ∈ ts, part = ⟨t.isCompleteTest, t.span, ofTerm t⟩ := by
  induction ts with
  | nil => cases h
  | cons t ts ih =>
    rcases List.mem_cons.mp h with rfl | h
    · exact ⟨t, List.mem_cons_self, rfl⟩
    · obtain ⟨s, hs, rfl⟩ := ih h
      exact ⟨s, List.mem_cons_of_mem _ hs, rfl⟩

theorem mem_ofIterations {its : List (Iteration Term)} {part : DomainPart}
    (h : part ∈ ofIterations its) :
    ∃ t ∈ its.map (·.domain), part.whole = ofTerm t ∧ part.bounds = ofBounds t := by
  induction its with
  | nil => cases h
  | cons it its ih =>
    obtain ⟨name, t⟩ := it
    rcases List.mem_cons.mp h with rfl | h
    · exact ⟨t, List.mem_cons_self, rfl, rfl⟩
    · obtain ⟨s, hs, heq⟩ := ih h
      exact ⟨s, List.mem_cons_of_mem _ hs, heq⟩

end Fragment

/-! ### Conversions of arguments -/

namespace Ty

/-- Whether a value of the type can have been made a binary64 number by its conversion. -/
def makesDouble : Ty → Bool
  | number .double => true
  | list element => makesDouble element
  | _ => false

theorem compat_self_of_makesDouble : ∀ {t : Ty}, t.makesDouble = true → t.compat t = .equal
  | number .double, _ => rfl
  | list element, _ => by
    rw [compat, compatTo.eq_def]
    exact if_pos rfl

/-- Whether no parameter of a function is a binary64 number. -/
def takesNoDoubles : Ty → Bool
  | function params _ _ => params.all (!·.makesDouble)
  | _ => true

/-- A signature asks for binary64 numbers only where they are given. -/
def KeepsDoubles (args : List Ty) (signature : Ty) : Prop :=
  ∀ params names result, signature = function params names result →
    ∀ p ∈ args.zip params, p.2.makesDouble = false ∨ p.1 = p.2

variable {args : List Ty} {t : Ty}

/-- A signature at the types of the arguments. -/
theorem keepsDoubles_own (names : Option (List String)) (result : Ty) :
    KeepsDoubles args (function args names result) := by
  intro params names result h p hp
  cases h
  obtain ⟨i, hi, rfl⟩ := List.mem_iff_getElem.mp hp
  right
  rw [List.getElem_zip]

theorem KeepsDoubles.withResult {params : List Ty} {names : Option (List String)} {result : Ty}
    (h : KeepsDoubles args (function params names result)) (result' : Ty) :
    KeepsDoubles args (function params names result') := by
  intro _ _ _ heq
  cases heq
  exact h params names result rfl

/-- No overload asks for binary64 numbers. -/
theorem keepsDoubles_overload {f : Builtin} (h : t ∈ f.overloads) : KeepsDoubles args t := by
  have hall : ∀ f : Builtin, f.overloads.all takesNoDoubles = true := by
    intro f
    cases f <;> rfl
  rintro params names result rfl p hp
  have hparams := List.all_eq_true.mp (List.all_eq_true.mp (hall f) _ h) _ (List.of_mem_zip hp).2
  exact .inl (by simpa using hparams)

theorem keepsDoubles_builtin {f : Builtin} (h : f.signature? args = some t) :
    KeepsDoubles args t := by
  unfold Builtin.signature? at h
  split at h
  · unfold Builtin.variadicSignature? at h
    split at h
    · cases h
    · split at h
      · cases h
        exact keepsDoubles_own _ _
      · cases h
    · cases h
    · split at h
      · obtain ⟨overload, hoverload, rfl⟩ := Option.map_eq_some_iff.mp h
        have hkeeps : ∀ args, KeepsDoubles args overload := fun _ =>
          keepsDoubles_overload (Builtin.mem_of_resolve? hoverload)
        split
        · exact (hkeeps _).withResult _
        · exact (hkeeps _).withResult _
        · exact hkeeps _
      · cases h
        exact keepsDoubles_own _ _
  · exact keepsDoubles_overload (Builtin.mem_of_resolve? h)

/-- The signature of a call of a built-in function. -/
theorem keepsDoubles_signature {name : String} {span : Span}
    (h : Elaboration.signature [.builtins] name args span = .ok t) : KeepsDoubles args t := by
  unfold Elaboration.signature at h
  split at h
  · next hsignature =>
    cases h
    rw [Libraries.signature?, List.findSome?_singleton] at hsignature
    obtain ⟨f, -, hf⟩ := Option.bind_eq_some_iff.mp hsignature
    exact keepsDoubles_builtin hf
  · split at h
    · cases h
      exact keepsDoubles_own _ _
    · cases h

end Ty

namespace Term

/-! ### Types -/

/-- The type of a node is the one that its form and the types of its parts ask for. Of forms that
may have any type nothing is said. -/
def TypedAsMade (t : Term) : Prop :=
  match t.shape with
  | .boolean _ | .dash | .instanceOf _ _ | .tests _ _ | .comparison _ _ => t.type = .boolean
  | .string _ => t.type = .string
  | .number n => t.type = .number n.kind ∧ ∃ text, Elaboration.literal? text = some n
  | .temporal v => t.type = v.type ∧ ∃ text, Datum.parseTemporal? text = some v
  | .list _ | .forIn _ _ => ∃ element, t.type = .list element
  | .context _ => ∃ fields, t.type = .context fields
  | .range _ _ _ _ => ∃ element start finish, t.type = .range element start finish
  | .function _ _ | .name _ .function =>
    ∃ params names result, t.type = .function params names result
  | .binary op left right => t.type = op.resultType left.type right.type
  | .negation operand => t.type = Elaboration.negationType operand.type
  | .ite _ yes no => t.type = yes.type.join no.type
  | .invocation (.named _ signature) args _ => signature.KeepsDoubles (args.map (·.type))
  | _ => True

/-- Whether a node is a name. -/
def isName (t : Term) : Bool :=
  match t.shape with
  | .name _ _ => true
  | _ => false

/-- A term is typed as it is made. -/
abbrev Typed (t : Term) : Prop := t.Everywhere TypedAsMade

end Term

/-! ### Scopes -/

/-- The only functions that names can refer to are the built-in ones. -/
structure Scope.OnlyBuiltins (S : Scope) : Prop where
  libraries : S.libraries = [.builtins]

namespace Scope.OnlyBuiltins

variable {S : Scope}

theorem declare (h : S.OnlyBuiltins) (name : String) (type : Ty) :
    (S.declare name type).OnlyBuiltins := by
  unfold Scope.declare
  split
  · exact h
  · exact ⟨h.libraries⟩

theorem withTest (h : S.OnlyBuiltins) (type : Ty) : (S.withTest type).OnlyBuiltins :=
  ⟨h.libraries⟩

end Scope.OnlyBuiltins

/-! ### Nodes -/

/-- What holds of the nodes of terms: it is known by the form and the type of a node, nodes have it
that are typed as they are made, and so have the names and the calls of functions by name in scopes
of a kind. -/
structure NodeLaw (I : Scope → Prop) (P : Term → Prop) : Prop where
  congr : ∀ {t u : Term}, u.shape = t.shape → u.type = t.type → P t → P u
  made : ∀ {t : Term}, t.TypedAsMade → t.isName = false → P t
  name : ∀ {S : Scope} {name : String} {ref : Reference} (span : Span), I S →
    S.resolve? name = some ref → P (.plain (.name name ref.origin) ref.type span)
  call : ∀ {S : Scope} {name : String} {args : List Term} {signature : Ty} {span : Span}, I S →
    Elaboration.signature S.libraries name (args.map (·.type)) span = .ok signature →
      P (.plain (.invocation (.named name signature) args none) (signature.result?.getD .any) span)
  push : ∀ {S : Scope} (isOpen : Bool), I S → I (S.push isOpen)
  declare : ∀ {S : Scope} (name : String) (type : Ty), I S → I (S.declare name type)
  withTest : ∀ {S : Scope} (type : Ty), I S → I (S.withTest type)

namespace NodeLaw

variable {I : Scope → Prop} {P : Term → Prop} (law : NodeLaw I P) {S : Scope}
include law

theorem declareAll (h : I S) (entries : List (String × Ty)) : I (S.declareAll entries) := by
  induction entries generalizing S with
  | nil => exact h
  | cons e entries ih => exact ih (law.declare e.1 e.2 h)

theorem filterScope (h : I S) (element : Ty) : I (Elaboration.filterScope S element) := by
  unfold Elaboration.filterScope
  extract_lets inner
  have hinner : I inner := by
    simp only [inner]
    split
    · exact law.declareAll (law.push false h) _
    · exact law.push true h
  exact law.declare _ _ hinner

theorem withComments {t : Term} (h : t.Everywhere P) (more : List String) :
    (t.withComments more).Everywhere P := by
  cases t
  refine .intro (law.congr ?_ ?_ h.here) fun s hs => h.part hs <;> rfl

theorem withWarning {t : Term} (h : t.Everywhere P) (more : Option String) :
    (t.withWarning more).Everywhere P := by
  cases t
  refine .intro (law.congr ?_ ?_ h.here) fun s hs => h.part hs <;> rfl

/-- A node that is no name has what is asked for where it is typed as it is made. -/
theorem node {t : Term} (htyped : t.TypedAsMade) (hname : t.isName = false)
    (h : ∀ s ∈ t.parts, s.Everywhere P) : t.Everywhere P :=
  .intro (law.made htyped hname) h

/-- A node without parts. -/
theorem leaf {t : Term} (htyped : t.TypedAsMade) (hname : t.isName = false)
    (hparts : t.parts = []) : t.Everywhere P :=
  law.node htyped hname (by rw [hparts]; exact List.forall_mem_nil _)

end NodeLaw

/-! ### Parts -/

namespace Elaboration

/-- The functions of the library have function types. -/
theorem exists_functionType {name : String} {f : FunctionValue}
    (h : Libraries.value? [.builtins] name = some f) :
    ∃ params names result, f.type = .function params names result := by
  rw [Libraries.value?, List.findSome?_singleton] at h
  obtain ⟨b, -, rfl⟩ := Option.map_eq_some_iff.mp h
  cases b <;> exact ⟨_, _, _, rfl⟩

/-- In scopes of a kind a part becomes a term whose nodes all have a property. -/
def Makes (I : Scope → Prop) (P : Term → Prop) (e : Elaboration) : Prop :=
  ∀ S t, I S → e S = .ok t → t.Everywhere P

/-- A part becomes a term that is typed as it is made. -/
def Typed (e : Elaboration) : Prop := ∀ S t, S.OnlyBuiltins → e S = .ok t → t.Typed

/-- In scopes of a kind the parts of an iterator become terms whose nodes all have a property. -/
structure MadeIterator (I : Scope → Prop) (P : Term → Prop) (it : Iterator Elaboration) : Prop where
  domain : Makes I P it.domain
  finish : ∀ e, it.finish = some e → Makes I P e

section Makes

variable {I : Scope → Prop} {P : Term → Prop}

theorem all_makes {es : List Elaboration} (h : ∀ e ∈ es, Makes I P e) {S : Scope} (hS : I S)
    {ts : List Term} (hts : all S es = .ok ts) : ∀ t ∈ ts, t.Everywhere P := by
  intro t ht
  obtain ⟨e, he, heq⟩ := exists_of_mem_all hts ht
  exact h e he S t hS heq

variable (law : NodeLaw I P)
include law

theorem makes_number (text : String) (span : Span) : Makes I P (number text span) := by
  intro S t _ ht
  unfold number at ht
  split at ht
  · next n hn =>
    cases ht
    exact law.leaf ⟨rfl, text, hn⟩ rfl rfl
  · cases ht

theorem makes_temporal (text : String) (span : Span) : Makes I P (temporal text span) := by
  intro S t _ ht
  unfold temporal at ht
  split at ht
  · next v hv =>
    cases ht
    exact law.leaf ⟨rfl, text, hv⟩ rfl rfl
  · cases ht

theorem makes_name (name : String) (span : Span) : Makes I P (Elaboration.name name span) := by
  intro S t hS ht
  unfold Elaboration.name at ht
  split at ht
  · next ref href =>
    cases ht
    exact .intro (law.name span hS href) (List.forall_mem_nil _)
  · cases ht

theorem makes_testInput (span : Span) : Makes I P (testInput span) := by
  intro S t _ ht
  obtain ⟨type, -, ht⟩ := bind_eq_ok.mp ht
  cases ht
  exact law.leaf trivial rfl rfl

theorem makes_list {items : List Elaboration} (h : ∀ e ∈ items, Makes I P e) (span : Span) :
    Makes I P (list items span) := by
  intro S t hS ht
  obtain ⟨ts, hts, ht⟩ := bind_eq_ok.mp ht
  cases ht
  exact law.node ⟨_, rfl⟩ rfl (all_makes h hS hts)

theorem entries_makes {es : List (String × Elaboration)} (h : ∀ e ∈ es, Makes I P e.2) {S : Scope}
    (hS : I S) {ts : List (String × Term)} (hts : entries S es = .ok ts) :
    ∀ e ∈ ts, e.2.Everywhere P := by
  induction es generalizing S ts with
  | nil =>
    cases hts
    simp
  | cons e es ih =>
    obtain ⟨t, ht, hts⟩ := bind_eq_ok.mp hts
    obtain ⟨rest, hrest, hts⟩ := bind_eq_ok.mp hts
    cases hts
    rw [List.forall_mem_cons] at h ⊢
    exact ⟨h.1 S t hS ht, ih h.2 (law.declare _ _ hS) hrest⟩

theorem makes_context {es : List (String × Elaboration)} (h : ∀ e ∈ es, Makes I P e.2)
    (span : Span) : Makes I P (context es span) := by
  intro S t hS ht
  obtain ⟨ts, hts, ht⟩ := bind_eq_ok.mp ht
  cases ht
  have hentries := entries_makes law h (law.push false hS) hts
  exact law.node ⟨_, rfl⟩ rfl (List.forall_mem_map.mpr hentries)

theorem makes_rangeNode {start finish : Term} (hs : start.Everywhere P) (hf : finish.Everywhere P)
    (si ei : Bool) (span : Span) : (Term.rangeNode start finish si ei span).Everywhere P :=
  law.node ⟨_, _, _, rfl⟩ rfl (List.forall_mem_cons.mpr ⟨hs, List.forall_mem_singleton.mpr hf⟩)

theorem makes_interval {start finish : Elaboration} (hs : Makes I P start) (hf : Makes I P finish)
    (si ei : Bool) (span : Span) : Makes I P (interval start finish si ei span) := by
  intro S t hS ht
  obtain ⟨s, hs', ht⟩ := bind_eq_ok.mp ht
  obtain ⟨e, he', ht⟩ := bind_eq_ok.mp ht
  cases ht
  exact makes_rangeNode law (hs S s hS hs') (hf S e hS he') si ei span

theorem makes_binary (source : String) (op : Operator) {left right : Elaboration}
    (hl : Makes I P left) (hr : Makes I P right) (span : Span) :
    Makes I P (binary source op left right span) := by
  intro S t hS ht
  obtain ⟨l, hl', ht⟩ := bind_eq_ok.mp ht
  obtain ⟨r, hr', ht⟩ := bind_eq_ok.mp ht
  cases ht
  refine law.withWarning ?_ _
  exact law.node rfl rfl (List.forall_mem_cons.mpr
    ⟨hl S l hS hl', List.forall_mem_singleton.mpr (hr S r hS hr')⟩)

theorem makes_negation {operand : Elaboration} (h : Makes I P operand) (span : Span) :
    Makes I P (negation operand span) := by
  intro S t hS ht
  obtain ⟨x, hx, ht⟩ := bind_eq_ok.mp ht
  cases ht
  refine law.withWarning ?_ _
  exact law.node rfl rfl (List.forall_mem_singleton.mpr (h S x hS hx))

theorem makes_between {value low high : Elaboration} (hv : Makes I P value) (hl : Makes I P low)
    (hh : Makes I P high) (span : Span) : Makes I P (between value low high span) := by
  intro S t hS ht
  obtain ⟨v, hv', ht⟩ := bind_eq_ok.mp ht
  obtain ⟨l, hl', ht⟩ := bind_eq_ok.mp ht
  obtain ⟨u, hu', ht⟩ := bind_eq_ok.mp ht
  cases ht
  refine law.node trivial rfl (List.forall_mem_cons.mpr ⟨hv S v hS hv', List.forall_mem_cons.mpr
    ⟨hl S l hS hl', List.forall_mem_singleton.mpr (hh S u hS hu')⟩⟩)

theorem makes_isIn {value : Elaboration} (hv : Makes I P value) {tests : List Elaboration}
    (h : ∀ e ∈ tests, Makes I P e) (spans : List Span) (span : Span) :
    Makes I P (isIn value tests spans span) := by
  intro S t hS ht
  obtain ⟨v, hv', ht⟩ := bind_eq_ok.mp ht
  obtain ⟨ts, hts, ht⟩ := bind_eq_ok.mp ht
  cases ht
  have htests := all_makes h (law.withTest v.type hS) hts
  exact law.node trivial rfl (List.forall_mem_cons.mpr
    ⟨hv S v hS hv', List.forall_mem_singleton.mpr (law.node rfl rfl htests)⟩)

theorem makes_instanceOf {value : Elaboration} (hv : Makes I P value) (target : TypeExpr)
    (span : Span) : Makes I P (instanceOf value target span) := by
  intro S t hS ht
  obtain ⟨v, hv', ht⟩ := bind_eq_ok.mp ht
  obtain ⟨type, -, ht⟩ := bind_eq_ok.mp ht
  cases ht
  exact law.node rfl rfl (List.forall_mem_singleton.mpr (hv S v hS hv'))

theorem makes_comparison (source : String) (op : Operator) {value : Elaboration}
    (hv : Makes I P value) (span : Span) : Makes I P (comparison source op value span) := by
  intro S t hS ht
  obtain ⟨v, hv', ht⟩ := bind_eq_ok.mp ht
  obtain ⟨type, -, ht⟩ := bind_eq_ok.mp ht
  cases ht
  refine law.withWarning ?_ _
  exact law.node rfl rfl (List.forall_mem_singleton.mpr (hv S v hS hv'))

theorem makes_tests (negated : Bool) {tests : List Elaboration} (h : ∀ e ∈ tests, Makes I P e)
    (span : Span) : Makes I P (Elaboration.tests negated tests span) := by
  intro S t hS ht
  obtain ⟨ts, hts, ht⟩ := bind_eq_ok.mp ht
  cases ht
  exact law.node rfl rfl (all_makes h hS hts)

theorem makes_ite {condition yes no : Elaboration} (hc : Makes I P condition) (hy : Makes I P yes)
    (hn : Makes I P no) (span : Span) : Makes I P (ite condition yes no span) := by
  intro S t hS ht
  obtain ⟨c, hc', ht⟩ := bind_eq_ok.mp ht
  obtain ⟨y, hy', ht⟩ := bind_eq_ok.mp ht
  obtain ⟨n, hn', ht⟩ := bind_eq_ok.mp ht
  cases ht
  exact law.node rfl rfl (List.forall_mem_cons.mpr ⟨hc S c hS hc', List.forall_mem_cons.mpr
    ⟨hy S y hS hy', List.forall_mem_singleton.mpr (hn S n hS hn')⟩⟩)

theorem domain_makes {it : Iterator Elaboration} (h : MadeIterator I P it) {S : Scope}
    (hS : I S) {t : Term} (ht : domain S it = .ok t) : t.Everywhere P := by
  obtain ⟨start, hstart, ht⟩ := bind_eq_ok.mp ht
  split at ht
  · cases ht
    exact h.domain S t hS hstart
  · next finish hfinish =>
    obtain ⟨last, hlast, ht⟩ := bind_eq_ok.mp ht
    cases ht
    exact makes_rangeNode law (h.domain S start hS hstart) (h.finish finish hfinish S last hS hlast)
      _ _ _

theorem iterations_makes {its : List (Iterator Elaboration)} (h : ∀ it ∈ its, MadeIterator I P it)
    {S : Scope} (hS : I S) {ts : List (Iteration Term)} {inner : Scope}
    (hts : iterations S its = .ok (ts, inner)) :
    (∀ it ∈ ts, it.domain.Everywhere P) ∧ I inner := by
  induction its generalizing S ts with
  | nil =>
    cases hts
    exact ⟨nofun, hS⟩
  | cons it its ih =>
    obtain ⟨t, ht, hts⟩ := bind_eq_ok.mp hts
    obtain ⟨⟨rest, scope⟩, hrest, hts⟩ := bind_eq_ok.mp hts
    cases hts
    rw [List.forall_mem_cons] at h ⊢
    obtain ⟨hparts, hinner⟩ := ih h.2 (law.declare _ _ hS) hrest
    exact ⟨⟨domain_makes law h.1 hS ht, hparts⟩, hinner⟩

theorem makes_forIn {its : List (Iterator Elaboration)} (h : ∀ it ∈ its, MadeIterator I P it)
    {body : Elaboration} (hb : Makes I P body) (span : Span) : Makes I P (forIn its body span) := by
  intro S t hS ht
  obtain ⟨⟨ts, inner⟩, hts, ht⟩ := bind_eq_ok.mp ht
  obtain ⟨b, hb', ht⟩ := bind_eq_ok.mp ht
  cases ht
  obtain ⟨hits, hinner⟩ := iterations_makes law h (law.push false hS) hts
  refine law.node ⟨_, rfl⟩ rfl (List.forall_mem_append.mpr ⟨List.forall_mem_map.mpr hits, ?_⟩)
  exact List.forall_mem_singleton.mpr (hb inner b hinner hb')

theorem makes_quantified (every : Bool) {its : List (Iterator Elaboration)}
    (h : ∀ it ∈ its, MadeIterator I P it) {condition : Elaboration} (hc : Makes I P condition)
    (span : Span) : Makes I P (quantified every its condition span) := by
  intro S t hS ht
  obtain ⟨⟨ts, inner⟩, hts, ht⟩ := bind_eq_ok.mp ht
  obtain ⟨c, hc', ht⟩ := bind_eq_ok.mp ht
  cases ht
  obtain ⟨hits, hinner⟩ := iterations_makes law h (law.push false hS) hts
  refine law.node trivial rfl (List.forall_mem_append.mpr ⟨List.forall_mem_map.mpr hits, ?_⟩)
  exact List.forall_mem_singleton.mpr (hc inner c hinner hc')

theorem makes_filter {source filter : Elaboration} (hs : Makes I P source) (hf : Makes I P filter)
    (span : Span) : Makes I P (Elaboration.filter source filter span) := by
  intro S t hS ht
  obtain ⟨s, hs', ht⟩ := bind_eq_ok.mp ht
  obtain ⟨f, hf', ht⟩ := bind_eq_ok.mp ht
  cases ht
  refine law.node trivial rfl (List.forall_mem_cons.mpr ⟨hs S s hS hs', ?_⟩)
  exact List.forall_mem_singleton.mpr (hf _ f (law.filterScope hS _) hf')

theorem makes_path {source : Elaboration} (hs : Makes I P source) (member : String) (span : Span) :
    Makes I P (path source member span) := by
  intro S t hS ht
  obtain ⟨s, hs', ht⟩ := bind_eq_ok.mp ht
  split at ht
  · cases ht
    exact law.node trivial rfl (List.forall_mem_singleton.mpr (hs S s hS hs'))
  · cases ht

theorem makes_function (params : List (String × Option TypeExpr)) {body : Elaboration}
    (hb : Makes I P body) (span : Span) : Makes I P (function params body span) := by
  intro S t hS ht
  obtain ⟨types, -, ht⟩ := bind_eq_ok.mp ht
  obtain ⟨b, hb', ht⟩ := bind_eq_ok.mp ht
  cases ht
  have hbody := hb _ b (law.declareAll (law.push false hS) types) hb'
  exact law.node ⟨_, _, _, rfl⟩ rfl (List.forall_mem_singleton.mpr hbody)

theorem valueCall_makes {source : String} {callee : Elaboration} (hc : Makes I P callee)
    {names : Option (List String)} {args : List Term} {span : Span} {S : Scope}
    (hS : I S) (hargs : ∀ t ∈ args, t.Everywhere P) {t : Term}
    (ht : valueCall source callee names args span S = .ok t) : t.Everywhere P := by
  obtain ⟨c, hc', ht⟩ := bind_eq_ok.mp ht
  split at ht
  · cases ht
  · extract_lets made at ht
    have hmade : ∀ type, (made type).Everywhere P := fun type =>
      law.node trivial rfl (List.forall_mem_cons.mpr ⟨hc S c hS hc', hargs⟩)
    split at ht
    · cases ht
      exact hmade _
    · cases ht
      exact hmade _
    · cases ht

theorem makes_invocation (source : String) (calleeName : Option String) {callee : Elaboration}
    (hc : Makes I P callee) {args : Arguments Elaboration}
    (h : ∀ e ∈ argumentParts args, Makes I P e) (span : Span) :
    Makes I P (invocation source calleeName callee args span) := by
  intro S t hS ht
  unfold invocation at ht
  extract_lets names at ht
  obtain ⟨ts, hts, ht⟩ := bind_eq_ok.mp ht
  have hargs := all_makes h hS hts
  split at ht
  · split at ht
    · obtain ⟨arranged, type, harranged, hsignature, rfl⟩ := of_namedCall ht
      refine .intro (law.call hS hsignature) fun u hu => ?_
      rcases harranged u hu with hmem | rfl
      · exact hargs u hmem
      · exact law.leaf trivial rfl rfl
    · exact valueCall_makes law hc hS hargs ht
  · exact valueCall_makes law hc hS hargs ht

end Makes

end Elaboration

/-! ### Trees -/

namespace Term

open Elaboration (Makes MadeIterator argumentParts)

variable (source : String) {I : Scope → Prop} {P : Term → Prop}

mutual

/-- The nodes of the terms of parse trees have what nodes have that are typed as they are made. -/
theorem ofSurface_makes (law : NodeLaw I P) : ∀ s : Surface, Makes I P (ofSurface source s)
  | .node form span comments => by
    intro S t hS ht
    obtain ⟨u, hu, ht⟩ := bind_eq_ok.mp ht
    cases ht
    exact law.withComments (ofForm_makes law span form S u hS hu) comments

theorem ofForm_makes (law : NodeLaw I P) (span : Span) :
    ∀ form : Form Surface, Makes I P (ofForm source span form)
  | .null => fun _ _ _ ht => Except.ok.inj ht ▸ law.leaf trivial rfl rfl
  | .boolean _ => fun _ _ _ ht => Except.ok.inj ht ▸ law.leaf rfl rfl rfl
  | .number text => Elaboration.makes_number law text span
  | .string _ => fun _ _ _ ht => Except.ok.inj ht ▸ law.leaf rfl rfl rfl
  | .temporal text => Elaboration.makes_temporal law text span
  | .name name => Elaboration.makes_name law name span
  | .testInput => Elaboration.makes_testInput law span
  | .dash => fun _ _ _ ht => Except.ok.inj ht ▸ law.leaf rfl rfl rfl
  | .list items => Elaboration.makes_list law (ofList_makes law items) span
  | .context entries => Elaboration.makes_context law (ofEntries_makes law entries) span
  | .interval start finish si ei =>
    Elaboration.makes_interval law (ofSurface_makes law start) (ofSurface_makes law finish)
      si ei span
  | .binary op left right =>
    Elaboration.makes_binary law source op (ofSurface_makes law left)
      (ofSurface_makes law right) span
  | .negation operand => Elaboration.makes_negation law (ofSurface_makes law operand) span
  | .between value low high =>
    Elaboration.makes_between law (ofSurface_makes law value) (ofSurface_makes law low)
      (ofSurface_makes law high) span
  | .isIn value tests =>
    Elaboration.makes_isIn law (ofSurface_makes law value) (ofList_makes law tests) _ span
  | .instanceOf value target =>
    Elaboration.makes_instanceOf law (ofSurface_makes law value) target span
  | .ite condition yes no =>
    Elaboration.makes_ite law (ofSurface_makes law condition) (ofSurface_makes law yes)
      (ofSurface_makes law no) span
  | .forIn its body =>
    Elaboration.makes_forIn law (ofIterators_makes law its) (ofSurface_makes law body) span
  | .quantified every its condition =>
    Elaboration.makes_quantified law every (ofIterators_makes law its)
      (ofSurface_makes law condition) span
  | .filter list filter =>
    Elaboration.makes_filter law (ofSurface_makes law list) (ofSurface_makes law filter) span
  | .function params body => Elaboration.makes_function law params (ofSurface_makes law body) span
  | .invocation callee args =>
    Elaboration.makes_invocation law source callee.name? (ofSurface_makes law callee)
      (ofArguments_makes law args) span
  | .path value member => Elaboration.makes_path law (ofSurface_makes law value) member span
  | .comparison op value =>
    Elaboration.makes_comparison law source op (ofSurface_makes law value) span
  | .tests negated tests => Elaboration.makes_tests law negated (ofList_makes law tests) span

theorem ofList_makes (law : NodeLaw I P) : ∀ ss : List Surface, ∀ e ∈ ofList source ss, Makes I P e
  | [] => fun _ he => absurd he List.not_mem_nil
  | s :: ss => List.forall_mem_cons.mpr ⟨ofSurface_makes law s, ofList_makes law ss⟩

theorem ofEntries_makes (law : NodeLaw I P) :
    ∀ es : List (String × Surface), ∀ e ∈ ofEntries source es, Makes I P e.2
  | [] => fun _ he => absurd he List.not_mem_nil
  | (_, s) :: es => List.forall_mem_cons.mpr ⟨ofSurface_makes law s, ofEntries_makes law es⟩

theorem ofOption_makes (law : NodeLaw I P) :
    ∀ o : Option Surface, ∀ e, ofOption source o = some e → Makes I P e
  | none => fun _ he => nomatch he
  | some s => fun _ he => Option.some.inj he ▸ ofSurface_makes law s

theorem ofIterators_makes (law : NodeLaw I P) :
    ∀ its : List (Iterator Surface), ∀ it ∈ ofIterators source its, MadeIterator I P it
  | [] => fun _ he => absurd he List.not_mem_nil
  | ⟨_, domain, finish⟩ :: its =>
    List.forall_mem_cons.mpr ⟨⟨ofSurface_makes law domain, ofOption_makes law finish⟩,
      ofIterators_makes law its⟩

theorem ofArguments_makes (law : NodeLaw I P) : ∀ args : Arguments Surface,
    ∀ e ∈ argumentParts (ofArguments source args), Makes I P e
  | .positional args => ofList_makes law args
  | .named args => List.forall_mem_map.mpr (ofEntries_makes law args)

end

/-- The same of terms of unary tests. -/
theorem ofTests_makes (law : NodeLaw I P) (tree : Surface) : Makes I P (ofTests source tree) := by
  intro S t hS ht
  obtain ⟨u, hu, ht⟩ := bind_eq_ok.mp ht
  have hmade := ofSurface_makes source law tree S u hS hu
  split at ht
  · cases ht
    exact hmade
  · cases ht
    refine law.withComments ?_ _
    exact law.node rfl rfl (List.forall_mem_singleton.mpr hmade)

end Term

/-- Nodes are typed as they are made where names refer to no functions but the built-in ones. -/
theorem Scope.OnlyBuiltins.nodeLaw : NodeLaw Scope.OnlyBuiltins Term.TypedAsMade where
  congr := by
    rintro ⟨shape, type, _⟩ ⟨_, _, _⟩ rfl rfl h
    exact h
  made h _ := h
  name span hS href := by
    rename_i S name ref
    obtain ⟨type, origin⟩ := ref
    cases origin with
    | function =>
      -- only the library has functions
      unfold Scope.resolve? at href
      split at href
      · cases href
      split at href
      · cases href
      split at href
      · cases href
      split at href
      · next f hf =>
        cases href
        rw [hS.libraries] at hf
        exact Elaboration.exists_functionType hf
      split at href
      · cases href
      · cases href
    | _ => trivial
  call hS hsignature := by
    rw [hS.libraries] at hsignature
    exact Ty.keepsDoubles_signature hsignature
  push _ h := ⟨h.libraries⟩
  declare name type h := h.declare name type
  withTest type h := h.withTest type

/-- **Terms of parse trees are typed as they are made.** -/
theorem Term.ofSurface_typed (source : String) (s : Surface) :
    Elaboration.Typed (ofSurface source s) :=
  ofSurface_makes source Scope.OnlyBuiltins.nodeLaw s

end Feel
