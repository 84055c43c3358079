import Feel.Proofs.ClosedLowering

/-!
# Terms in other scopes

Elaboration asks a scope for the type of the value under test only where the text speaks of this
value, and never whether constants are folded. So what has a term where there is no value under test
has the same term where there is one, whatever its type. Lowering asks for the type where the value
is compared and where it is put to tests; a term without such places is lowered in one way. The
tests behind `in` have a value under test of their own.

* `Elaboration.Kept`: parts that are elaborated in one way in such scopes.
* `Term.ofSurface_kept`: so are all trees.
* `Lower.Untested`: parts that are lowered in one way for all types of the value under test.
* `Term.Untested`: terms that do not speak of the value under test.
* `Term.Untested.lower`: so are these terms.
-/

namespace Feel

/-! ### Scopes -/

namespace Scope

variable (S : Scope) (test : Option Ty) (folding : Bool)

theorem declare_lowering (name : String) (type : Ty) :
    (S.lowering test folding).declare name type = (S.declare name type).lowering test folding := by
  obtain ⟨options, types, libraries, inputType, inputs, testType, layers⟩ := S
  cases layers with
  | nil => rfl
  | cons layer layers => rfl

theorem testType_declare (name : String) (type : Ty) :
    (S.declare name type).testType = S.testType := by
  unfold declare
  split <;> rfl

end Scope

/-! ### Elaboration -/

namespace Elaboration

/-- What is made of a part is made of it with and without folding, and with the same type of the value
under test; where there is no such value, with every type. -/
def Kept {α : Type} (e : Scope → Except CompileError α) : Prop :=
  ∀ S a test folding, test = S.testType ∨ S.testType = none → e S = .ok a →
    e (S.lowering test folding) = .ok a

namespace Kept

variable {α β : Type} {e : Scope → Except CompileError α}

theorem const (x : Except CompileError α) : Kept fun _ => x := fun _ _ _ _ _ h => h

theorem bind {f : α → Scope → Except CompileError β} (h : Kept e) (hf : ∀ a, Kept (f a)) :
    Kept fun S => e S >>= fun a => f a S := by
  intro S b test folding hS hb
  obtain ⟨a, ha, hb⟩ := bind_eq_ok.mp hb
  exact bind_eq_ok.mpr ⟨a, h S a test folding hS ha, hf a S b test folding hS hb⟩

theorem push (h : Kept e) (isOpen : Bool) : Kept fun S => e (S.push isOpen) :=
  fun S a test folding hS => h (S.push isOpen) a test folding hS

theorem declare (h : Kept e) (name : String) (type : Ty) : Kept fun S => e (S.declare name type) := by
  intro S a test folding hS ha
  show e ((S.lowering test folding).declare name type) = _
  rw [Scope.declare_lowering]
  rw [← S.testType_declare name type] at hS
  exact h _ a test folding hS ha

theorem declareAll (h : Kept e) (entries : List (String × Ty)) :
    Kept fun S => e (S.declareAll entries) := by
  unfold Scope.declareAll
  induction entries with
  | nil => exact h
  | cons entry entries ih => exact ih.declare entry.1 entry.2

theorem filterScope (h : Kept e) (element : Ty) : Kept fun S => e (filterScope S element) := by
  unfold Elaboration.filterScope
  split
  · exact ((h.declare "item" _).declareAll _).push false
  · exact (h.declare "item" element).push true

end Kept

/-- The tests behind `in` do not see the value under test of the whole. -/
theorem kept_withTest {α : Type} {e : Scope → Except CompileError α} (h : Kept e) (type : Ty) :
    Kept fun S => e (S.withTest type) :=
  fun S a _ folding _ => h (S.withTest type) a _ folding (.inl rfl)

theorem kept_testType (span : Span) : Kept (testType · span) := by
  rintro S a test folding (rfl | hS) ha
  · exact ha
  · change testType S span = _ at ha
    unfold testType at ha
    rw [hS] at ha
    cases ha

theorem kept_name (n : String) (span : Span) : Kept (name n span) := by
  intro S t test folding _ ht
  unfold name at ht ⊢
  exact ht

theorem kept_writtenType (span : Span) (t : TypeExpr) : Kept (writtenType · span t) :=
  fun _ _ _ _ _ h => h

variable {es : List Elaboration}

theorem kept_all (h : ∀ e ∈ es, Kept e) : Kept (all · es) := by
  induction es with
  | nil => exact .const _
  | cons e es ih =>
    rw [List.forall_mem_cons] at h
    exact h.1.bind fun _ => (ih h.2).bind fun _ => .const _

theorem kept_entries {es : List (String × Elaboration)} (h : ∀ e ∈ es, Kept e.2) :
    Kept (entries · es) := by
  induction es with
  | nil => exact .const _
  | cons entry es ih =>
    rw [List.forall_mem_cons] at h
    exact h.1.bind fun t => ((ih h.2).declare entry.1 t.type).bind fun _ => .const _

/-- What an iterator runs over is elaborated in one way. -/
structure KeptIterator (it : Iterator Elaboration) : Prop where
  domain : Kept it.domain
  finish : ∀ e, it.finish = some e → Kept e

theorem kept_domain {it : Iterator Elaboration} (h : KeptIterator it) : Kept (domain · it) := by
  refine h.domain.bind fun start => ?_
  cases hfinish : it.finish with
  | none => exact .const _
  | some e => exact (h.finish e hfinish).bind fun _ => .const _

/-- A body is elaborated in the scope that iterators lead to. -/
theorem kept_iterations {its : List (Iterator Elaboration)} (h : ∀ it ∈ its, KeptIterator it)
    {body : Elaboration} (hbody : Kept body) (make : List (Iteration Term) → Term → Term) :
    Kept (fun S => do
      let (ts, inner) ← iterations S its
      let body ← body inner
      return make ts body) := by
  induction its generalizing make with
  | nil => exact hbody.bind fun _ => .const _
  | cons it its ih =>
    rw [List.forall_mem_cons] at h
    have hrest (t : Term) := (ih h.2 fun ts => make (⟨it.name, t⟩ :: ts)).declare it.name
      t.type.elementType
    have hsteps := (kept_domain h.1).bind hrest
    simpa only [iterations, bind_assoc, pure_bind] using hsteps

theorem kept_paramTypes (span : Span) (params : List (String × Option TypeExpr)) :
    Kept (paramTypes · span params) := by
  induction params with
  | nil => exact .const _
  | cons param params ih =>
    obtain ⟨name, type⟩ := param
    cases type with
    | none => exact ih.bind fun _ => .const _
    | some t => exact (kept_writtenType span t).bind fun _ => ih.bind fun _ => .const _

theorem kept_invocation (source : String) (calleeName : Option String) {callee : Elaboration}
    (hc : Kept callee) {args : Arguments Elaboration} (h : ∀ e ∈ argumentParts args, Kept e)
    (span : Span) : Kept (invocation source calleeName callee args span) := by
  have hvalue (ts : List Term) : Kept (valueCall source callee (argumentNames args) ts span) :=
    hc.bind fun _ => .const _
  refine (kept_all h).bind fun ts S t test folding hS => ?_
  cases hname : calleeName.filter (!S.isLocal ·) with
  | none =>
    have hname' : calleeName.filter (!(S.lowering test folding).isLocal ·) = none := hname
    simp only [hname']
    exact hvalue ts S t test folding hS
  | some name =>
    have hname' : calleeName.filter (!(S.lowering test folding).isLocal ·) = some name := hname
    have hlibraries : (S.lowering test folding).libraries = S.libraries := rfl
    simp only [hname', hlibraries]
    cases S.libraries.overloads? name with
    | none => exact hvalue ts S t test folding hS
    | some overloads => exact id

end Elaboration

namespace Term

open Elaboration

variable (source : String)

mutual

/-- **Trees have one term**, with and without folding and, where they do not speak of the value under
test, for all its types. -/
theorem ofSurface_kept : ∀ s : Surface, Kept (ofSurface source s)
  | .node form span _ => (ofForm_kept span form).bind fun _ => .const _

theorem ofForm_kept (span : Span) : ∀ form : Form Surface, Kept (ofForm source span form)
  | .null => .const _
  | .boolean _ => .const _
  | .number _ => .const _
  | .string _ => .const _
  | .temporal _ => .const _
  | .name name => kept_name name span
  | .testInput => (kept_testType span).bind fun _ => .const _
  | .dash => .const _
  | .list items => (kept_all (ofList_kept items)).bind fun _ => .const _
  | .context entries => ((kept_entries (ofEntries_kept entries)).push false).bind fun _ => .const _
  | .interval start finish _ _ =>
    (ofSurface_kept start).bind fun _ => (ofSurface_kept finish).bind fun _ => .const _
  | .binary _ left right =>
    (ofSurface_kept left).bind fun _ => (ofSurface_kept right).bind fun _ => .const _
  | .negation operand => (ofSurface_kept operand).bind fun _ => .const _
  | .between value low high =>
    (ofSurface_kept value).bind fun _ => (ofSurface_kept low).bind fun _ =>
      (ofSurface_kept high).bind fun _ => .const _
  | .isIn value tests =>
    (ofSurface_kept value).bind fun v =>
      (kept_withTest (kept_all (ofList_kept tests)) v.type).bind fun _ => .const _
  | .instanceOf value target =>
    (ofSurface_kept value).bind fun _ => (kept_writtenType span target).bind fun _ => .const _
  | .ite condition yes no =>
    (ofSurface_kept condition).bind fun _ => (ofSurface_kept yes).bind fun _ =>
      (ofSurface_kept no).bind fun _ => .const _
  | .forIn its body =>
    (kept_iterations (ofIterators_kept its) (ofSurface_kept body) fun its body =>
      .plain (.forIn its body) (.list body.type) span).push false
  | .quantified every its condition =>
    (kept_iterations (ofIterators_kept its) (ofSurface_kept condition) fun its condition =>
      .plain (.quantified every its condition) .boolean span).push false
  | .filter list filter =>
    (ofSurface_kept list).bind fun t =>
      ((ofSurface_kept filter).filterScope t.type.elementType).bind fun _ => .const _
  | .function params body =>
    (kept_paramTypes span params).bind fun types =>
      (((ofSurface_kept body).declareAll types).push false).bind fun _ => .const _
  | .invocation callee args =>
    kept_invocation source callee.name? (ofSurface_kept callee) (ofArguments_kept args) span
  | .path value _ => (ofSurface_kept value).bind fun _ => .const _
  | .comparison _ value =>
    (ofSurface_kept value).bind fun _ => (kept_testType span).bind fun _ => .const _
  | .tests _ tests => (kept_all (ofList_kept tests)).bind fun _ => .const _

theorem ofList_kept : ∀ ss : List Surface, ∀ e ∈ ofList source ss, Kept e
  | [] => fun _ he => absurd he List.not_mem_nil
  | s :: ss => List.forall_mem_cons.mpr ⟨ofSurface_kept s, ofList_kept ss⟩

theorem ofEntries_kept : ∀ es : List (String × Surface), ∀ e ∈ ofEntries source es, Kept e.2
  | [] => fun _ he => absurd he List.not_mem_nil
  | (_, s) :: es => List.forall_mem_cons.mpr ⟨ofSurface_kept s, ofEntries_kept es⟩

theorem ofOption_kept : ∀ o : Option Surface, ∀ e, ofOption source o = some e → Kept e
  | none => fun _ he => nomatch he
  | some s => fun _ he => Option.some.inj he ▸ ofSurface_kept s

theorem ofIterators_kept :
    ∀ its : List (Iterator Surface), ∀ it ∈ ofIterators source its, KeptIterator it
  | [] => fun _ he => absurd he List.not_mem_nil
  | ⟨_, domain, finish⟩ :: its =>
    List.forall_mem_cons.mpr ⟨⟨ofSurface_kept domain, ofOption_kept finish⟩, ofIterators_kept its⟩

theorem ofArguments_kept :
    ∀ args : Arguments Surface, ∀ e ∈ argumentParts (ofArguments source args), Kept e
  | .positional args => ofList_kept args
  | .named args => List.forall_mem_map.mpr (ofEntries_kept args)

end

end Term

/-! ### Lowering -/

namespace Lower

/-- Parts that are lowered in one way for all types of the value under test. -/
def Untested {α : Type} (l : Scope → Lowering α) : Prop :=
  ∀ (S : Scope) (test : Option Ty), l { S with testType := test } = l S

variable {α β : Type}

theorem Untested.const (x : Lowering α) : Untested fun _ => x := fun _ _ => rfl

theorem Untested.bind {l : Scope → Lowering α} {f : α → Scope → Lowering β} (h : Untested l)
    (hf : ∀ a, Untested (f a)) : Untested fun S => l S >>= fun a => f a S := by
  intro S test
  dsimp only
  rw [h S test]
  exact congrArg _ (funext fun a => hf a S test)

theorem untested_all {ls : List Lower} (h : ∀ l ∈ ls, Untested l) : Untested (all · ls) := by
  induction ls with
  | nil => exact .const _
  | cons l ls ih =>
    rw [List.forall_mem_cons] at h
    exact h.1.bind fun _ => (ih h.2).bind fun _ => .const _

/-- What a binding runs over is lowered in one way. -/
structure UntestedDomain (part : DomainPart) : Prop where
  whole : Untested part.whole
  bounds : ∀ b, part.bounds = some b → Untested b.start ∧ Untested b.finish

theorem untested_domain {part : DomainPart} (h : UntestedDomain part) : Untested (domain part) := by
  have hvalues : Untested fun S => do return Domain.values (← part.whole S).code :=
    h.whole.bind fun _ => .const _
  unfold domain
  split
  · exact hvalues
  · next b hb =>
    obtain ⟨hs, hf⟩ := h.bounds b hb
    refine hs.bind fun s => hf.bind fun f => ?_
    split
    · exact .const _
    · exact hvalues

theorem untested_bindings {parts : List DomainPart} (h : ∀ part ∈ parts, UntestedDomain part) :
    Untested (bindings · parts) := by
  induction parts with
  | nil => exact .const _
  | cons part parts ih =>
    rw [List.forall_mem_cons] at h
    exact (untested_domain h.1).bind fun _ => (ih h.2).bind fun _ => .const _

end Lower

namespace Term

/-- Whether a form speaks of the value under test itself. -/
def speaksOfTest (t : Term) : Bool :=
  match t.shape with
  | .testInput | .comparison _ _ | .tests _ _ => true
  | _ => false

/-- The parts that have the value under test of the whole. -/
def openParts (t : Term) : List Term :=
  match t.shape with
  | .isIn value _ => [value]
  | _ => t.parts

/-- A term that does not speak of the value under test. -/
inductive Untested : Term → Prop
  | intro {t : Term} : t.speaksOfTest = false → (∀ s ∈ t.openParts, Untested s) → Untested t

open Lower (UntestedDomain untested_all untested_bindings)

/-- **Terms that do not speak of the value under test are lowered in one way**, and so are their
bounds, if they are written as ranges. -/
theorem Untested.lower {t : Term} (h : t.Untested) : Lower.Untested (Fragment.ofTerm t) ∧
    ∀ b, Fragment.ofBounds t = some b → Lower.Untested b.start ∧ Lower.Untested b.finish := by
  induction h with
  | @intro t hspeaks _ ih =>
    obtain ⟨shape, type, span, comments, warnings⟩ := t
    have hlist : ∀ {ts : List Term},
        (∀ s ∈ ts, s ∈ (node shape type span comments warnings).openParts) →
          ∀ l ∈ Fragment.ofList ts, Lower.Untested l := by
      intro ts hts l hl
      obtain ⟨s, hs, rfl⟩ := Fragment.mem_ofList hl
      exact (ih s (hts s hs)).1
    have hdomains : ∀ {its : List (Iteration Term)}, (∀ s ∈ its.map (·.domain),
        s ∈ (node shape type span comments warnings).openParts) →
          ∀ part ∈ Fragment.ofIterations its, UntestedDomain part := by
      intro its hits part hpart
      obtain ⟨s, hs, hwhole, hbounds⟩ := Fragment.mem_ofIterations hpart
      have hs := ih s (hits s hs)
      exact ⟨hwhole ▸ hs.1, fun b hb => hs.2 b (hbounds ▸ hb)⟩
    have hpart (s : Term) (hs : s ∈ (node shape type span comments warnings).openParts) :
        Lower.Untested (Fragment.ofTerm s) := (ih s hs).1
    refine ⟨?_, fun b hb => ?_⟩
    · change Lower.Untested (Fragment.ofShape type span shape)
      cases shape with
      | testInput | tests | comparison => cases hspeaks
      | list items => exact (untested_all (hlist fun _ => id)).bind fun _ => fun _ _ => rfl
      | null | boolean _ | number _ | string _ | temporal _ | dash => exact .const _
      | name name origin => exact fun _ _ => rfl
      | context entries =>
        refine (untested_all (List.forall_mem_map.mpr fun e he => ?_)).bind fun _ => fun _ _ => rfl
        obtain ⟨s, hs, heq⟩ := Fragment.mem_ofEntries he
        rw [heq]
        exact hpart s hs
      | range start finish si ei =>
        exact (hpart start (.head _)).bind fun _ =>
          (hpart finish (.tail _ (.head _))).bind fun _ => fun _ _ => rfl
      | binary op left right =>
        exact (hpart left (.head _)).bind fun _ =>
          (hpart right (.tail _ (.head _))).bind fun _ => fun _ _ => rfl
      | negation operand => exact (hpart operand (.head _)).bind fun _ => fun _ _ => rfl
      | between value low high =>
        exact (hpart value (.head _)).bind fun _ => (hpart low (.tail _ (.head _))).bind fun _ =>
          (hpart high (.tail _ (.tail _ (.head _)))).bind fun _ => fun _ _ => rfl
      | isIn value tests => exact (hpart value (.head _)).bind fun _ => fun _ _ => rfl
      | instanceOf value target => exact (hpart value (.head _)).bind fun _ => fun _ _ => rfl
      | ite condition yes no =>
        exact (hpart condition (.head _)).bind fun _ => (hpart yes (.tail _ (.head _))).bind
          fun _ => (hpart no (.tail _ (.tail _ (.head _)))).bind fun _ => fun _ _ => rfl
      | forIn its body =>
        have hits := hdomains fun s hs => List.mem_append_left _ hs
        exact (untested_bindings hits).bind fun _ =>
          (hpart body (List.mem_append_right _ (.head _))).bind fun _ => .const _
      | quantified every its condition =>
        have hits := hdomains fun s hs => List.mem_append_left _ hs
        exact (untested_bindings hits).bind fun _ =>
          (hpart condition (List.mem_append_right _ (.head _))).bind fun _ => .const _
      | filter source filter kind =>
        exact (hpart source (.head _)).bind fun _ =>
          (hpart filter (.tail _ (.head _))).bind fun _ => .const _
      | function params body => exact (hpart body (.head _)).bind fun _ => .const _
      | invocation callee args names =>
        cases callee with
        | named name signature =>
          exact (untested_all (hlist fun _ => id)).bind fun _ => fun _ _ => rfl
        | value callee =>
          exact (untested_all (hlist fun _ => .tail _)).bind fun _ =>
            (hpart callee (.head _)).bind fun _ => .const _
      | path source member => exact (hpart source (.head _)).bind fun _ => .const _
    · cases shape with
      | range start finish si ei =>
        cases hb
        exact ⟨hpart start (.head _), hpart finish (.tail _ (.head _))⟩
      | _ => cases hb

end Term

end Feel
