import Feel.Proofs.MadeElsewhere
import Feel.Proofs.NamedOutputs
import Feel.Proofs.RepeatedLowering
import Feel.Proofs.UnaryTests

/-!
# Allowed values

Tests that are separated by commas are lowered one by one, and the rule of the connective puts each
to the disjunction of those before it. The rule computes what is known, leaves out what cannot
matter, and takes the last operand for the result where it may; in a program more is computed. In
whatever way it was put together, where none of the tests fails the disjunction is true if and only
if one of them is.

The allowed values of an output clause are lowered twice: as one list of tests, which is the check,
and then test by test, which gives the order of priority. The second time the same constants are
found and the cursors have other numbers, so that the check accepts a value if and only if one of
the tests has a place in the order that accepts it.

* `Fragment.either`, `Fragment.anyOf`: the disjunction of two fragments, and of many.
* `Lower.tests_eq`: a list of tests is lowered to the disjunction of the fragments of its tests.
* `Fragment.Tells`: wherever it runs, a fragment is true or is not.
* `Fragment.again_singles`: tests that are lowered once more, each as a list of its own.
* `Fragment.SharesTests`: the check and the priorities of an output column.
* `Decision.rank_eq`: the rank of a value is the place of the first test that accepts it.
* `Program.disjunction_and_ranks`: tests are a disjunction, and checks agree with ranks.
-/

namespace Feel

/-! ### Fragments -/

/-- The fragment of an outcome whose value needs no place in the pool. -/
def Outcome.inlined : Outcome → Fragment
  | value v type => ⟨.const v, type, some v, v.isNull, Fragment.isMachineValue v⟩
  | fragment f => f

namespace Fragment

/-- The disjunction of two fragments. -/
def either (o : Options) (l r : Fragment) : Fragment := (connective o .or l r).inlined

/-- The disjunction of fragments, from the first one on; none hold of no fragments. -/
def anyOf (o : Options) : List Fragment → Fragment
  | [] => ⟨.const (.boolean false), .boolean, some (.boolean false), false, true⟩
  | f :: fs => fs.foldl (either o) f

/-- What the rule of the connective makes of two fragments needs no place in the pool. -/
theorem emit_connective (o : Options) (op : Operator) (l r : Fragment) :
    (connective o op l r).emit = pure (connective o op l r).inlined := by
  have hvalue {v : Value} (hv : (∃ b, v = .boolean b) ∨ v = .null) :
      (Outcome.ofValue v).emit = pure (Outcome.ofValue v).inlined := by
    rcases hv with ⟨b, rfl⟩ | rfl <;> rfl
  unfold connective
  split
  · exact hvalue (logic_cases op _ _)
  · split
    · exact hvalue (.inl ⟨_, rfl⟩)
    · rfl

theorem binary_or (o : Options) (span : Span) (l r : Fragment) :
    binary o span .or l r = pure (either o l r) :=
  emit_connective o .or l r

end Fragment

/-! ### Lists of tests -/

namespace Lower

/-- The disjunction of a first fragment and of tests. -/
theorem anyOf_eq (S : Scope) (span : Span) (f : Fragment) (parts : List TestPart) :
    anyOf S span f parts = (do
      let fs ← parts.mapM (test S)
      return fs.foldl (Fragment.either S.options) f) := by
  induction parts generalizing f with
  | nil => rfl
  | cons part parts ih =>
    rw [anyOf, List.mapM_cons, bind_assoc]
    refine bind_congr fun g => ?_
    rw [Fragment.binary_or, pure_bind, ih, bind_assoc]
    rfl

/-- **A list of tests** is lowered to the disjunction of the fragments of its tests. -/
theorem tests_eq (S : Scope) (span : Span) (parts : List TestPart) :
    tests false parts span S = (do
      let fs ← parts.mapM (test S)
      return Fragment.anyOf S.options fs) := by
  have hwhole : tests false parts span S = disjunction S span parts := bind_pure _
  rw [hwhole]
  cases parts with
  | nil => rfl
  | cons part parts =>
    rw [disjunction, List.mapM_cons, bind_assoc]
    refine bind_congr fun f => ?_
    rw [anyOf_eq, bind_assoc]
    rfl

end Lower

/-! ### What a disjunction tells -/

namespace Code

variable {m : Machine} {site : Site} {frame : Frame} {v : Value} {l r : Code} {a b : Bool}

theorem holds_of_valueIn? {c : Code} {w : Value} (h : c.valueIn? m.constants = some w) :
    (c.denote m).holds site frame v = .ok (w.isBool true) := by
  rw [Action.holds, denote_of_valueIn? h]
  rfl

/-- A disjunction of values is true if and only if one of them is. -/
theorem isBool_logic_or (v w : Value) :
    (Datum.logic .or v w).isBool true = (v.isBool true || w.isBool true) := by
  rw [Bool.eq_iff_iff, Bool.or_eq_true, isBool_iff, isBool_iff, isBool_iff]
  exact Datum.or_eq_true

/-- A disjunction of code, whether its last operand is its result or not. -/
theorem holds_logic_or (s : Bool) (hl : (l.denote m).holds (0 :: site) frame v = .ok a)
    (hr : (r.denote m).holds (1 :: site) frame v = .ok b) :
    ((logic .or s l r).denote m).holds site frame v = .ok (a || b) := by
  obtain ⟨x, hx, hl⟩ := bind_eq_ok.mp hl
  obtain ⟨y, hy, hr⟩ := bind_eq_ok.mp hr
  obtain rfl : x.isBool true = a := Except.ok.inj hl
  obtain rfl : y.isBool true = b := Except.ok.inj hr
  cases hleft : x.isBool true with
  | true =>
    refine bind_eq_ok.mpr ⟨x, bind_eq_ok.mpr ⟨x, hx, ?_⟩, congrArg Except.ok ?_⟩
    · exact if_pos hleft
    · rw [hleft, Bool.true_or]
  | false =>
    refine bind_eq_ok.mpr ⟨if s then y else Datum.logic .or x y, bind_eq_ok.mpr ⟨x, hx, ?_⟩, ?_⟩
    · refine (if_neg ?_).trans (bind_eq_ok.mpr ⟨y, hy, rfl⟩)
      exact ne_true_of_eq_false hleft
    · refine congrArg Except.ok ?_
      cases s with
      | true => rw [if_pos rfl, Bool.false_or]
      | false => rw [if_neg Bool.false_ne_true, isBool_logic_or, hleft]

/-- A disjunction of code that is simplified. -/
theorem holds_simplifyLogic_or (s : Bool) (hl : (l.denote m).holds (0 :: site) frame v = .ok a)
    (hr : (r.denote m).holds (1 :: site) frame v = .ok b) :
    ((simplifyLogic m.constants .or s l r).denote m).holds site frame v = .ok (a || b) := by
  have hknown {c : Code} {i : Nat} {e : Bool} {w : Value} (hw : c.valueIn? m.constants = some w)
      (hc : (c.denote m).holds (i :: site) frame v = .ok e) : w.isBool true = e :=
    Except.ok.inj ((holds_of_valueIn? hw).symm.trans hc)
  have hdominates {c : Code} {i : Nat} {e : Bool}
      (hdom : (c.valueIn? m.constants).any (·.isBool true) = true)
      (hc : (c.denote m).holds (i :: site) frame v = .ok e) : e = true := by
    cases hw : c.valueIn? m.constants with
    | none =>
      rw [hw] at hdom
      cases hdom
    | some w =>
      rw [hw] at hdom
      exact (hknown hw hc).symm.trans hdom
  unfold simplifyLogic
  split
  · next x y hx hy =>
    refine (holds_of_valueIn? rfl).trans (congrArg Except.ok ?_)
    rw [isBool_logic_or, hknown hx hl, hknown hy hr]
  · dsimp only
    split
    · next hdom =>
      refine (holds_of_valueIn? rfl).trans (congrArg Except.ok ?_)
      rcases (Bool.or_eq_true _ _).mp hdom with hdom | hdom
      · rw [hdominates hdom hl]
        rfl
      · rw [hdominates hdom hr, Bool.or_true]
        rfl
    · exact holds_logic_or s hl hr

end Code

/-- Values that are the same are the same truth. -/
theorem Datum.isBool_of_same {v w : Value} (h : v.same w = true) (b : Bool) :
    v.isBool b = w.isBool b := by
  cases v with
  | boolean c =>
    cases w with
    | boolean d =>
      rw [same, beq_iff_eq] at h
      rw [h]
    | _ => simp [same] at h
  | _ =>
    cases w with
    | boolean d => simp [same] at h
    | _ => rfl

namespace Program

variable {o : Options} {natives : Natives} {pool : List Value} {site : Site} {frame : Frame}
  {v : Value}

theorem holds_of_valueIn? {c : Code} {w : Value} (h : c.valueIn? pool = some w) :
    (action o natives pool c).holds site frame v = .ok (w.isBool true) := by
  have hcode : finished o pool c = c := by
    unfold finished
    split
    · cases c <;> first | rfl | cases h
    · rfl
  rw [action, hcode]
  exact Code.holds_of_valueIn? h

theorem holds_or {l r : Code} {a b : Bool} (s : Bool)
    (hl : (action o natives pool l).holds (0 :: site) frame v = .ok a)
    (hr : (action o natives pool r).holds (1 :: site) frame v = .ok b) :
    (action o natives pool (.logic .or s l r)).holds site frame v = .ok (a || b) := by
  unfold action finished at hl hr ⊢
  split
  · next hfolding =>
    rw [if_pos hfolding] at hl hr
    exact Code.holds_simplifyLogic_or s hl hr
  · next hfolding =>
    rw [if_neg hfolding] at hl hr
    exact Code.holds_logic_or s hl hr

end Program

namespace Fragment

variable {o p : Options} {natives : Natives} {pool : List Value} {site place : Site}
  {frame : Frame} {v : Value} {f l r : Fragment} {a b : Bool}

/-- Wherever it runs at or below a place, a fragment is true of a value or is not, and so is the
value that is known of it. -/
structure Tells (o : Options) (natives : Natives) (pool : List Value) (site : Site) (frame : Frame)
    (v : Value) (f : Fragment) (b : Bool) : Prop where
  holds : ∀ x, (Program.action o natives pool f.code).holds (x ++ site) frame v = .ok b
  known : ∀ w, f.constant = some w → w.isBool true = b

/-- A known value tells whether it is true. -/
theorem Tells.value (w : Value) (type : Ty) (nullable primitive : Bool) :
    Tells o natives pool site frame v ⟨.const w, type, some w, nullable, primitive⟩
      (w.isBool true) :=
  ⟨fun _ => Program.holds_of_valueIn? rfl, fun u hu => by rw [Option.some.inj hu]⟩

/-- A fragment of which no value is known tells what its code gives. -/
theorem Tells.unknown {b : Bool}
    (hholds : ∀ x, (Program.action o natives pool f.code).holds (x ++ site) frame v = .ok b)
    (hknown : f.constant = none) : f.Tells o natives pool site frame v b := by
  refine ⟨hholds, fun w hw => ?_⟩
  rw [hknown] at hw
  cases hw

/-- **The disjunction of two fragments** is true if and only if one of them is. -/
theorem Tells.either (hl : l.Tells o natives pool site frame v a)
    (hr : r.Tells o natives pool site frame v b) :
    (either p l r).Tells o natives pool site frame v (a || b) := by
  have hwhole (s : Bool) (x : Site) :
      (Program.action o natives pool (.logic .or s l.code r.code)).holds (x ++ site) frame v =
        .ok (a || b) :=
    Program.holds_or s (hl.holds (0 :: x)) (hr.holds (1 :: x))
  have hdominates {f : Fragment} {e : Bool} (hf : f.Tells o natives pool site frame v e)
      (hdominant : isDominant p .or f = true) : e = true := by
    rw [isDominant] at hdominant
    cases hw : f.value? p with
    | none =>
      rw [hw] at hdominant
      cases hdominant
    | some w =>
      rw [hw] at hdominant
      exact (hf.known w (constant_of_value? hw)).symm.trans hdominant
  unfold Fragment.either connective
  split
  · next x y hxy =>
    obtain ⟨hx, hy⟩ := constants_of_operands? hxy
    rw [← hl.known x hx, ← hr.known y hy, ← Code.isBool_logic_or]
    exact .value _ _ _ _
  · split
    · next hdominant =>
      have htrue : (a || b) = true := by
        rcases (Bool.or_eq_true _ _).mp hdominant with hdominant | hdominant
        · rw [hdominates hl hdominant, Bool.true_or]
        · rw [hdominates hr hdominant, Bool.or_true]
      rw [htrue]
      exact .value _ _ _ _
    · dsimp only [Outcome.inlined]
      split
      · exact .unknown (hwhole _) rfl
      · exact .unknown (hwhole _) rfl

/-- **The disjunction of fragments** is true if and only if one of them is. -/
theorem tells_anyOf {fs : List Fragment} {bs : List Bool}
    (h : List.Forall₂ (Tells o natives pool site frame v) fs bs) :
    (anyOf p fs).Tells o natives pool site frame v (bs.any id) := by
  have hfold : ∀ {fs bs f b}, f.Tells o natives pool site frame v b →
      List.Forall₂ (Tells o natives pool site frame v) fs bs →
        (fs.foldl (Fragment.either p) f).Tells o natives pool site frame v (b || bs.any id) := by
    intro fs bs f b hf h
    induction h generalizing f b with
    | nil =>
      rw [List.any_nil, Bool.or_false]
      exact hf
    | @cons g c gs cs hg _ ih =>
      rw [List.foldl_cons, List.any_cons, ← Bool.or_assoc]
      exact ih (hf.either hg)
  cases h with
  | nil => exact .value _ _ _ _
  | cons hf h =>
    rw [List.any_cons]
    exact hfold hf h

/-- A portable fragment tells whether it is true if code that is like its own gives a truth at some
place. -/
theorem tells_of_holds (hnatives : natives.Uniform) (hf : f.Portable pool) {c : Code}
    (hc : c.Portable) (halike : c.Alike f.code) (hpool : ∀ w ∈ pool, w.Unplaced)
    (hframe : frame.Elsewhere [site, place]) (hv : v.Elsewhere [site, place])
    (h : (Program.action o natives pool c).holds place frame v = .ok b) :
    f.Tells o natives pool site frame v b := by
  have hholds : ∀ x, (Program.action o natives pool f.code).holds (x ++ site) frame v = .ok b := by
    intro x
    have hsub : ∀ a ∈ [place, x ++ site], ∃ b ∈ [site, place], b <:+ a := by
      simp [List.suffix_append]
    rw [Program.holds_alike hnatives halike hc hf.code hpool (hframe.mono hsub) (hv.mono hsub), h]
  refine ⟨hholds, fun w hw => ?_⟩
  obtain ⟨u, hu, hshare⟩ := hf.known w hw
  rw [Draft.sharesPlace, Bool.and_eq_true] at hshare
  rw [← Datum.isBool_of_same hshare.1]
  exact Except.ok.inj ((Program.holds_of_valueIn? hu).symm.trans (hholds []))

end Fragment

/-! ### Tests one by one -/

namespace Lowering

variable {α α' β γ : Type} {x : Lowering α}

/-- Steps that are done one by one give as many results. -/
theorem length_of_mapM {f : β → Lowering γ} {bs : List β} {cs : List γ} {d d' : Draft}
    (h : bs.mapM f d = .ok (cs, d')) : cs.length = bs.length := by
  induction bs generalizing cs d with
  | nil =>
    cases h
    rfl
  | cons b bs ih =>
    rw [List.mapM_cons] at h
    obtain ⟨⟨c, e₁⟩, -, h⟩ := bind_eq_ok.mp h
    obtain ⟨⟨cs, e₂⟩, hcs, h⟩ := bind_eq_ok.mp h
    cases h
    exact congrArg (· + 1) (ih hcs)

namespace Again

variable {k : Nat} {pool : List Value} {y : Lowering α'} {r : α → α'} {P : α → List Value → Prop}

/-- A step that is done once more behind warnings. -/
theorem warned (h : Again k pool x y r P) (more : List String) :
    Again k pool x (do Lowering.warn more; y) r P := by
  intro d a d' hd hx
  obtain ⟨hextends, hP, hagain⟩ := h d a d' hd hx
  exact ⟨hextends, hP, fun e he hlocals => hagain (e.warn more) he hlocals⟩

/-- A step that is done once more, with something made of what it gives. -/
theorem then_return (h : Again k pool x y r P) (f : α' → β) :
    Again k pool x (do return f (← y)) (fun a => f (r a)) P := by
  intro d a d' hd hx
  obtain ⟨hextends, hP, hagain⟩ := h d a d' hd hx
  refine ⟨hextends, hP, fun e he hlocals => ?_⟩
  obtain ⟨e', he', hsame⟩ := hagain e he hlocals
  exact ⟨e', bind_eq_ok.mpr ⟨_, he', rfl⟩, hsame⟩

/-- Steps that are done one by one, and done once more one by one. -/
theorem mapM (hP : ∀ a p p', p <+: p' → P a p → P a p') {f : β → Lowering α}
    {g : γ → Lowering α'} {bs : List β} {cs : List γ}
    (h : List.Forall₂ (fun b c => ∀ pool, Again k pool (f b) (g c) r P) bs cs) :
    Again k pool (bs.mapM f) (cs.mapM g) (List.map r) fun as p => ∀ a ∈ as, P a p := by
  induction h generalizing pool with
  | nil => exact .pure rfl fun _ _ => List.forall_mem_nil _
  | cons hstep _ ih =>
    rw [List.mapM_cons, List.mapM_cons]
    refine .bind (hstep pool) fun a p₁ _ ha => .bind ih fun as p₂ hp₂ has => ?_
    refine .pure rfl fun p₃ hp₃ => List.forall_mem_cons.mpr ⟨hP a _ _ (hp₂.trans hp₃) ha, ?_⟩
    exact fun b hb => hP b _ _ hp₃ (has b hb)

end Again

end Lowering

namespace Fragment

open Lowering (Again Extending)

variable {R : Renaming} {k : Nat} {S : Scope} {pool : List Value}

/-- The fragment of a list of one test is that of the test, behind the warnings of its term. -/
theorem ofTestsTree_single {source : String} {s : Surface} {t : Term}
    (h : Term.ofSurface source s S = .ok t) (span : Span) : ∃ more,
      ofTestsTree source (.plain (.tests false [s]) span) S = (do
        Lowering.warn more
        Lower.test S ⟨t.isCompleteTest, t.span, ofTerm t⟩) := by
  have hterm : Term.ofTests source (.plain (.tests false [s]) span) S =
      .ok (.plain (.tests false [t]) .boolean span) :=
    bind_eq_ok.mpr ⟨_, bind_eq_ok.mpr ⟨_, bind_eq_ok.mpr ⟨[t], bind_eq_ok.mpr ⟨t, h, rfl⟩, rfl⟩,
      rfl⟩, rfl⟩
  have htest : Lower.tests false (ofTests [t]) span S =
      Lower.test S ⟨t.isCompleteTest, t.span, ofTerm t⟩ := by
    rw [Lower.tests_eq, ofTests, ofTests, List.mapM_cons, bind_assoc]
    exact bind_pure _
  refine ⟨(Term.plain (.tests false [t]) .boolean span).warnings, ?_⟩
  unfold ofTestsTree
  rw [hterm, ← htest]
  rfl

/-- A test that was read in a scope is lowered once more to what it was lowered to. -/
theorem again_readTest (hR : R.Shifts k) {source : String} {s : Surface} {t : Term}
    (h : Term.ofSurface source s S = .ok t) (pool : List Value) :
    Again k pool (Lower.test S ⟨t.isCompleteTest, t.span, ofTerm t⟩)
      (Lower.test S ⟨t.isCompleteTest, t.span, ofTerm t⟩) (rename R) fun f pool' =>
        f.Portable pool' := by
  have hsteady := Term.ofSurface_makes source Term.steadyLiteral_nodeLaw s S t .intro h
  have hwhole : Lower.Repeats R k (ofTerm t) := (hsteady.repeats hR).whole
  exact Lower.again_test hR hwhole S pool

/-- **Tests that are lowered once more**, each as a list of its own, get the code that they had, but
for the numbers of its cursors. -/
theorem again_singles (hR : R.Shifts k) {source : String} {ss : List Surface} {ts : List Term}
    (h : List.Forall₂ (fun s t => Term.ofSurface source s S = .ok t) ss ts) :
    Again k pool ((ofTests ts).mapM (Lower.test S))
      (ss.mapM fun s => do
        let single := Surface.plain (.tests false [s]) s.span
        return (← ofTestsTree source single S).code)
      (List.map fun f => f.code.rename R) fun fs pool' => ∀ f ∈ fs, f.Portable pool' := by
  refine .mapM (fun _ _ _ hpool hf => hf.extend hpool) ?_
  rw [Elaboration.ofTests_eq_map, List.forall₂_map_left_iff]
  refine h.flip.imp fun t s hterm pool => ?_
  obtain ⟨more, hsingle⟩ := ofTestsTree_single hterm s.span
  dsimp only
  rw [hsingle]
  exact ((again_readTest hR hterm pool).warned more).then_return Fragment.code

/-- The fragments of tests that were read in a scope are portable. -/
theorem portable_of_tests {ts : List Term}
    (h : ∀ t ∈ ts, ∃ source s, Term.ofSurface source s S = .ok t) {d d' : Draft}
    {fs : List Fragment} (hfs : (ofTests ts).mapM (Lower.test S) d = .ok (fs, d')) :
    d.Extends d' ∧ ∀ f ∈ fs, f.Portable d'.constants := by
  obtain ⟨R, hR⟩ := Renaming.exists_shifts 0
  suffices hagain : Again 0 d.constants ((ofTests ts).mapM (Lower.test S))
      ((ofTests ts).mapM (Lower.test S)) (List.map (rename R)) fun fs pool =>
        ∀ f ∈ fs, f.Portable pool by
    obtain ⟨hextends, hportable, -⟩ := hagain d fs d' (List.prefix_refl _) hfs
    exact ⟨hextends, hportable⟩
  refine .mapM (fun _ _ _ hpool hf => hf.extend hpool) ?_
  refine List.forall₂_same.mpr fun part hpart pool => ?_
  rw [Elaboration.ofTests_eq_map] at hpart
  obtain ⟨t, ht, rfl⟩ := List.mem_map.mp hpart
  obtain ⟨source, s, hterm⟩ := h t ht
  exact again_readTest hR hterm pool

/-! ### Tables -/

/-- The check of an output column is the disjunction of fragments, and its priorities are their
codes, but for the numbers of the cursors. -/
structure SharesTests (o : Options) (pool : List Value) (fs : List Fragment) (R : Renaming)
    (column : MatrixOutput Code) : Prop where
  check : column.check = some (anyOf o fs).code
  priorities : column.priorities = fs.map fun f => f.code.rename R
  portable : ∀ f ∈ fs, f.Portable pool

theorem testsTree_run {text : String} {tree : Surface}
    (htree : Surface.parseTests text S.knownNames = .ok tree) {β : Type}
    (f : Surface → Lowering β) : (testsTree text S >>= f) = f tree := by
  unfold testsTree
  rw [htree]
  rfl

/-- The fragments of the tests whose disjunction is the fragment of a text. -/
theorem tests_of_ofTestsText {text : String} {tree : Surface} {ss : List Surface}
    (htree : Surface.parseTests text S.knownNames = .ok tree)
    (hform : tree.form = .tests false ss) {d d' : Draft} {g : Fragment}
    (h : ofTestsText text S d = .ok (g, d')) :
    ∃ ts e fs, List.Forall₂ (fun s t => Term.ofSurface text s S = .ok t) ss ts ∧
      (ofTests ts).mapM (Lower.test S) e = .ok (fs, d') ∧ g = anyOf S.options fs := by
  have htests : tree.tests = (false, ss) := by
    rw [Surface.tests, hform]
  unfold ofTestsText at h
  rw [testsTree_run htree] at h
  obtain ⟨⟨term, e⟩, hterm, h⟩ := bind_eq_ok.mp h
  obtain ⟨term', hterm', heq⟩ := bind_eq_ok.mp hterm
  cases heq
  obtain ⟨ts, type, span, comments, warnings, rfl, hts⟩ := Term.of_ofTests hterm'
  rw [htests] at hts h
  let term : Term := .node (.tests false ts) type span comments warnings
  have h : Lower.tests false (ofTests ts) span S (d.warn term.warnings) = .ok (g, d') := h
  rw [Lower.tests_eq] at h
  obtain ⟨⟨fs, e⟩, hfs, h⟩ := bind_eq_ok.mp h
  cases h
  exact ⟨ts, d.warn term.warnings, fs, hts, hfs, rfl⟩

/-- **The check and the priorities** of an output column come from the same tests. -/
theorem sharesTests_outputColumn {clause : OutputClause} {text : String}
    (hallowed : clause.allowedValues = some text) {tree : Surface} {ss : List Surface}
    (htree : Surface.parseTests text S.knownNames = .ok tree)
    (hform : tree.form = .tests false ss) {d d' : Draft} {column : MatrixOutput Code}
    (h : outputColumn S clause d = .ok (column, d')) :
    ∃ fs R, fs.length = ss.length ∧ SharesTests S.options d'.constants fs R column := by
  unfold outputColumn at h
  rw [hallowed] at h
  obtain ⟨⟨check, d₁⟩, hcheck, h⟩ := bind_eq_ok.mp h
  obtain ⟨⟨codes, d₂⟩, hcodes, hrest⟩ := bind_eq_ok.mp h
  have hcodes : priorities text S d₁ = .ok (codes, d₂) := hcodes
  obtain ⟨⟨c, e₁⟩, hc, hsome⟩ := bind_eq_ok.mp hcheck
  cases hsome
  obtain ⟨⟨g, e₂⟩, hg, heq⟩ := bind_eq_ok.mp hc
  cases heq
  obtain ⟨ts, e, fs, hts, hfs, rfl⟩ :=
    tests_of_ofTestsText (S := S.withTest .any) htree hform hg
  unfold priorities at hcodes
  rw [testsTree_run htree, hform] at hcodes
  -- the second time the numbers of cursors are as much higher as there were cursors
  have hmore : e.Extends d₁ := by
    obtain ⟨R, hR⟩ := Renaming.exists_shifts 0
    exact (again_singles hR hts e fs d₁ (List.prefix_refl _) hfs).1
  obtain ⟨R, hR⟩ := Renaming.exists_shifts (d₁.locals - e.locals)
  obtain ⟨-, hportable, hagain⟩ := again_singles hR hts e fs d₁ (List.prefix_refl _) hfs
  obtain ⟨e', he', hsame, -⟩ := hagain d₁ (List.prefix_refl _)
    (Nat.add_sub_cancel' hmore.locals).symm
  have hsecond : (fs.map fun f => f.code.rename R, e') = (codes, d₂) :=
    Except.ok.inj (he'.symm.trans hcodes)
  cases hsecond
  have hlast := extending_fallback S clause _ _ _ _ _ hrest
  obtain ⟨⟨fallback, e''⟩, -, hcolumn⟩ := bind_eq_ok.mp hrest
  cases hcolumn
  refine ⟨fs, R, ?_, rfl, rfl, fun f hf => (hportable f hf).extend (hsame ▸ hlast.constants)⟩
  rw [Lowering.length_of_mapM hfs, Elaboration.ofTests_eq_map, List.length_map, hts.length_eq]

/-- The output columns of the code of a table, each lowered in its turn, and a pool without
closures. -/
theorem columns_of_ofTable {d : Definition} {g : Fragment} {e : Draft}
    (h : ofTable d S {} = .ok (g, e)) : ∃ t, g.code = .decision t ∧
      (∀ w ∈ e.constants, w.Unplaced) ∧
      List.Forall₂ (fun clause column => ∃ d₁ d₂, outputColumn S clause d₁ = .ok (column, d₂) ∧
        d₂.constants <+: e.constants) d.outputs t.outputs := by
  obtain ⟨⟨columns, d₁⟩, hcolumns, h⟩ := bind_eq_ok.mp h
  obtain ⟨⟨rules, d₂⟩, hrules, h⟩ := bind_eq_ok.mp h
  obtain ⟨⟨outputs, d₃⟩, houtputs, h⟩ := bind_eq_ok.mp h
  cases h
  have h₁ := Extending.mapM (extending_inputColumn S) d.inputs _ _ _ hcolumns
  have h₂ := Extending.mapM (extending_rule S columns) d.rules _ _ _ hrules
  obtain ⟨h₃, houtputs⟩ := Extending.forall₂_mapM (extending_outputColumn S) houtputs
  refine ⟨_, rfl, fun w hw => ?_, houtputs.imp fun clause column hcolumn => ?_⟩
  · exact (((h₁.trans h₂).trans h₃).unplaced w hw).resolve_left List.not_mem_nil
  · obtain ⟨e₁, e₂, hcolumn, hlater⟩ := hcolumn
    exact ⟨e₁, e₂, hcolumn, hlater.constants⟩

end Fragment

/-! ### Ranks -/

/-- What is true of something for each member is true of a list, place by place. -/
theorem exists_forall₂ {α β : Type} {P : α → β → Prop} {as : List α}
    (h : ∀ a ∈ as, ∃ b, P a b) : ∃ bs, List.Forall₂ P as bs := by
  induction as with
  | nil => exact ⟨[], .nil⟩
  | cons a as ih =>
    rw [List.forall_mem_cons] at h
    obtain ⟨b, hb⟩ := h.1
    obtain ⟨bs, hbs⟩ := ih h.2
    exact ⟨b :: bs, .cons hb hbs⟩

namespace Decision

variable {site : Site} {frame : Frame} {v : Value}

/-- **The rank of a value** is the place of the first test that accepts it, and the number of the
tests where none does. -/
theorem rank_eq {as : List Action} {bs : List Bool} {n : Nat}
    (h : List.Forall₂ (fun x b => x.1.holds (x.2 :: site) frame v = .ok b) (as.zipIdx n) bs) :
    rank site frame v n as = .ok (n + bs.findIdx id) := by
  induction as generalizing n bs with
  | nil =>
    cases h
    rfl
  | cons a as ih =>
    obtain ⟨b, bs, hb, hrest, rfl⟩ := List.forall₂_cons_left_iff.mp h
    refine bind_eq_ok.mpr ⟨b, hb, ?_⟩
    rw [List.findIdx_cons]
    cases b with
    | true => rfl
    | false =>
      refine (ih hrest).trans (congrArg Except.ok ?_)
      rw [id, cond_false]
      omega

/-- What is not null is allowed where the check accepts it. -/
theorem allowed_of_check {column : MatrixOutput Action} {check : Action}
    (hcheck : column.check = some check) (hv : v.isNull = false) :
    allowed site frame column v = check.holds site frame v := by
  unfold allowed
  rw [hcheck, hv]
  rfl

end Decision

/-! ### Programs -/

namespace Program

variable {S : Scope} {natives : Natives}

/-- The output columns of the program of a table, each lowered in its turn. -/
theorem columns_ofTable {entry : EntryPoint} {d : Definition} {p : Program}
    (hp : ofTable entry S d = .ok p) (natives : Natives) : ∃ t, p.table? natives = some t ∧
      (∀ w ∈ p.constants, w.Unplaced) ∧
      List.Forall₂ (fun clause column => ∃ c d₁ d₂,
        column = MatrixOutput.map (action S.options natives p.constants) c ∧
        Fragment.outputColumn S clause d₁ = .ok (c, d₂) ∧ d₂.constants <+: p.constants)
        d.outputs t.outputs := by
  obtain ⟨g, e, hg, hconstants, htable⟩ := exists_table_ofTable hp natives
  obtain ⟨t, ht, hpool, hcolumns⟩ := Fragment.columns_of_ofTable hg
  refine ⟨_, htable t ht, ?_, ?_⟩
  · rw [hconstants]
    exact hpool
  · rw [DecisionMatrix.map, List.forall₂_map_right_iff, hconstants]
    refine hcolumns.imp fun clause c hcolumn => ?_
    obtain ⟨d₁, d₂, hc, hlater⟩ := hcolumn
    exact ⟨c, d₁, d₂, rfl, hc, hlater⟩

/-! ### Checks -/

section Checks

variable {o p : Options} {pool : List Value} {site place : Site} {frame : Frame} {v : Value}
  (hnatives : natives.Uniform) (hpool : ∀ w ∈ pool, w.Unplaced)
include hnatives hpool

/-- A disjunction that runs at one place is true if and only if one of its fragments is true, each
of which runs at another. -/
theorem holds_anyOf {fs : List Fragment} (hfs : ∀ f ∈ fs, f.Portable pool)
    (hframe : frame.Elsewhere [site, place]) (hv : v.Elsewhere [site, place])
    (hruns : ∀ f ∈ fs, ∃ b, (action o natives pool f.code).holds place frame v = .ok b) :
    ∃ b, (action o natives pool (Fragment.anyOf p fs).code).holds site frame v = .ok b ∧
      (b = true ↔ ∃ f ∈ fs, (action o natives pool f.code).holds place frame v = .ok true) := by
  have hstep : ∀ f ∈ fs, ∃ b, f.Tells o natives pool site frame v b ∧
      (action o natives pool f.code).holds place frame v = .ok b := by
    intro f hf
    obtain ⟨b, hb⟩ := hruns f hf
    exact ⟨b, Fragment.tells_of_holds hnatives (hfs f hf) (hfs f hf).code (hfs f hf).code.alike
      hpool hframe hv hb, hb⟩
  obtain ⟨bs, hbs⟩ := exists_forall₂ hstep
  have hwhole := Fragment.tells_anyOf (p := p) (hbs.imp fun _ _ h => h.1)
  refine ⟨bs.any id, hwhole.holds [], ?_⟩
  clear hstep hwhole hruns hfs
  induction hbs with
  | nil => simp
  | @cons f b fs bs hb _ ih =>
    rw [List.any_cons, Bool.or_eq_true, ih, List.exists_mem_cons_iff, hb.2, Except.ok.injEq]
    rfl

/-- A check accepts a value if and only if one of the tests that it shares with the priorities has a
place in their order. -/
theorem allowed_iff_of_sharesTests {fs : List Fragment} {R : Renaming} {c : MatrixOutput Code}
    (h : Fragment.SharesTests p pool fs R c) {column : MatrixOutput Action}
    (hcolumn : column = c.map (action o natives pool)) (hframe : frame.Elsewhere [site, place])
    (hv : v.Elsewhere [site, place]) (hnull : v.isNull = false)
    (hruns : ∀ (i : ℕ) (a : Action), column.priorities[i]? = some a →
      ∃ b, a.holds (i :: place) frame v = .ok b) :
    ∃ b r, Decision.allowed site frame column v = .ok b ∧
      Decision.rank place frame v 0 column.priorities = .ok r ∧
      (b = true ↔ r < column.priorities.length) := by
  have hpriorities : column.priorities =
      fs.map fun f => action o natives pool (f.code.rename R) := by
    rw [hcolumn, MatrixOutput.map, h.priorities, List.map_map]
    rfl
  have hcheck : column.check = some (action o natives pool (Fragment.anyOf p fs).code) := by
    rw [hcolumn, MatrixOutput.map, h.check]
    rfl
  have hstep : ∀ x ∈ fs.zipIdx, ∃ b, x.1.Tells o natives pool site frame v b ∧
      (action o natives pool (x.1.code.rename R)).holds (x.2 :: place) frame v = .ok b := by
    rintro ⟨f, i⟩ hx
    have hi : fs[i]? = some f := List.mem_zipIdx_iff_getElem?.mp hx
    have hf : f.Portable pool := h.portable f (List.mem_of_getElem? hi)
    obtain ⟨b, hb⟩ := hruns i (action o natives pool (f.code.rename R))
      (by rw [hpriorities, List.getElem?_map, hi]; rfl)
    have hsub : ∀ a ∈ [site, i :: place], ∃ b ∈ [site, place], b <:+ a := by
      simp
    exact ⟨b, Fragment.tells_of_holds hnatives hf (hf.code.rename_portable R)
      (hf.code.alike_rename R).symm hpool (hframe.mono hsub) (hv.mono hsub) hb, hb⟩
  obtain ⟨bs, hbs⟩ := exists_forall₂ hstep
  have htells : List.Forall₂ (Fragment.Tells o natives pool site frame v) fs bs := by
    have hfst := List.forall₂_map_left_iff.mpr (hbs.imp fun _ _ h => h.1)
    rwa [List.zipIdx_map_fst] at hfst
  refine ⟨bs.any id, 0 + bs.findIdx id, ?_, Decision.rank_eq ?_, ?_⟩
  · rw [Decision.allowed_of_check hcheck hnull]
    exact (Fragment.tells_anyOf htells).holds []
  · rw [hpriorities, List.zipIdx_map, List.forall₂_map_left_iff]
    exact hbs.imp fun _ _ h => h.2
  · rw [hpriorities, List.length_map, htells.length_eq, Nat.zero_add, List.findIdx_lt_length,
      List.any_eq_true]

end Checks

/-- **Tests that are separated by commas** are lowered to a fragment that is true if and only if one
of the fragments of the tests is, where none of these fails. The fragments come from one draft, in a
scope with any type of the value under test. The program may be simplified or not, and the whole and
the tests may run at different places, as long as what they see was made elsewhere.

**Allowed values** of an output clause that are such a list accept a value that is not null if and
only if its rank is that of a test, less than the number of the tests, where none of these fails. -/
theorem disjunction_and_ranks (hnatives : natives.Uniform) :
    (∀ (S : Scope) (ts : List Term) (span : Span) (d d' : Draft) (fs : List Fragment),
      (∀ t ∈ ts, ∃ source s, Term.ofSurface source s S = .ok t) →
      (Fragment.ofTests ts).mapM (Lower.test S) d = .ok (fs, d') →
      ∃ whole, Lower.tests false (Fragment.ofTests ts) span S d = .ok (whole, d') ∧
        ∀ (o : Options) (pool : List Value) (site place : Site) (frame : Frame) (v : Value),
          d'.constants <+: pool → (∀ w ∈ pool, w.Unplaced) →
          frame.Elsewhere [site, place] → v.Elsewhere [site, place] →
          (∀ f ∈ fs, ∃ b, (action o natives pool f.code).holds place frame v = .ok b) →
          ∃ b, (action o natives pool whole.code).holds site frame v = .ok b ∧
            (b = true ↔
              ∃ f ∈ fs, (action o natives pool f.code).holds place frame v = .ok true)) ∧
    ∀ (entry : EntryPoint) (S : Scope) (d : Definition) (p : Program),
      ofTable entry S d = .ok p → ∃ t, p.table? natives = some t ∧
        ∀ (j : ℕ) (clause : OutputClause) (text : String) (tree : Surface) (tests : List Surface),
          d.outputs[j]? = some clause → clause.allowedValues = some text →
          Surface.parseTests text S.knownNames = .ok tree → tree.form = .tests false tests →
          ∃ column, t.outputs[j]? = some column ∧ column.priorities.length = tests.length ∧
            ∀ (site place : Site) (frame : Frame) (v : Value),
              frame.Elsewhere [site, place] → v.Elsewhere [site, place] → v.isNull = false →
              (∀ (i : ℕ) (a : Action), column.priorities[i]? = some a →
                ∃ b, a.holds (i :: place) frame v = .ok b) →
              ∃ b r, Decision.allowed site frame column v = .ok b ∧
                Decision.rank place frame v 0 column.priorities = .ok r ∧
                (b = true ↔ r < column.priorities.length) := by
  refine ⟨fun S ts span d d' fs hts hfs => ?_, fun entry S d p hp => ?_⟩
  · refine ⟨Fragment.anyOf S.options fs, ?_, ?_⟩
    · rw [Lower.tests_eq]
      exact bind_eq_ok.mpr ⟨_, hfs, rfl⟩
    · intro o pool site place frame v hlater hpool hframe hv hruns
      obtain ⟨-, hportable⟩ := Fragment.portable_of_tests hts hfs
      exact holds_anyOf hnatives hpool (fun f hf => (hportable f hf).extend hlater) hframe hv hruns
  · obtain ⟨t, ht, hpool, hcolumns⟩ := columns_ofTable hp natives
    refine ⟨t, ht, fun j clause text tree tests hj hallowed htree hform => ?_⟩
    obtain ⟨column, hcolumn, c, d₁, d₂, hmap, hlowered, hlater⟩ :=
      getElem?_of_forall₂ hcolumns hj
    obtain ⟨fs, R, hlength, hshares⟩ :=
      Fragment.sharesTests_outputColumn hallowed htree hform hlowered
    refine ⟨column, hcolumn, ?_, fun site place frame v hframe hv hnull hruns => ?_⟩
    · rw [hmap, MatrixOutput.map, hshares.priorities, List.length_map, List.length_map, hlength]
    · have hshares : Fragment.SharesTests S.options p.constants fs R c :=
        ⟨hshares.check, hshares.priorities, fun f hf => (hshares.portable f hf).extend hlater⟩
      exact allowed_iff_of_sharesTests hnatives hpool hshares hmap hframe hv hnull hruns

/-- What gives a value that is seen. -/
theorem eq_ok_of_toOption {ε α : Type} {x : Except ε α} {a : α} (h : x.toOption = some a) :
    x = .ok a := by
  cases x with
  | error e => cases h
  | ok b => exact congrArg Except.ok (Option.some.inj h)

/-- Two tests that are strings. -/
def twoTests : List Term :=
  [.plain (.string "a") .string default, .plain (.string "b") .string default]

/-- A table whose output has two allowed values. -/
def twoAllowed : Definition where
  name := "t"
  inputs := [⟨"true", none⟩]
  outputs := [{ allowedValues := some "\"a\", \"b\"" }]
  rules := [⟨["-"], ["\"b\""], []⟩]
  hitPolicy := .priority

/-- The second of two allowed values is accepted, by their disjunction and by the check of a table,
and has a rank. -/
theorem disjunction_and_ranks_second :
    (∃ whole d', Lower.tests false (Fragment.ofTests twoTests) default
        (({} : Scope).withTest .any) {} = .ok (whole, d') ∧
      (action {} (fun _ _ => .null) d'.constants whole.code).holds [] (.ofInput .null)
        (.string "b") = .ok true) ∧
    ∃ p t column r, ofTable {} {} twoAllowed = .ok p ∧ p.table? (fun _ _ => .null) = some t ∧
      t.outputs[0]? = some column ∧
      Decision.allowed [1] (.ofInput .null) column (.string "b") = .ok true ∧
      Decision.rank [2] (.ofInput .null) (.string "b") 0 column.priorities = .ok r ∧
      r < column.priorities.length := by
  have hnatives : Natives.Uniform fun _ _ => .null := fun _ _ _ => rfl
  obtain ⟨htests, htables⟩ := disjunction_and_ranks hnatives
  have hframe (places : List Site) : (Frame.ofInput .null).Elsewhere places :=
    Frame.elsewhere_ofInput .null places
  have hv (places : List Site) : (Datum.string "b" : Value).Elsewhere places :=
    (Datum.Plain.string "b").elsewhere places
  refine ⟨?_, ?_⟩
  · have hseen : ((Fragment.ofTests twoTests).mapM (Lower.test (({} : Scope).withTest .any))
        {}).toOption.map (fun x => x.1.map fun f =>
          ((action {} (fun _ _ => .null) x.2.constants f.code).holds [] (.ofInput .null)
            (.string "b")).toOption) = some [some false, some true] := by
      decide +kernel
    obtain ⟨⟨fs, d'⟩, hfs, hvalues⟩ := exists_ok hseen
    have hterms : ∀ t ∈ twoTests, ∃ source s,
        Term.ofSurface source s (({} : Scope).withTest .any) = .ok t := by
      rw [twoTests, List.forall_mem_cons, List.forall_mem_singleton]
      exact ⟨⟨"", .plain (.string "a") default, rfl⟩, "", .plain (.string "b") default, rfl⟩
    obtain ⟨hextends, -⟩ := Fragment.portable_of_tests hterms hfs
    obtain ⟨whole, hwhole, hruns⟩ := htests _ _ default _ _ _ hterms hfs
    have hpool : ∀ w ∈ d'.constants, w.Unplaced := fun w hw =>
      (hextends.unplaced w hw).resolve_left List.not_mem_nil
    obtain ⟨f, fs, rfl, hfalse, hrest⟩ := List.map_eq_cons_iff.mp hvalues
    obtain ⟨g, fs, rfl, htrue, hnil⟩ := List.map_eq_cons_iff.mp hrest
    obtain rfl := List.map_eq_nil_iff.mp hnil
    have hfalse := eq_ok_of_toOption hfalse
    have htrue := eq_ok_of_toOption htrue
    obtain ⟨b, hb, hiff⟩ := hruns {} d'.constants [] [] _ _ (List.prefix_refl _) hpool
      (hframe _) (hv _) (List.forall_mem_cons.mpr ⟨⟨false, hfalse⟩,
        List.forall_mem_singleton.mpr ⟨true, htrue⟩⟩)
    refine ⟨whole, d', hwhole, ?_⟩
    rw [hb, hiff.mpr ⟨g, by simp, htrue⟩]
  · have hseen : ((ofTable {} {} twoAllowed).toOption.bind fun p =>
        (p.table? fun _ _ => .null).bind fun t => t.outputs[0]?.map fun column =>
          (column.priorities.map fun a => ((a.holds [0, 2] (.ofInput .null) (.string "b")).toOption,
            (a.holds [1, 2] (.ofInput .null) (.string "b")).toOption),
            (Decision.allowed [1] (.ofInput .null) column (.string "b")).toOption)) =
              some ([(some false, some false), (some true, some true)], some true) := by
      decide +kernel
    have hparse : (Surface.parseTests "\"a\", \"b\"" ({} : Scope).knownNames).toOption.map
        (fun tree => (tree.tests.1, tree.tests.2.length)) = some (false, 2) := by
      decide +kernel
    obtain ⟨p, hp, hseen⟩ := Option.bind_eq_some_iff.mp hseen
    obtain ⟨t, ht, hseen⟩ := Option.bind_eq_some_iff.mp hseen
    obtain ⟨column, hcolumn, hseen⟩ := Option.map_eq_some_iff.mp hseen
    obtain ⟨tree, htree, htests⟩ := exists_ok hparse
    obtain ⟨hpositive, hlength⟩ := Prod.mk.inj htests
    obtain ⟨tests, hform⟩ : ∃ tests, tree.form = .tests false tests := by
      obtain ⟨form, span, comments⟩ := tree
      cases form with
      | tests negated tests => exact ⟨tests, congrArg (Form.tests · tests) hpositive⟩
      | _ => cases hlength
    have hp := eq_ok_of_toOption hp
    obtain ⟨t', ht', hcolumns⟩ := htables {} {} twoAllowed p hp
    obtain rfl : t = t' := Option.some.inj (ht.symm.trans ht')
    obtain ⟨column', hcolumn', -, hagrees⟩ := hcolumns 0 _ _ tree tests rfl rfl htree hform
    obtain rfl : column = column' := Option.some.inj (hcolumn.symm.trans hcolumn')
    obtain ⟨hvalues, hallowed⟩ := Prod.mk.inj hseen
    obtain ⟨f, as, hfs, hfalse, hrest⟩ := List.map_eq_cons_iff.mp hvalues
    obtain ⟨g, as, rfl, htrue, hnil⟩ := List.map_eq_cons_iff.mp hrest
    obtain rfl := List.map_eq_nil_iff.mp hnil
    obtain ⟨b, r, hb, hr, hiff⟩ := hagrees [1] [2] _ _ (hframe _) (hv _) rfl fun i a hi => by
      rw [hfs] at hi
      rcases i with _ | _ | i
      · cases hi
        exact ⟨false, eq_ok_of_toOption (Prod.mk.inj hfalse).1⟩
      · cases hi
        exact ⟨true, eq_ok_of_toOption (Prod.mk.inj htrue).2⟩
      · cases hi
    have hallowed := eq_ok_of_toOption hallowed
    obtain rfl : b = true := Except.ok.inj (hb.symm.trans hallowed)
    exact ⟨p, t, column, r, hp, ht, hcolumn, hallowed, hr, hiff.mp rfl⟩

end Program

end Feel
