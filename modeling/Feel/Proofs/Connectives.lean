import Feel.Proofs.MovedTerms
import Feel.Proofs.NeverNull
import Feel.Proofs.Programs

/-!
# Conjunction and disjunction are three-valued

Where the operands of a conjunction or a disjunction compile on their own and give values, the
whole gives what the tables of three-valued logic say of these values. Operands that are marked as
booleans that are never null are lowered to the form that does not look for null; it gives the
same, as long as the marks are kept.

* `Code.denote_simplifyLogic`: the code of a connective follows the tables.
* `Fragment.Gives`: what a fragment gives in every program that it is part of.
* `Program.ofTree`: the program of a parse tree.
* `Scope.Operand`: trees that can be moved and whose marks are kept.
* `Program.run_connective`: the program of a connective follows the tables.
-/

namespace Feel

/-! ### Values -/

namespace Datum

/-- A boolean that settles a connective does so on either side. -/
theorem logic_dominant_left (op : Operator) (v : Value) :
    Datum.logic op (.boolean (op == .or)) v = .boolean (op == .or) := by
  cases op <;> cases v <;> rfl

theorem logic_dominant_right (op : Operator) (v : Value) :
    Datum.logic op v (.boolean (op == .or)) = .boolean (op == .or) := by
  cases op <;> cases v with
    | boolean b => cases b <;> rfl
    | _ => rfl

/-- A boolean that does not settle a connective leaves it to the other one. -/
theorem logic_neutral (op : Operator) {x : Bool} (h : x ≠ (op == .or)) (y : Bool) :
    Datum.logic op (.boolean x : Value) (.boolean y) = .boolean y := by
  cases op <;> cases x <;> cases y <;> first | rfl | exact absurd rfl h

end Datum

/-! ### Code -/

namespace Code

/-- **The code of a connective follows the tables.** Its short-circuit form does where both
operands are booleans. -/
theorem denote_simplifyLogic {m : Machine} {op : Operator} {shortCircuit : Bool} {l r : Code}
    {frame : Frame} {a b : Value} (ha : ∀ site, l.denote m site frame = .ok a)
    (hb : ∀ site, r.denote m site frame = .ok b)
    (hshort : shortCircuit = true → (∃ x, a = .boolean x) ∧ ∃ y, b = .boolean y) (site : Site) :
    (simplifyLogic m.constants op shortCircuit l r).denote m site frame =
      .ok (Datum.logic op a b) := by
  have hvalue : ∀ {c : Code} {v w : Value}, c.valueIn? m.constants = some v →
      (∀ site, c.denote m site frame = .ok w) → w = v := by
    intro c v w hv hw
    have hconst := denote_of_valueIn? hv [] frame
    rw [hw] at hconst
    exact Except.ok.inj hconst
  have hdominates : ∀ {c : Code} {w : Value},
      ((c.valueIn? m.constants).any (·.isBool (op == .or))) = true →
      (∀ site, c.denote m site frame = .ok w) → w = .boolean (op == .or) := by
    intro c w hany hw
    obtain ⟨v, hv, hbool⟩ := (Option.any_eq_true _ _).mp hany
    rw [hvalue hv hw, isBool_iff.mp hbool]
  unfold simplifyLogic
  split
  · next v w hv hw =>
    rw [hvalue hv ha, hvalue hw hb]
    rfl
  · dsimp only
    split
    · next hany =>
      rw [Bool.or_eq_true] at hany
      rcases hany with hany | hany
      · rw [hdominates hany ha, Datum.logic_dominant_left]
        rfl
      · rw [hdominates hany hb, Datum.logic_dominant_right]
        rfl
    · refine bind_eq_ok.mpr ⟨a, ha _, ?_⟩
      split
      · next hbool =>
        rw [isBool_iff.mp hbool, Datum.logic_dominant_left]
        rfl
      · next hbool =>
        refine bind_eq_ok.mpr ⟨b, hb _, ?_⟩
        cases hs : shortCircuit with
        | false => rfl
        | true =>
          -- the left operand is a boolean that leaves the result to the right one
          obtain ⟨⟨x, rfl⟩, y, rfl⟩ := hshort hs
          have hneutral : x ≠ (op == .or) := fun h => hbool (isBool_iff.mpr (congrArg _ h))
          rw [Datum.logic_neutral op hneutral]
          rfl

end Code

/-! ### Fragments -/

namespace Fragment

/-- In a frame a fragment gives a value, in every program over the pool that it was made for. -/
structure Gives (natives : Natives) (frame : Frame) (pool : List Value) (g : Fragment)
    (v : Value) : Prop where
  denote : ∀ pool', pool <+: pool' → ∀ site,
    (g.code.simplify pool' Number.defaultPrecision).denote
      (.ofPool natives pool' Number.defaultPrecision) site frame = .ok v
  known : ∀ w, g.constant = some w → v = w
  boolean : g.isProvenBoolean = true → ∃ x, v = .boolean x

namespace Gives

variable {natives : Natives} {frame : Frame} {pool pool' : List Value} {l r g : Fragment}
  {a b v : Value} {e e' : Draft}

theorem extend (h : g.Gives natives frame pool v) (hpool : pool <+: pool') :
    g.Gives natives frame pool' v :=
  ⟨fun pool'' hpool' => h.denote pool'' (hpool.trans hpool'), h.known, h.boolean⟩

/-- A boolean or null that is known is given, and nothing is pooled for it. -/
theorem of_truth (hv : (∃ c, v = .boolean c) ∨ v = .null)
    (h : (Outcome.ofValue v).emit e = .ok (g, e')) :
    e' = e ∧ g.Gives natives frame e.constants v := by
  have hcode : e.constantCode v = (.const v, e) := if_pos (inline_of_cases hv)
  have hemit : (Outcome.ofValue v).emit e =
      .ok (⟨(e.constantCode v).1, v.type, some v, v.isNull, isMachineValue v⟩,
        (e.constantCode v).2) := rfl
  rw [hemit, hcode] at h
  cases h
  refine ⟨rfl, fun _ _ _ => rfl, fun _ => Option.some.inj, fun hproven => ?_⟩
  rcases hv with hv | rfl
  · exact hv
  · cases hproven

/-- Code that may give null is given by what it does. -/
theorem of_computed {c : Code} {t : Ty} (h : ∀ pool', pool <+: pool' → ∀ site,
    (c.simplify pool' Number.defaultPrecision).denote
      (.ofPool natives pool' Number.defaultPrecision) site frame = .ok v) :
    (computed c t).Gives natives frame pool v :=
  ⟨h, (fun w hw => by cases hw), fun hproven => by simp [isProvenBoolean] at hproven⟩

theorem eq_of_dominant {op : Operator} (h : g.Gives natives frame pool v)
    (hdominant : isDominant {} op g = true) : v = .boolean (op == .or) := by
  rw [isDominant] at hdominant
  cases hw : g.value? {} with
  | none =>
    rw [hw] at hdominant
    cases hdominant
  | some w =>
    rw [hw] at hdominant
    rw [h.known w (constant_of_value? hw)]
    exact Code.isBool_iff.mp hdominant

/-- What two fragments are combined to gives what the tables say, and nothing is pooled for it. -/
theorem connective {op : Operator} (ha : l.Gives natives frame e.constants a)
    (hb : r.Gives natives frame e.constants b)
    (hg : (Fragment.connective {} op l r).emit e = .ok (g, e')) :
    e' = e ∧ g.Gives natives frame e.constants (Datum.logic op a b) := by
  unfold Fragment.connective at hg
  split at hg
  · next x y hxy =>
    obtain ⟨hx, hy⟩ := constants_of_operands? hxy
    rw [ha.known x hx, hb.known y hy]
    exact of_truth (logic_cases op x y) hg
  · split at hg
    · next hany =>
      rw [Bool.or_eq_true] at hany
      have hresult : e' = e ∧ g.Gives natives frame e.constants (.boolean (op == .or)) :=
        of_truth (.inl ⟨_, rfl⟩) hg
      rcases hany with hany | hany
      · rw [ha.eq_of_dominant hany, Datum.logic_dominant_left]
        exact hresult
      · rw [hb.eq_of_dominant hany, Datum.logic_dominant_right]
        exact hresult
    · dsimp only at hg
      generalize hshort : (isProvenBoolean l && isProvenBoolean r) = short at hg
      have hboolean : short = true → (∃ x, a = .boolean x) ∧ ∃ y, b = .boolean y := by
        rintro rfl
        rw [Bool.and_eq_true] at hshort
        exact ⟨ha.boolean hshort.1, hb.boolean hshort.2⟩
      have hdenote : ∀ pool', e.constants <+: pool' → ∀ site,
          ((Code.logic op short l.code r.code).simplify pool' Number.defaultPrecision).denote
            (.ofPool natives pool' Number.defaultPrecision) site frame =
              .ok (Datum.logic op a b) := by
        intro pool' hpool site
        exact Code.denote_simplifyLogic (m := .ofPool natives pool' _) (ha.denote pool' hpool)
          (hb.denote pool' hpool) hboolean site
      cases short with
      | false =>
        cases hg
        exact ⟨rfl, of_computed hdenote⟩
      | true =>
        cases hg
        obtain ⟨⟨x, rfl⟩, y, rfl⟩ := hboolean rfl
        refine ⟨rfl, hdenote, (fun w hw => by cases hw), fun _ => ?_⟩
        cases op <;> cases x <;> cases y <;> exact ⟨_, rfl⟩

end Gives

end Fragment

/-! ### Programs -/

/-- The terms of a tree can be moved and mark nothing in vain, and none of their operands is a list
of unary tests. -/
def Scope.Operand (K : Value → Prop) (S : Scope) (source : String) (tree : Surface) : Prop :=
  ∀ term, Term.ofSurface source tree S = .ok term → term.Everywhere (Term.Movable K S) ∧
    term.Everywhere Term.MarksOperands ∧ term.Everywhere (Term.KeepsOwnMark .simplified)

/-- Trees whose terms can be moved and keep their marks by their forms. -/
theorem Scope.operand_of_forms {K : Value → Prop} {S : Scope} {source : String} {tree : Surface}
    (h : (Term.ofSurface source tree S).toOption.all (fun t => t.all Term.ownUnpooled &&
      t.all (fun u => u.markedParts.all (!·.isTests)) && t.all Term.ownKeepsMark) = true) :
    S.Operand K source tree := by
  intro term hterm
  rw [hterm] at h
  simp only [Except.toOption, Option.all_some, Bool.and_eq_true] at h
  obtain ⟨⟨hunpooled, hoperands⟩, hkeeps⟩ := h
  refine ⟨Term.movable_of_unpooled (Term.everywhere_of_all hunpooled), ?_,
    (Term.everywhere_of_all hkeeps).imp fun _ => Term.keepsOwnMark_of_own⟩
  exact (Term.everywhere_of_all hoperands).imp fun u hu s hs => by
    simpa using List.all_eq_true.mp hu s hs

namespace Program

variable {entry : EntryPoint} {S : Scope} {source : String}

/-- The program of a parse tree. -/
def ofTree (entry : EntryPoint) (S : Scope) (source : String) (tree : Surface) :
    Except CompileError Program := do
  let term ← Term.ofSurface source tree S
  let (fragment, draft) ← (Fragment.ofWarnedTerm term S).run {}
  return ofFragment entry .expression source none S.options fragment draft

/-- The program of a text is the program of its parse tree. -/
theorem ofExpression_eq_ofTree {tree : Surface}
    (h : Surface.parseExpression source S.knownNames = .ok tree) :
    ofExpression entry S source = ofTree entry S source tree := by
  have hparsed : (Fragment.ofExpression source S).run {} =
      (liftM (Term.ofSurface source tree S) >>= fun term =>
        Fragment.ofWarnedTerm term S : Lowering Fragment) {} := by
    unfold Fragment.ofExpression
    rw [h]
    rfl
  unfold ofExpression ofTree
  rw [hparsed]
  cases Term.ofSurface source tree S with
  | error e => rfl
  | ok term => rfl

/-- The steps from a tree to its program. -/
theorem of_ofTree {tree : Surface} {p : Program} (h : ofTree entry S source tree = .ok p) :
    ∃ term f d, Term.ofSurface source tree S = .ok term ∧
      Fragment.ofWarnedTerm term S {} = .ok (f, d) ∧
        p = ofFragment entry .expression source none S.options f d := by
  obtain ⟨term, hterm, h⟩ := bind_eq_ok.mp h
  obtain ⟨⟨f, d⟩, hf, hp⟩ := bind_eq_ok.mp h
  exact ⟨term, f, d, hterm, hf, (pure_eq_ok.mp hp).symm⟩

/-- What is known of a fragment is what its program gives. -/
theorem run_of_known {kind : SourceKind} {decision : Option String} {o : Options} {f : Fragment}
    {d : Draft} {v : Value} (h : f.code.valueIn? d.constants = some v) (natives : Natives)
    (input : Value) (test : Option Value) :
    (ofFragment entry kind source decision o f d).run natives input test = .ok v := by
  have hroot : (ofFragment entry kind source decision o f d).root = f.code := by
    dsimp only [ofFragment]
    rw [Code.simplify_of_valueIn? h, ite_self]
  rw [run, hroot, Code.run]
  exact Code.denote_of_valueIn? h [] _

section Connectives

variable {K : Value → Prop} {natives : Natives} {input : Value} {test : Option Value}

/-- An operand of a connective: the fragment of its own program, the one that it has within the
whole program, and its value. -/
structure OperandRuns (S : Scope) (source : String) (natives : Natives) (input : Value)
    (test : Option Value) (f : Fragment) (d : Draft) (g : Fragment) (pool : List Value)
    (v : Value) : Prop where
  moved : ∃ shift, f.Moved d.constants pool shift g
  honest : ∃ T, f.Honest .simplified d.constants T
  runs : (ofFragment {} .expression source none S.options f d).run natives input test = .ok v

namespace OperandRuns

variable {f g : Fragment} {d : Draft} {pool pool' : List Value} {v : Value}

theorem extend (h : OperandRuns S source natives input test f d g pool v)
    (hpool : pool <+: pool') : OperandRuns S source natives input test f d g pool' v := by
  obtain ⟨shift, hmoved⟩ := h.moved
  exact ⟨⟨shift, hmoved.extend (List.prefix_refl _) hpool⟩, h.honest, h.runs⟩

theorem eq_of_known (h : OperandRuns S source natives input test f d g pool v) {w : Value}
    (hw : g.constant = some w) : v = w := by
  obtain ⟨shift, hmoved⟩ := h.moved
  have hknown : (ofFragment {} .expression source none S.options f d).run natives input test =
      .ok w :=
    run_of_known (hmoved.known w (hmoved.constant ▸ hw)) natives input test
  rw [h.runs] at hknown
  exact Except.ok.inj hknown

theorem denote (h : OperandRuns S source natives input test f d g pool v)
    (hS : S.Standard) (site : Site) :
    (g.code.simplify pool Number.defaultPrecision).denote
      (.ofPool natives pool Number.defaultPrecision) site ⟨input, test, []⟩ = .ok v := by
  obtain ⟨shift, hmoved⟩ := h.moved
  rw [← h.runs, hS.options]
  exact run_of_moved (o := {}) hmoved natives input test site

theorem boolean (h : OperandRuns S source natives input test f d g pool v) (hS : S.Standard)
    (hproven : Fragment.isProvenBoolean g = true) : ∃ x, v = .boolean x := by
  obtain ⟨shift, hmoved⟩ := h.moved
  obtain ⟨T, hhonest⟩ := h.honest
  rw [Fragment.isProvenBoolean, hmoved.type, hmoved.nullable, Bool.and_eq_true,
    Bool.not_eq_true'] at hproven
  obtain ⟨hboolean, hnullable⟩ := hproven
  have hgives : f.code.Gives d.constants (fun _ => True) fun v => f.type.holds v = true :=
    hhonest.runs hnullable
  have htype : f.type = .boolean := by
    cases hkind : f.type <;> rw [hkind] at hboolean <;> first | rfl | cases hboolean
  rw [htype] at hgives
  have hruns := h.runs
  rw [hS.options] at hruns
  exact Ty.holds_boolean (hgives (.ofPool natives d.constants Number.defaultPrecision)
    (List.prefix_refl _) rfl [] _ v .intro hruns)

/-- An operand gives its value. -/
theorem gives (h : OperandRuns S source natives input test f d g pool v) (hS : S.Standard) :
    g.Gives natives ⟨input, test, []⟩ pool v :=
  ⟨fun _ hpool => (h.extend hpool).denote hS, fun _ => h.eq_of_known, h.boolean hS⟩

end OperandRuns

/-- An operand within the whole program stands for its own program. -/
theorem OperandRuns.of_lowered (hS : S.Standard) (hK : ToldApart K) {tree : Surface} {t : Term}
    (hoperand : S.Operand K source tree) (ht : Term.ofSurface source tree S = .ok t)
    {f g : Fragment} {d e e' : Draft} (hf : Fragment.ofWarnedTerm t S {} = .ok (f, d))
    (he : e.Faithful K) (hg : Fragment.ofTerm t S e = .ok (g, e')) {v : Value}
    (hv : (ofFragment {} .expression source none S.options f d).run natives input test = .ok v) :
    e.constants <+: e'.constants ∧ e'.Faithful K ∧
      OperandRuns S source natives input test f d g e'.constants v := by
  obtain ⟨hmovable, hoperands, hkeeps⟩ := hoperand t ht
  have hlowered : Fragment.ofTerm t S (Draft.warn {} t.warnings) = .ok (f, d) := hf
  have hlink : Draft.Moved K e.locals (Draft.warn {} t.warnings) e :=
    ⟨(Nat.zero_add _).symm, ⟨nofun, List.nodup_nil⟩, he⟩
  obtain ⟨-, hgrow, hmoved⟩ := (Term.moves hK hS.libraries hmovable).whole S.testType [] []
    _ e f d g e' hlink List.nil_prefix List.nil_prefix hlowered hg
  obtain ⟨hlink', hmoved⟩ := hmoved .intro
  have htyped := Term.ofSurface_typed source tree S t ⟨hS.libraries⟩ ht
  obtain ⟨-, hhonest⟩ := (Term.honest htyped hoperands hkeeps).here.whole S [] hS _ f d
    List.nil_prefix hlowered
  exact ⟨hgrow, hlink'.right, ⟨_, hmoved⟩, ⟨_, hhonest⟩, hv⟩

/-- What is given in a program is what its run gives. -/
theorem run_of_gives {kind : SourceKind} {g : Fragment} {e : Draft} {v : Value}
    (h : g.Gives natives ⟨input, test, []⟩ e.constants v) :
    (ofFragment entry kind source none {} g e).run natives input test = .ok v :=
  h.denote e.constants (List.prefix_refl _) []

/-- What the fragments of two operands are combined to gives what the tables say. -/
theorem run_connectiveOf (hS : S.Standard) {op : Operator} {lf rf lg rg g : Fragment}
    {ld rd e : Draft} {a b : Value}
    (ha : OperandRuns S source natives input test lf ld lg e.constants a)
    (hb : OperandRuns S source natives input test rf rd rg e.constants b) {e' : Draft}
    (hg : (Fragment.connective S.options op lg rg).emit e = .ok (g, e')) :
    (ofFragment {} .expression source none S.options g e').run natives input test =
      .ok (Datum.logic op a b) := by
  rw [hS.options] at hg ⊢
  obtain ⟨rfl, hgives⟩ := (ha.gives hS).connective (hb.gives hS) hg
  exact run_of_gives hgives

/-- **A connective of programs follows the tables.** Where the program of a conjunction or a
disjunction is there, and the programs of its operands give values, it gives what three-valued
logic makes of these values. -/
theorem run_connective (hS : S.Standard) {op : Operator} (hop : op.isLogic = true)
    {left right : Surface} {span : Span} {comments : List String} {p l r : Program}
    (hp : ofTree {} S source (.node (.binary op left right) span comments) = .ok p)
    (hl : ofTree {} S source left = .ok l) (hr : ofTree {} S source right = .ok r)
    (hK : ToldApart K) (hleft : S.Operand K source left) (hright : S.Operand K source right)
    {a b : Value} (ha : l.run natives input test = .ok a) (hb : r.run natives input test = .ok b) :
    p.run natives input test = .ok (Datum.logic op a b) := by
  obtain ⟨tl, lf, ld, htl, hlf, rfl⟩ := of_ofTree hl
  obtain ⟨tr, rf, rd, htr, hrf, rfl⟩ := of_ofTree hr
  obtain ⟨term, g, e, hterm, hg, rfl⟩ := of_ofTree hp
  obtain ⟨form, hform, hterm⟩ := bind_eq_ok.mp hterm
  obtain ⟨tl', htl', hform⟩ := bind_eq_ok.mp hform
  obtain ⟨tr', htr', hform⟩ := bind_eq_ok.mp hform
  cases htl.symm.trans htl'
  cases htr.symm.trans htr'
  cases hform
  cases hterm
  -- the left operand comes after the warnings of the whole, the right one after the left one
  obtain ⟨d₀, hd₀, hg⟩ : ∃ d₀ : Draft, d₀.Faithful K ∧
      Lower.binary op (Fragment.ofTerm tl) (Fragment.ofTerm tr) span S d₀ = .ok (g, e) :=
    ⟨Draft.warn {} _, ⟨nofun, List.nodup_nil⟩, hg⟩
  obtain ⟨⟨lg, d₁⟩, hlg, hg⟩ := bind_eq_ok.mp hg
  obtain ⟨⟨rg, d₂⟩, hrg, hg⟩ := bind_eq_ok.mp hg
  obtain ⟨-, hd₁, ha⟩ := OperandRuns.of_lowered hS hK hleft htl hlf hd₀ hlg ha
  obtain ⟨hgrow, -, hb⟩ := OperandRuns.of_lowered hS hK hright htr hrf hd₁ hrg hb
  refine run_connectiveOf hS (ha.extend hgrow) hb ?_
  have hequality : op.isEquality = false := by cases op <;> first | rfl | cases hop
  simpa [Fragment.binary, Fragment.outcome?, hop, hequality] using hg

/-- Equalities are never null, so that their conjunction is lowered to the short-circuit form. -/
theorem run_connective_equalities :
    ∃ p a b, ofTree {} (inputScope (.context [("n", .number .integer), ("s", .string)]))
        "n = 1 and s = null" (.node (.binary .and
          (.node (.binary .eq (.node (.name "n") default []) (.node (.number "1") default []))
            default [])
          (.node (.binary .eq (.node (.name "s") default []) (.node .null default []))
            default [])) default []) = .ok p ∧
      p.run (fun _ _ => .null) (.context [("n", .int 1), ("s", .null)]) none =
        .ok (Datum.logic .and a b) ∧ a = .boolean true ∧ b = .boolean true := by
  let S : Scope := inputScope (.context [("n", .number .integer), ("s", .string)])
  let source : String := "n = 1 and s = null"
  let left : Surface := .node (.binary .eq (.node (.name "n") default [])
    (.node (.number "1") default [])) default []
  let right : Surface := .node (.binary .eq (.node (.name "s") default [])
    (.node .null default [])) default []
  let natives : Natives := fun _ _ => .null
  let input : Value := .context [("n", .int 1), ("s", .null)]
  have hwhole : ((ofTree {} S source (.node (.binary .and left right) default
      [])).toOption.map fun _ => ()) = some () := by decide +kernel
  have hleft : ((ofTree {} S source left).toOption.bind fun p =>
      (p.run natives input none).toOption.map (·.isBool true)) = some true := by decide +kernel
  have hright : ((ofTree {} S source right).toOption.bind fun p =>
      (p.run natives input none).toOption.map (·.isBool true)) = some true := by decide +kernel
  obtain ⟨p, hp, -⟩ := exists_ok hwhole
  obtain ⟨l, a, hl, ha, hatrue⟩ := exists_run hleft
  obtain ⟨r, b, hr, hb, hbtrue⟩ := exists_run hright
  have hK : ToldApart fun _ : Value => False := ⟨fun _ _ h => h.elim, fun _ h => h.elim⟩
  exact ⟨p, a, b, hp, run_connective ⟨rfl, rfl⟩ rfl hp hl hr hK
    (Scope.operand_of_forms (by decide +kernel)) (Scope.operand_of_forms (by decide +kernel))
    ha hb, Code.isBool_iff.mp hatrue, Code.isBool_iff.mp hbtrue⟩

end Connectives

end Program

end Feel
