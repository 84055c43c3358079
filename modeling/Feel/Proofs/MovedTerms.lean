import Feel.Program.Compile
import Feel.Proofs.MovedLowering
import Feel.Proofs.Unpooled

/-!
# Forms, terms and texts in other programs

From parts that are lowered to moved fragments every form of an expression is lowered to moved
fragments. A term can be moved where it defines no function and calls none but built-in ones, and
where what is known of its nodes is told apart in the pool. A text that can be moved is lowered to
one fragment, whether it is lowered alone or after others.

* `Lower.Moves`: a part is lowered to one fragment in all programs.
* `Lower.carried_list` and the laws beside it: one for each form.
* `Term.Movable`, `Term.moves`: terms of nodes that can be moved.
* `Scope.MovesExpression`, `Scope.MovesTests`: texts whose terms can be moved.
* `Lowering.Alone`: a fragment is the one that a step gives when it is taken alone.
* `Lowering.Keeps`: what a step leaves of a draft that holds each of its values once.
* `Fragment.pairs_ofExpression`, `Fragment.pairs_ofTestsText`: such texts after other ones.
* `Program.run_of_moved`: what stands for a text gives what the program of the text gives.
-/

namespace Feel

/-- The scope in which a part is lowered. Only the type of the value under test changes from part
to part. -/
def Scope.testing (S : Scope) (test : Option Ty) : Scope := { S with testType := test }

namespace Lower

open Lowering (Pairs Relation Free)
open Fragment (Granted)

/-- Fragments that are moved. -/
abbrev Carried (shift : Nat) : Relation Fragment := fun f g p q => f.Moved p q shift g

/-- A part is lowered to moved fragments. -/
def Moves (K : Value → Prop) (shift : Nat) (S : Scope) (l : Lower) : Prop :=
  ∀ test p q, Pairs (Draft.Moved K shift) p q (l (S.testing test)) (l (S.testing test)) Free
    (Carried shift)

/-- What is known of a part, if it is pooled, is of a kind. -/
def Knows (K : Value → Prop) (S : Scope) (l : Lower) : Prop :=
  ∀ test d f d', l (S.testing test) d = .ok (f, d') →
    ∀ v, f.constant = some v → Draft.isInline v = false → K v

variable {K : Value → Prop} {shift : Nat} {S : Scope} {p q : List Value} {test : Option Ty}

/-- A form of which what is known is of a kind. -/
theorem Moves.of_granted {l : Lower}
    (h : ∀ test p q, Pairs (Draft.Moved K shift) p q (l (S.testing test)) (l (S.testing test))
      (Granted K) (Carried shift)) (hknows : Knows K S l) : Moves K shift S l := by
  intro test p q
  exact (h test p q).grant fun d e f d' g e' _ _ hg => hknows test e g e' hg

/-- Cursors have numbers that are `shift` apart. -/
theorem carried_fresh :
    Pairs (Draft.Moved K shift) p q (Lowering.fresh "cursor") (Lowering.fresh "cursor") Free
      fun c c' _ _ => ∃ n, c = Draft.cursor n ∧ c' = Draft.cursor (n + shift) := by
  intro d e c d' c' e' hlink _ _ hc hc'
  cases hc
  cases hc'
  have hlocals : e.locals + 1 = d.locals + 1 + shift := by
    rw [hlink.locals, Nat.add_right_comm]
  refine ⟨List.prefix_refl _, List.prefix_refl _, fun _ =>
    ⟨⟨hlocals, ⟨hlink.left.poolable, hlink.left.nodup⟩,
      ⟨hlink.right.poolable, hlink.right.nodup⟩⟩, d.locals + 1, rfl, ?_⟩⟩
  rw [← hlocals]
  rfl

theorem carried_all {ls : List Lower} (h : ∀ l ∈ ls, Moves K shift S l) (test : Option Ty)
    (p q : List Value) :
    Pairs (Draft.Moved K shift) p q (all (S.testing test) ls) (all (S.testing test) ls) Free
      fun fs gs p' q' => fs.length = ls.length ∧
        List.Forall₂ (Fragment.Moved p' q' shift) fs gs := by
  induction ls generalizing p q with
  | nil => exact .pure fun _ _ _ _ _ => ⟨rfl, .nil⟩
  | cons l ls ih =>
    rw [List.forall_mem_cons] at h
    refine .bind (h.1 test p q) fun f g p₁ q₁ _ _ hfg => ?_
    refine .bind (ih h.2 p₁ q₁) fun fs gs p₂ q₂ hp hq ⟨hlength, hrest⟩ => ?_
    refine .pure fun p₃ q₃ hp' hq' _ => ⟨congrArg (· + 1) hlength, ?_⟩
    exact .cons ((hfg.extend hp hq).extend hp' hq') (hrest.imp fun _ _ h => h.extend hp' hq')

/-! ### Structures -/

section Forms

variable (hK : ToldApart K)
include hK

theorem carried_list {items : List Lower} (h : ∀ l ∈ items, Moves K shift S l) (type : Ty) :
    Pairs (Draft.Moved K shift) p q (list items type (S.testing test))
      (list items type (S.testing test)) (Granted K) (Carried shift) := by
  refine .bind (carried_all h test p q) fun fs gs p' q' _ _ ⟨_, hfg⟩ => ?_
  rw [Fragment.Moved.values?_eq hfg]
  split
  · exact Fragment.pairs_ofConstant hK _ _
  · refine .pure fun p'' q'' hp hq _ => Fragment.Moved.extend ?_ hp hq
    have hcodes := Fragment.Moved.codes hfg
    exact .nonNull (.computed (.list hcodes.length_eq (Code.zip_of_forall₂ hcodes)) _)

theorem carried_context {entries : List (String × Lower)}
    (h : ∀ e ∈ entries, Moves K shift S e.2) (type : Ty) :
    Pairs (Draft.Moved K shift) p q (context entries type (S.testing test))
      (context entries type (S.testing test)) (Granted K) (Carried shift) := by
  refine .bind (carried_all (List.forall_mem_map.mpr h) test p q)
    fun fs gs p' q' _ _ ⟨_, hfg⟩ => ?_
  rw [Fragment.Moved.values?_eq hfg]
  split
  · exact Fragment.pairs_ofConstant hK _ _
  · refine .pure fun p'' q'' hp hq _ => Fragment.Moved.extend ?_ hp hq
    exact .nonNull (.computed (.zipContext _ (Fragment.Moved.codes hfg)) _)

theorem carried_range {start finish : Lower} (hs : Moves K shift S start)
    (hf : Moves K shift S finish) (si ei : Bool) (type : Ty) :
    Pairs (Draft.Moved K shift) p q (range start finish si ei type (S.testing test))
      (range start finish si ei type (S.testing test)) (Granted K) (Carried shift) := by
  refine .bind (hs test p q) fun s s' p₁ q₁ _ _ hs' => ?_
  refine .bind (hf test p₁ q₁) fun f f' p₂ q₂ hp hq hf' => ?_
  have hs' := hs'.extend hp hq
  rw [hs'.operands?_eq hf']
  split
  · exact Fragment.pairs_ofConstant hK _ _
  · refine .pure fun p₃ q₃ hp hq _ => Fragment.Moved.extend ?_ hp hq
    exact .nonNull (.computed (.range si ei hs'.code hf'.code) _)

/-! ### Operators -/

theorem carried_negation {operand : Lower} (h : Moves K shift S operand) (type : Ty) :
    Pairs (Draft.Moved K shift) p q (negation operand type (S.testing test))
      (negation operand type (S.testing test)) (Granted K) (Carried shift) := by
  refine .bind (h test p q) fun f g p' q' _ _ hfg => ?_
  rw [hfg.value?_eq, hfg.nullable]
  split
  · exact Fragment.pairs_ofConstant hK _ _
  · refine .pure fun p'' q'' hp hq _ => Fragment.Moved.extend ?_ hp hq
    exact .withNullable (.computed (.negate hfg.code) _) _

theorem carried_binary {left right : Lower} (op : Operator) (hl : Moves K shift S left)
    (hr : Moves K shift S right) (span : Span) :
    Pairs (Draft.Moved K shift) p q (binary op left right span (S.testing test))
      (binary op left right span (S.testing test)) (Granted K) (Carried shift) := by
  refine .bind (hl test p q) fun l l' p₁ q₁ _ _ hl' => ?_
  refine .bindLinked (hr test p₁ q₁) fun r r' d e hlink hp hq hr' => ?_
  exact Fragment.pairs_binaryMoved (hl'.extend hp hq) hr' op hK hlink.left.nodup
    hlink.right.nodup span

theorem carried_instanceOf {value : Lower} (h : Moves K shift S value) (target : Ty) :
    Pairs (Draft.Moved K shift) p q (instanceOf value target (S.testing test))
      (instanceOf value target (S.testing test)) (Granted K) (Carried shift) := by
  refine .bind (h test p q) fun f g p' q' _ _ hfg => ?_
  rw [hfg.value?_eq]
  split
  · exact Fragment.pairs_ofConstant hK _ _
  · refine .pure fun p'' q'' hp hq _ => Fragment.Moved.extend ?_ hp hq
    exact .nonNull (.computed (.instanceOf target hfg.code) _)

omit hK

theorem carried_between {value low high : Lower} (hv : Moves K shift S value)
    (hl : Moves K shift S low) (hh : Moves K shift S high) :
    Pairs (Draft.Moved K shift) p q (between value low high (S.testing test))
      (between value low high (S.testing test)) (Granted K) (Carried shift) := by
  refine .bind (hv test p q) fun v v' p₁ q₁ _ _ hv' => ?_
  refine .bind (hl test p₁ q₁) fun l l' p₂ q₂ hp₂ hq₂ hl' => ?_
  refine .bind (hh test p₂ q₂) fun h h' p₃ q₃ hp₃ hq₃ hh' => ?_
  refine .pure fun p₄ q₄ hp₄ hq₄ _ => .extend (.computed ?_ _) hp₄ hq₄
  exact .between ((hv'.extend hp₂ hq₂).extend hp₃ hq₃).code (hl'.extend hp₃ hq₃).code hh'.code

theorem carried_isIn {value tests : Lower} (hv : Moves K shift S value)
    (ht : Moves K shift S tests) :
    Pairs (Draft.Moved K shift) p q (isIn value tests (S.testing test))
      (isIn value tests (S.testing test)) (Granted K) (Carried shift) := by
  refine .bind (hv test p q) fun v v' p₁ q₁ _ _ hv' => ?_
  rw [hv'.type]
  refine .bind (ht (some v.type) p₁ q₁) fun t t' p₂ q₂ hp₂ hq₂ ht' => ?_
  refine .pure fun p₃ q₃ hp₃ hq₃ _ => .extend (.computed ?_ _) hp₃ hq₃
  exact .withTestInput (hv'.extend hp₂ hq₂).code ht'.code

/-! ### Control -/

theorem carried_ite {condition yes no : Lower} (hc : Moves K shift S condition)
    (hy : Moves K shift S yes) (hn : Moves K shift S no) (type : Ty) :
    Pairs (Draft.Moved K shift) p q (ite condition yes no type (S.testing test))
      (ite condition yes no type (S.testing test)) (Granted K) (Carried shift) := by
  refine .bind (hc test p q) fun c c' p₁ q₁ _ _ hc' => ?_
  refine .bind (hy test p₁ q₁) fun y y' p₂ q₂ hp₂ hq₂ hy' => ?_
  refine .bind (hn test p₂ q₂) fun n n' p₃ q₃ hp₃ hq₃ hn' => ?_
  have hc' := (hc'.extend hp₂ hq₂).extend hp₃ hq₃
  have hy' := hy'.extend hp₃ hq₃
  rw [hc'.value?_eq, hy'.nullable, hn'.nullable]
  split
  · refine .pure fun p₄ q₄ hp₄ hq₄ _ => Fragment.Moved.extend ?_ hp₄ hq₄
    split
    · exact hy'.withType type
    · exact hn'.withType type
  · refine .pure fun p₄ q₄ hp₄ hq₄ _ => Fragment.Moved.extend ?_ hp₄ hq₄
    exact .withNullable (.computed (.ite hc'.code hy'.code hn'.code) _) _

/-- What a binding runs over is lowered to moved fragments. -/
structure DomainMoves (K : Value → Prop) (shift : Nat) (S : Scope) (part : DomainPart) :
    Prop where
  whole : Moves K shift S part.whole
  bounds : ∀ b, part.bounds = some b → Moves K shift S b.start ∧ Moves K shift S b.finish

theorem carried_domain {part : DomainPart} (h : DomainMoves K shift S part) :
    Pairs (Draft.Moved K shift) p q (domain part (S.testing test)) (domain part (S.testing test))
      Free fun a b p' q' => a.Moved (Code.Moved p' q' shift) shift b := by
  have hvalues : ∀ p q, Pairs (Draft.Moved K shift) p q
      (do return Domain.values (← part.whole (S.testing test)).code)
      (do return Domain.values (← part.whole (S.testing test)).code) Free
      fun a b p' q' => a.Moved (Code.Moved p' q' shift) shift b := by
    intro p q
    refine .bind (h.whole test p q) fun f g p₁ q₁ _ _ hfg => ?_
    exact .pure fun p₂ q₂ hp hq _ => .values (hfg.extend hp hq).code
  unfold domain
  cases hbounds : part.bounds with
  | none => exact hvalues p q
  | some b =>
    obtain ⟨hs, hf⟩ := h.bounds b hbounds
    refine .bind (hs test p q) fun s s' p₁ q₁ _ _ hs' => ?_
    refine .bind (hf test p₁ q₁) fun f f' p₂ q₂ hp₂ hq₂ hf' => ?_
    split
    · refine .bind carried_fresh fun cursor cursor' p₃ q₃ hp₃ hq₃ ⟨n, hcursor, hcursor'⟩ => ?_
      subst hcursor hcursor'
      refine .pure fun p₄ q₄ hp₄ hq₄ _ => ?_
      have hp := hp₃.trans hp₄
      have hq := hq₃.trans hq₄
      exact .steps part.element n ((hs'.extend hp₂ hq₂).extend hp hq).code (hf'.extend hp hq).code
    · exact hvalues p₂ q₂

theorem carried_bindings {parts : List DomainPart} (h : ∀ part ∈ parts, DomainMoves K shift S part)
    (p q : List Value) :
    Pairs (Draft.Moved K shift) p q (bindings (S.testing test) parts)
      (bindings (S.testing test) parts) Free
      fun as bs p' q' => List.Forall₂ (Binding.Moved (Code.Moved p' q' shift) shift) as bs := by
  induction parts generalizing p q with
  | nil => exact .pure fun _ _ _ _ _ => .nil
  | cons part parts ih =>
    rw [List.forall_mem_cons] at h
    refine .bind (carried_domain h.1) fun a b p₁ q₁ _ _ hab => ?_
    refine .bind (ih h.2 p₁ q₁) fun as bs p₂ q₂ hp hq hrest => ?_
    refine .pure fun p₃ q₃ hp' hq' _ => .cons ⟨rfl, ?_⟩ ?_
    · exact hab.imp fun c d hcd => (hcd.extend hp hq).extend hp' hq'
    · exact hrest.imp fun _ _ h => ⟨h.1, h.2.imp fun c d hcd => hcd.extend hp' hq'⟩

theorem carried_forIn {parts : List DomainPart} (h : ∀ part ∈ parts, DomainMoves K shift S part)
    {body : Lower} (hb : Moves K shift S body) (type : Ty) :
    Pairs (Draft.Moved K shift) p q (forIn parts body type (S.testing test))
      (forIn parts body type (S.testing test)) (Granted K) (Carried shift) := by
  refine .bind (carried_bindings h p q) fun as bs p₁ q₁ _ _ hab => ?_
  refine .bind (hb test p₁ q₁) fun b b' p₂ q₂ hp₂ hq₂ hb' => ?_
  refine .pure fun p₃ q₃ hp₃ hq₃ _ => .extend (.nonNull (.computed ?_ _)) hp₃ hq₃
  have hab : List.Forall₂ (Binding.Moved (Code.Moved p₂ q₂ shift) shift) as bs :=
    hab.imp fun _ _ h => ⟨h.1, h.2.imp fun c d hcd => hcd.extend hp₂ hq₂⟩
  exact .forIn (Binding.moved_shape hab) (Binding.moved_sources hab) hb'.code

theorem carried_quantified (every : Bool) {parts : List DomainPart}
    (h : ∀ part ∈ parts, DomainMoves K shift S part) {condition : Lower}
    (hc : Moves K shift S condition) :
    Pairs (Draft.Moved K shift) p q (quantified every parts condition (S.testing test))
      (quantified every parts condition (S.testing test)) (Granted K) (Carried shift) := by
  refine .bind (carried_bindings h p q) fun as bs p₁ q₁ _ _ hab => ?_
  refine .bind (hc test p₁ q₁) fun c c' p₂ q₂ hp₂ hq₂ hc' => ?_
  refine .pure fun p₃ q₃ hp₃ hq₃ _ => .extend (.computed ?_ _) hp₃ hq₃
  have hab : List.Forall₂ (Binding.Moved (Code.Moved p₂ q₂ shift) shift) as bs :=
    hab.imp fun _ _ h => ⟨h.1, h.2.imp fun c d hcd => hcd.extend hp₂ hq₂⟩
  exact .quantified every (Binding.moved_shape hab) (Binding.moved_sources hab) hc'.code

theorem carried_filter {source filter : Lower} (hs : Moves K shift S source)
    (hf : Moves K shift S filter) (kind : FilterKind) (type : Ty) :
    Pairs (Draft.Moved K shift) p q (Lower.filter source filter kind type (S.testing test))
      (Lower.filter source filter kind type (S.testing test)) (Granted K) (Carried shift) := by
  refine .bind (hs test p q) fun s s' p₁ q₁ _ _ hs' => ?_
  refine .bind (hf test p₁ q₁) fun f f' p₂ q₂ hp₂ hq₂ hf' => ?_
  refine .pure fun p₃ q₃ hp₃ hq₃ _ => .extend (.computed ?_ _) hp₃ hq₃
  exact .filter kind (hs'.extend hp₂ hq₂).code hf'.code

theorem carried_path {source : Lower} (h : Moves K shift S source) (member : String) (span : Span) :
    Pairs (Draft.Moved K shift) p q (path source member span (S.testing test))
      (path source member span (S.testing test)) (Granted K) (Carried shift) := by
  refine .bind (h test p q) fun f g p₁ q₁ _ _ hfg => ?_
  rw [hfg.type]
  split
  · exact .pure fun p₂ q₂ hp₂ hq₂ _ => .extend (.computed (.member member hfg.code) _) hp₂ hq₂
  · exact .throw

end Forms

/-! ### Calls and names -/

theorem moved_convertTo {f g : Fragment} (h : f.Moved p q shift g) (param : Ty) :
    (f.convertTo param).Moved p q shift (g.convertTo param) := by
  have hconvert : (Fragment.computed (.convert f.code param) param).Moved p q shift
      (.computed (.convert g.code param) param) := .computed (.convert param h.code) param
  unfold Fragment.convertTo
  rw [h.type]
  split
  · split
    · exact h
    · exact hconvert
  · split
    · exact h
    · exact hconvert
  · exact h

theorem moved_convertAll {fs gs : List Fragment}
    (h : List.Forall₂ (Fragment.Moved p q shift) fs gs) (signature : Ty) :
    List.Forall₂ (Fragment.Moved p q shift) (Fragment.convertAll fs signature)
      (Fragment.convertAll gs signature) := by
  unfold Fragment.convertAll
  split
  · next params _ _ =>
    induction h generalizing params with
    | nil =>
      rw [List.zip_nil_left]
      exact .nil
    | cons hfg _ ih =>
      cases params with
      | nil => exact .nil
      | cons param params => exact .cons (moved_convertTo hfg param) (ih params)
  · exact h

/-- Conversion adds no arguments. -/
theorem length_convertAll_le (fs : List Fragment) (signature : Ty) :
    (Fragment.convertAll fs signature).length ≤ fs.length := by
  unfold Fragment.convertAll
  split
  · rw [List.length_map, List.length_zip]
    exact Nat.min_le_left _ _
  · exact Nat.le_refl _

/-- A call of a built-in function, if it is not sorting by a function. -/
theorem moved_builtin {fs gs : List Fragment}
    (h : List.Forall₂ (Fragment.Moved p q shift) fs gs) {name : String}
    (hsort : Builtin.ofName? name = some .sort → fs.length ≤ 1) :
    (Libraries.lower? [.builtins] name fs = none ∧ Libraries.lower? [.builtins] name gs = none) ∨
      ∃ f g, Libraries.lower? [.builtins] name fs = some (pure f) ∧
        Libraries.lower? [.builtins] name gs = some (pure g) ∧ f.Moved p q shift g := by
  have htypes : gs.map (·.type) = fs.map (·.type) := by
    clear hsort
    induction h with
    | nil => rfl
    | cons hfg _ ih => rw [List.map_cons, List.map_cons, hfg.type, ih]
  have hcodes := Fragment.Moved.codes h
  simp only [Libraries.lower?, List.findSome?_singleton, Library.lower?, htypes,
    Option.bind_eq_bind]
  cases hname : Builtin.ofName? name with
  | none => exact .inl ⟨rfl, rfl⟩
  | some f =>
    refine .inr ?_
    have hcall : ∀ t, (Fragment.computed (.call (.builtin name) (fs.map (·.code)) none) t).Moved
        p q shift (.computed (.call (.builtin name) (gs.map (·.code)) none) t) := fun t =>
      .computed (.call none (by rw [List.length_map]; exact hsort) hcodes.length_eq
        (Code.zip_of_forall₂ hcodes)) t
    simp only [Option.bind_some]
    generalize fs.map (·.code) = cs at hcodes hcall
    generalize gs.map (·.code) = ds at hcodes hcall
    split
    · next code =>
      cases hcodes with
      | cons hcd hnil =>
        cases hnil
        exact ⟨_, _, rfl, rfl, .computed (.not hcd) _⟩
    · next hnot =>
      split
      · next code =>
        -- both sides have one argument, or neither
        cases hcodes with
        | cons hcd hnil =>
          cases hnil
          exact absurd rfl (hnot _ rfl)
      · exact ⟨_, _, rfl, rfl, hcall _⟩

theorem carried_namedCall (hlibraries : S.libraries = [.builtins]) {args : List Lower}
    (h : ∀ l ∈ args, Moves K shift S l) {name : String}
    (hsort : Builtin.ofName? name = some .sort → args.length ≤ 1) (signature : Ty)
    (names : Option (List String)) (type : Ty) (span : Span) :
    Pairs (Draft.Moved K shift) p q
      (invocation (.named name signature) args names type span (S.testing test))
      (invocation (.named name signature) args names type span (S.testing test)) (Granted K)
      (Carried shift) := by
  refine .bind (carried_all h test p q) fun fs gs p₁ q₁ _ _ ⟨hlength, hfg⟩ => ?_
  have hlibs : (S.testing test).libraries = [.builtins] := hlibraries
  have hsort : Builtin.ofName? name = some .sort →
      (Fragment.convertAll fs signature).length ≤ 1 := fun hname =>
    Nat.le_trans (length_convertAll_le fs signature) (hlength ▸ hsort hname)
  dsimp only
  rw [hlibs]
  obtain ⟨hf, hg⟩ | ⟨f, g, hf, hg, hcall⟩ := moved_builtin (moved_convertAll hfg signature) hsort
  · rw [hf, hg]
    exact .throw
  · rw [hf, hg]
    refine .pure fun p₂ q₂ hp₂ hq₂ _ => Fragment.Moved.extend ?_ hp₂ hq₂
    rw [hcall.type]
    split
    · exact hcall.withType type
    · exact hcall

theorem carried_name (hK : ToldApart K) (hlibraries : S.libraries = [.builtins]) (name : String)
    (origin : Origin) (type : Ty) (span : Span) :
    Pairs (Draft.Moved K shift) p q (Lower.name name origin type span (S.testing test))
      (Lower.name name origin type span (S.testing test)) (Granted K) (Carried shift) := by
  have hfield : Pairs (Draft.Moved K shift) p q (pure (.computed (.inputField name) type))
      (pure (.computed (.inputField name) type)) (Granted K) (Carried shift) :=
    .pure fun _ _ _ _ _ => .computed (.inputField name) type
  cases origin with
  | bound => exact .pure fun _ _ _ _ _ => .computed (.local name) type
  | input => exact hfield
  | dynamic => exact hfield
  | function =>
    have hvalue : (S.testing test).libraries.value? name =
        (Builtin.ofName? name).map (·.functionValue) := by
      change Libraries.value? S.libraries name = _
      rw [hlibraries, Libraries.value?, List.findSome?_singleton]
      rfl
    unfold Lower.name
    dsimp only
    rw [hvalue]
    cases Builtin.ofName? name with
    | none => exact .throw
    | some f =>
      have hintern : Pairs (Draft.Moved K shift) p q
          (Lowering.intern (.function f.functionValue))
          (Lowering.intern (.function f.functionValue)) Free fun i j p' q' =>
            Code.Moved p' q' shift (.constRef i) (.constRef j) := by
        intro d e i d' j e' hlink _ _ hi hj
        have hi : d.intern _ = (i, d') := Except.ok.inj hi
        have hj : e.intern _ = (j, e') := Except.ok.inj hj
        have hpoolable : Poolable K (.function f.functionValue) := .inr ⟨f, rfl⟩
        obtain ⟨more, hmore⟩ := Draft.constants_intern d (.function f.functionValue)
        obtain ⟨more', hmore'⟩ := Draft.constants_intern e (.function f.functionValue)
        obtain ⟨hleft, hlocals, hplace⟩ := hlink.left.intern hK hpoolable
        obtain ⟨hright, hlocals', hplace'⟩ := hlink.right.intern hK hpoolable
        rw [hi] at hmore hleft hlocals hplace
        rw [hj] at hmore' hright hlocals' hplace'
        exact ⟨⟨more, hmore.symm⟩, ⟨more', hmore'.symm⟩, fun _ =>
          ⟨⟨by rw [hlocals', hlocals, hlink.locals], hleft, hright⟩, .constRef hplace hplace'⟩⟩
      refine .bind hintern fun i j p₁ q₁ _ _ hij => ?_
      exact .pure fun p₂ q₂ hp₂ hq₂ _ => .extend (.nonNull (.computed hij _)) hp₂ hq₂

/-! ### Unary tests -/

section Tests

variable (hK : ToldApart K)
include hK

theorem carried_comparison (op : Operator) {value : Lower} (h : Moves K shift S value)
    (span : Span) :
    Pairs (Draft.Moved K shift) p q (comparison op value span (S.testing test))
      (comparison op value span (S.testing test)) (Granted K) (Carried shift) := by
  refine .bindLinked (h test p q) fun f g d e hlink _ _ hfg => ?_
  exact Fragment.pairs_binaryMoved (.computed .testInput _) hfg op hK hlink.left.nodup
    hlink.right.nodup span

theorem carried_matching {f g : Fragment} (h : f.Moved p q shift g) (hp : p.Nodup) (hq : q.Nodup)
    (o : Options) (span : Span) (subject : Ty) :
    Pairs (Draft.Moved K shift) p q (matching o span subject f) (matching o span subject g) Free
      (Carried shift) := by
  have hwhole : ∀ {c d : Code}, Code.Moved p q shift c d →
      Pairs (Draft.Moved K shift) p q (pure (.computed c .boolean)) (pure (.computed d .boolean))
        Free (Carried shift) :=
    fun hcd => .pure fun _ _ hp hq _ => .extend (.computed hcd _) hp hq
  have hequal := Fragment.pairs_eqMoved (o := o)
    (.computed .testInput subject : Fragment.Moved p q shift _ _) h hK hp hq span
  unfold matching
  dsimp only
  rw [h.type]
  split
  · split
    · exact hequal
    · exact hwhole (.listContains h.code .testInput)
  · exact hwhole (.rangeContains h.code .testInput)
  · split
    · exact hwhole (.unaryMatch h.code)
    · split
      · exact hequal
      · exact .pure fun _ _ hp hq _ => h.extend hp hq
  · exact hwhole (.unaryMatch h.code)
  · exact hequal

theorem carried_test {part : TestPart} (h : Moves K shift S part.lower) :
    Pairs (Draft.Moved K shift) p q (Lower.test (S.testing test) part)
      (Lower.test (S.testing test) part) Free (Carried shift) := by
  unfold Lower.test
  refine .bindLinked (h test p q) fun f g d e hlink _ _ hfg => ?_
  split
  · exact .pure fun _ _ hp hq _ => hfg.extend hp hq
  · exact carried_matching hK hfg hlink.left.nodup hlink.right.nodup _ _ _

theorem carried_anyOf (span : Span) {parts : List TestPart}
    (h : ∀ part ∈ parts, Moves K shift S part.lower) {f g : Fragment}
    (hfg : f.Moved p q shift g) :
    Pairs (Draft.Moved K shift) p q (anyOf (S.testing test) span f parts)
      (anyOf (S.testing test) span g parts) Free (Carried shift) := by
  induction parts generalizing f g p q with
  | nil => exact .pure fun _ _ hp hq _ => hfg.extend hp hq
  | cons part parts ih =>
    rw [List.forall_mem_cons] at h
    refine .bind (carried_test hK h.1) fun t t' p₁ q₁ hp₁ hq₁ ht => ?_
    refine .bind (Fragment.pairs_orMoved (hfg.extend hp₁ hq₁) ht hK span)
      fun b b' p₂ q₂ _ _ hb => ?_
    exact ih h.2 hb

theorem carried_disjunction (span : Span) {parts : List TestPart}
    (h : ∀ part ∈ parts, Moves K shift S part.lower) :
    Pairs (Draft.Moved K shift) p q (disjunction (S.testing test) span parts)
      (disjunction (S.testing test) span parts) Free (Carried shift) := by
  cases parts with
  | nil =>
    refine Pairs.grant (Fragment.pairs_ofConstant hK (.boolean false) .boolean) ?_
    intro d e f d' g e' _ _ hg v hv hinline
    cases hg
    cases hv
    cases hinline
  | cons part parts =>
    rw [List.forall_mem_cons] at h
    refine .bind (carried_test hK h.1) fun t t' p₁ q₁ _ _ ht => ?_
    exact carried_anyOf hK span h.2 ht

theorem carried_tests (negated : Bool) {parts : List TestPart}
    (h : ∀ part ∈ parts, Moves K shift S part.lower) (span : Span) :
    Pairs (Draft.Moved K shift) p q (tests negated parts span (S.testing test))
      (tests negated parts span (S.testing test)) (Granted K) (Carried shift) := by
  refine .bind (carried_disjunction hK span h) fun f g p₁ q₁ _ _ hfg => ?_
  rw [hfg.value?_eq]
  split
  · exact .pure fun _ _ hp hq _ => hfg.extend hp hq
  · split
    · exact Fragment.pairs_ofConstant hK _ _
    · exact .pure fun _ _ hp hq _ => .extend (.computed (.not hfg.code) _) hp hq

end Tests

end Lower

/-! ### Terms -/

namespace Term

open Lower (Moves Knows Carried DomainMoves)
open Lowering (Pairs)
open Fragment (Granted)

/-- Whether a node makes no function and calls none but a built-in one, which calls none. -/
def ownFirstOrder (t : Term) : Bool :=
  match t.shape with
  | .function _ _ | .invocation (.value _) _ _ => false
  | .invocation (.named name _) args _ =>
    Builtin.ofName? name != some .sort || decide (args.length ≤ 1)
  | _ => true

/-- A node that is lowered in one way in all programs. A closure carries the constants and the place
of the program that it is made in, so that what makes or calls one gives another value elsewhere. -/
structure Movable (K : Value → Prop) (S : Scope) (t : Term) : Prop where
  firstOrder : t.ownFirstOrder = true
  known : Knows K S (Fragment.ofTerm t)

variable {K : Value → Prop} {shift : Nat} {S : Scope}

/-- A term is lowered to moved fragments, and so are its bounds, if it is written as a range. -/
structure Moved (K : Value → Prop) (shift : Nat) (S : Scope) (t : Term) : Prop where
  whole : Moves K shift S (Fragment.ofTerm t)
  bounds : ∀ b, Fragment.ofBounds t = some b → Moves K shift S b.start ∧ Moves K shift S b.finish

theorem Moved.domain {its : List (Iteration Term)}
    (h : ∀ t ∈ its.map (·.domain), t.Moved K shift S) :
    ∀ part ∈ Fragment.ofIterations its, DomainMoves K shift S part := by
  intro part hpart
  obtain ⟨t, ht, hwhole, hbounds⟩ := Fragment.mem_ofIterations hpart
  refine ⟨hwhole ▸ (h t ht).whole, fun b hb => ?_⟩
  rw [hbounds] at hb
  exact (h t ht).bounds b hb

theorem Moved.list {ts : List Term} (h : ∀ t ∈ ts, t.Moved K shift S) :
    ∀ l ∈ Fragment.ofList ts, Moves K shift S l := by
  intro l hl
  obtain ⟨t, ht, rfl⟩ := Fragment.mem_ofList hl
  exact (h t ht).whole

section Nodes

variable (hK : ToldApart K) (hlibraries : S.libraries = [.builtins])
include hK hlibraries

/-- Every form is moved where its parts are. -/
theorem pairs_of_movedParts (shape : Shape Term) {type : Ty} {span : Span}
    {comments warnings : List String}
    (hfirst : (node shape type span comments warnings).ownFirstOrder = true)
    (hparts : ∀ s ∈ (node shape type span comments warnings).parts, s.Moved K shift S)
    (test : Option Ty) (p q : List Value) :
    Pairs (Draft.Moved K shift) p q (Fragment.ofShape type span shape (S.testing test))
      (Fragment.ofShape type span shape (S.testing test)) (Granted K) (Carried shift) := by
  cases shape with
  | null => exact .pure fun _ _ _ _ _ => .null
  | boolean b => exact Fragment.pairs_ofConstant hK (.boolean b) .boolean
  | number n => exact Fragment.pairs_ofConstant hK (.number n) type
  | string s => exact Fragment.pairs_ofConstant hK (.string s) .string
  | temporal v => exact Fragment.pairs_ofConstant hK v type
  | dash => exact Fragment.pairs_ofConstant hK (.boolean true) .boolean
  | testInput => exact .pure fun _ _ _ _ _ => .computed .testInput type
  | name name origin => exact Lower.carried_name hK hlibraries name origin type span
  | list items => exact Lower.carried_list hK (Moved.list hparts) type
  | context entries =>
    refine Lower.carried_context hK (fun e he => ?_) type
    obtain ⟨t, ht, heq⟩ := Fragment.mem_ofEntries he
    rw [heq]
    exact (hparts t ht).whole
  | range start finish si ei =>
    have hs := hparts start (by simp [parts, Term.shape])
    have hf := hparts finish (by simp [parts, Term.shape])
    exact Lower.carried_range hK hs.whole hf.whole si ei type
  | binary op left right =>
    have hl := hparts left (by simp [parts, Term.shape])
    have hr := hparts right (by simp [parts, Term.shape])
    exact Lower.carried_binary hK op hl.whole hr.whole span
  | negation operand =>
    have ho := hparts operand (by simp [parts, Term.shape])
    exact Lower.carried_negation hK ho.whole type
  | between value low high =>
    have hv := hparts value (by simp [parts, Term.shape])
    have hl := hparts low (by simp [parts, Term.shape])
    have hh := hparts high (by simp [parts, Term.shape])
    exact Lower.carried_between hv.whole hl.whole hh.whole
  | isIn value tests =>
    have hv := hparts value (by simp [parts, Term.shape])
    have ht := hparts tests (by simp [parts, Term.shape])
    exact Lower.carried_isIn hv.whole ht.whole
  | instanceOf value target =>
    have hv := hparts value (by simp [parts, Term.shape])
    exact Lower.carried_instanceOf hK hv.whole target
  | ite condition yes no =>
    have hc := hparts condition (by simp [parts, Term.shape])
    have hy := hparts yes (by simp [parts, Term.shape])
    have hn := hparts no (by simp [parts, Term.shape])
    exact Lower.carried_ite hc.whole hy.whole hn.whole type
  | forIn its body =>
    have hb := hparts body (by simp [parts, Term.shape])
    have hits := Moved.domain fun t ht => hparts t (List.mem_append_left _ ht)
    exact Lower.carried_forIn hits hb.whole type
  | quantified every its condition =>
    have hc := hparts condition (by simp [parts, Term.shape])
    have hits := Moved.domain fun t ht => hparts t (List.mem_append_left _ ht)
    exact Lower.carried_quantified every hits hc.whole
  | filter source filter kind =>
    have hs := hparts source (by simp [parts, Term.shape])
    have hf := hparts filter (by simp [parts, Term.shape])
    exact Lower.carried_filter hs.whole hf.whole kind type
  | function params body => cases hfirst
  | invocation callee args names =>
    cases callee with
    | named name signature =>
      have hsort : Builtin.ofName? name = some .sort → (Fragment.ofList args).length ≤ 1 := by
        intro hname
        rw [ownFirstOrder, Term.shape] at hfirst
        simpa [hname, Fragment.length_ofList] using hfirst
      exact Lower.carried_namedCall hlibraries (Moved.list hparts) hsort signature names type span
    | value callee => cases hfirst
  | path source member =>
    have hs := hparts source (by simp [parts, Term.shape])
    exact Lower.carried_path hs.whole member span
  | tests negated tests =>
    refine Lower.carried_tests hK negated (fun part hpart => ?_) span
    obtain ⟨t, ht, rfl⟩ := Fragment.mem_ofTests hpart
    exact (hparts t ht).whole
  | comparison op value =>
    have hv := hparts value (by simp [parts, Term.shape])
    exact Lower.carried_comparison hK op hv.whole span

/-- **Terms are lowered in one way in all programs.** -/
theorem moves {t : Term} (h : t.Everywhere (Movable K S)) : t.Moved K shift S := by
  induction h with
  | @intro t hmovable _ ih =>
    obtain ⟨shape, type, span, comments, warnings⟩ := t
    refine ⟨.of_granted (pairs_of_movedParts hK hlibraries shape hmovable.firstOrder ih)
      hmovable.known, fun b hb => ?_⟩
    cases shape with
    | range start finish si ei =>
      cases hb
      exact ⟨(ih start (by simp [parts, Term.shape])).whole,
        (ih finish (by simp [parts, Term.shape])).whole⟩
    | _ => cases hb

end Nodes

end Term

/-! ### Texts -/

/-- Terms of which nothing known is pooled can be moved. -/
theorem Term.movable_of_unpooled {K : Value → Prop} {S : Scope} {t : Term}
    (h : t.Everywhere fun s => s.ownUnpooled = true) : t.Everywhere (Term.Movable K S) := by
  induction h with
  | @intro t hown hparts ih =>
    refine .intro ⟨?_, fun test d f d' hf v hv hinline => ?_⟩ ih
    · obtain ⟨shape, type, span, comments, warnings⟩ := t
      cases shape with
      | invocation callee args names => cases hown
      | function params body => cases hown
      | _ => rfl
    · rw [Term.unpooled (.intro hown hparts) _ _ _ _ hf v hv] at hinline
      cases hinline

namespace Scope

/-- The term of a text is made of nodes that can be moved. -/
def MovesExpression (K : Value → Prop) (S : Scope) (source : String) : Prop :=
  ∀ tree term, Surface.parseExpression source S.knownNames = .ok tree →
    Term.ofSurface source tree S = .ok term → term.Everywhere (Term.Movable K S)

/-- The term of unary tests of a value of a type is made of nodes that can be moved. -/
def MovesTests (K : Value → Prop) (S : Scope) (subject : Ty) (source : String) : Prop :=
  ∀ tree term, Surface.parseTests source S.knownNames = .ok tree →
    Term.ofTests source tree (S.withTest subject) = .ok term →
      term.Everywhere (Term.Movable K S)

variable {K : Value → Prop} {S : Scope} {source : String}

theorem movesExpression_of_unpooled
    (h : ((Surface.parseExpression source S.knownNames).toOption.bind fun tree =>
      (Term.ofSurface source tree S).toOption).all (·.all Term.ownUnpooled) = true) :
    S.MovesExpression K source := by
  intro tree term htree hterm
  rw [htree] at h
  change (Term.ofSurface source tree S).toOption.all _ = true at h
  rw [hterm] at h
  exact Term.movable_of_unpooled (Term.everywhere_of_all h)

theorem movesTests_of_unpooled {subject : Ty}
    (h : ((Surface.parseTests source S.knownNames).toOption.bind fun tree =>
      (Term.ofTests source tree (S.withTest subject)).toOption).all (·.all Term.ownUnpooled) =
        true) :
    S.MovesTests K subject source := by
  intro tree term htree hterm
  rw [htree] at h
  change (Term.ofTests source tree (S.withTest subject)).toOption.all _ = true at h
  rw [hterm] at h
  exact Term.movable_of_unpooled (Term.everywhere_of_all h)

end Scope

namespace Lowering.Pairs

variable {α : Type} {L : Draft → Draft → Prop} {p q : List Value}

/-- Steps that fail or pass on a value pass on the same value. -/
theorem lift (y : Except CompileError α) :
    Pairs L p q (liftM y) (liftM y) Free fun a b _ _ => a = b ∧ y = .ok a := by
  intro d e a d' b e' hlink _ _ hx hy
  obtain ⟨a', ha, heq⟩ := bind_eq_ok.mp hx
  cases heq
  obtain ⟨b', hb, heq⟩ := bind_eq_ok.mp hy
  cases heq
  cases y with
  | error => cases ha
  | ok c =>
    cases ha
    cases hb
    exact ⟨List.prefix_refl _, List.prefix_refl _, fun _ => ⟨hlink, rfl, rfl⟩⟩

end Lowering.Pairs

namespace Fragment

open Lowering (Pairs Free)
open Lower (Carried)

variable {K : Value → Prop} (hK : ToldApart K) {S : Scope} (hlibraries : S.libraries = [.builtins])
  {shift : Nat} {p q : List Value}
include hK hlibraries

theorem pairs_ofWarnedTerm {term : Term} (h : term.Everywhere (Term.Movable K S))
    (test : Option Ty) :
    Pairs (Draft.Moved K shift) p q (ofWarnedTerm term (S.testing test))
      (ofWarnedTerm term (S.testing test)) Free (Carried shift) := by
  have hwarn : Pairs (Draft.Moved K shift) p q (Lowering.warn term.warnings)
      (Lowering.warn term.warnings) Free fun _ _ _ _ => True := by
    intro d e a d' b e' hlink _ _ hx hy
    cases hx
    cases hy
    exact ⟨List.prefix_refl _, List.prefix_refl _, fun _ => ⟨⟨hlink.locals,
      ⟨hlink.left.poolable, hlink.left.nodup⟩, ⟨hlink.right.poolable, hlink.right.nodup⟩⟩, .intro⟩⟩
  exact .bind hwarn fun _ _ p' q' _ _ _ => (Term.moves hK hlibraries h).whole test p' q'

/-- A step that parses and elaborates, and then lowers a term that can be moved. -/
theorem pairs_ofTree {tree : Except ParseError Surface}
    {elaborate : Surface → Except CompileError Term} (test : Option Ty)
    (h : ∀ s term, tree = .ok s → elaborate s = .ok term → term.Everywhere (Term.Movable K S)) :
    Pairs (Draft.Moved K shift) p q
      (do ofWarnedTerm (← liftM (elaborate (← parsed tree))) (S.testing test))
      (do ofWarnedTerm (← liftM (elaborate (← parsed tree))) (S.testing test)) Free
      (Carried shift) := by
  refine .bind (.lift _) fun s s' p₁ q₁ _ _ ⟨heq, hs⟩ => ?_
  subst heq
  refine .bind (.lift _) fun term term' p₂ q₂ _ _ ⟨heq, hterm⟩ => ?_
  subst heq
  refine pairs_ofWarnedTerm hK hlibraries (h s term ?_ hterm) test
  cases tree with
  | error => cases hs
  | ok t =>
    cases hs
    rfl

theorem pairs_ofExpression {source : String} (h : S.MovesExpression K source) :
    Pairs (Draft.Moved K shift) p q (ofExpression source S) (ofExpression source S) Free
      (Carried shift) :=
  pairs_ofTree hK hlibraries S.testType h

theorem pairs_ofTestsText {source : String} {subject : Ty} (h : S.MovesTests K subject source) :
    Pairs (Draft.Moved K shift) p q (ofTestsText source (S.withTest subject))
      (ofTestsText source (S.withTest subject)) Free (Carried shift) :=
  pairs_ofTree hK hlibraries (some subject) h

end Fragment

/-! ### Steps within a program -/

/-- What there may be on both sides, under a weaker relation. -/
theorem Option.Rel.imp {α β : Type} {R R' : α → β → Prop} (h : ∀ a b, R a b → R' a b)
    {a : Option α} {b : Option β} (hab : Option.Rel R a b) : Option.Rel R' a b := by
  cases hab with
  | none => exact .none
  | some hab => exact .some (h _ _ hab)

namespace Lowering

variable {α β : Type}

/-- A fragment is the one that a step gives when it is taken alone, moved. -/
def Alone (x : Lowering Fragment) (g : Fragment) (pool : List Value) : Prop :=
  ∀ f d, x {} = .ok (f, d) → ∃ shift, f.Moved d.constants pool shift g

theorem Alone.extend {x : Lowering Fragment} {g : Fragment} {pool pool' : List Value}
    (h : x.Alone g pool) (hpool : pool <+: pool') : x.Alone g pool' := by
  intro f d hx
  obtain ⟨shift, hmoved⟩ := h f d hx
  exact ⟨shift, hmoved.extend (List.prefix_refl _) hpool⟩

/-- From a draft that holds each of its values once a step only adds to the pool and leaves such a
draft, and what it gives has a property over the pool that it leaves. -/
def Keeps (K : Value → Prop) (pool : List Value) (x : Lowering α)
    (P : α → List Value → Prop) : Prop :=
  ∀ d a d', d.Faithful K → pool <+: d.constants → x d = .ok (a, d') →
    d.constants <+: d'.constants ∧ d'.Faithful K ∧ P a d'.constants

namespace Keeps

variable {K : Value → Prop} {pool : List Value} {x : Lowering α} {P : α → List Value → Prop}

theorem pure {a : α} (h : ∀ pool', pool <+: pool' → P a pool') :
    Keeps K pool (Pure.pure a) P := by
  intro d b d' hd hpool hx
  cases hx
  exact ⟨List.prefix_refl _, hd, h _ hpool⟩

theorem bind {f : α → Lowering β} {R : β → List Value → Prop} (hx : Keeps K pool x P)
    (hf : ∀ a pool', pool <+: pool' → P a pool' → Keeps K pool' (f a) R) :
    Keeps K pool (x >>= f) R := by
  intro d b d' hd hpool hb
  obtain ⟨⟨a, mid⟩, ha, hb⟩ := bind_eq_ok.mp hb
  obtain ⟨hgrow, hmid, hPa⟩ := hx d a mid hd hpool ha
  obtain ⟨hmore, hd', hRb⟩ := hf a mid.constants (hpool.trans hgrow) hPa mid b d' hmid
    (List.prefix_refl _) hb
  exact ⟨hgrow.trans hmore, hd', hRb⟩

theorem imp {R : α → List Value → Prop} (h : Keeps K pool x P)
    (hP : ∀ a pool', pool <+: pool' → P a pool' → R a pool') : Keeps K pool x R := by
  intro d a d' hd hpool hx
  obtain ⟨hgrow, hd', ha⟩ := h d a d' hd hpool hx
  exact ⟨hgrow, hd', hP a _ (hpool.trans hgrow) ha⟩

/-- One step for each of a list. -/
theorem mapM {as : List α} {f : α → Lowering β} {R : α → β → List Value → Prop}
    (hR : ∀ a b {p q}, R a b p → p <+: q → R a b q)
    (hf : ∀ a ∈ as, ∀ pool', pool <+: pool' → Keeps K pool' (f a) (R a)) :
    Keeps K pool (as.mapM f) fun bs pool' => List.Forall₂ (fun a b => R a b pool') as bs := by
  induction as generalizing pool with
  | nil => exact .pure fun _ _ => .nil
  | cons a as ih =>
    rw [List.forall_mem_cons] at hf
    rw [List.mapM_cons]
    refine .bind (hf.1 pool (List.prefix_refl _)) fun b pool₁ h₁ hb => ?_
    refine .bind (ih fun c hc pool' hpool => hf.2 c hc pool' (h₁.trans hpool))
      fun bs pool₂ h₂ hbs => ?_
    refine .pure fun pool₃ h₃ => .cons (hR _ _ hb (h₂.trans h₃)) ?_
    exact hbs.imp fun c d hcd => hR c d hcd h₃

/-- A step for what there may be. -/
theorem optional {a : Option α} {f : α → Lowering β} {R : α → β → List Value → Prop}
    (hf : ∀ b, a = some b → Keeps K pool (f b) (R b)) :
    Keeps K pool (a.mapM f) fun b pool' => Option.Rel (fun a b => R a b pool') a b := by
  cases a with
  | none => exact .pure fun _ _ => .none
  | some a =>
    intro d b d' hd hpool hx
    obtain ⟨⟨c, e⟩, hc, heq⟩ := bind_eq_ok.mp hx
    cases heq
    obtain ⟨hgrow, hd', hR⟩ := hf a rfl d c d' hd hpool hc
    exact ⟨hgrow, hd', .some hR⟩

/-- What is moved from draft to draft is the same within a program and alone. -/
theorem of_pairs {x : Lowering Fragment}
    (h : ∀ shift p q, Pairs (Draft.Moved K shift) p q x x Free (Lower.Carried shift)) :
    Keeps K pool x fun g pool' => x.Alone g pool' := by
  intro e g e' he _ hg
  have hself : Draft.Moved K 0 e e := ⟨rfl, he, he⟩
  obtain ⟨hgrow, -, hlinked⟩ := h 0 [] [] e e g e' g e' hself List.nil_prefix List.nil_prefix
    hg hg
  obtain ⟨hlinked, -⟩ := hlinked .intro
  refine ⟨hgrow, hlinked.right, fun f d hf => ?_⟩
  have hempty : Draft.Moved K e.locals {} e :=
    ⟨(Nat.zero_add _).symm, ⟨nofun, List.nodup_nil⟩, he⟩
  obtain ⟨-, -, hmoved⟩ := h e.locals [] [] {} e f d g e' hempty List.nil_prefix List.nil_prefix
    hf hg
  exact ⟨e.locals, (hmoved .intro).2⟩

end Keeps

end Lowering

/-! ### Programs -/

namespace Program

/-- The code of a fragment as its program has it. -/
def finished (o : Options) (pool : List Value) (c : Code) : Code :=
  if o.folding then c.simplify pool o.precision else c

theorem finished_moved {p q : List Value} {shift : Nat} {c d : Code} (o : Options)
    (h : Code.Moved p q shift c d) :
    Code.Moved p q shift (finished o p c) (finished o q d) := by
  unfold finished
  split
  · exact h.simplify o.precision
  · exact h

/-- A fragment that stands for a text gives what the program of the text gives. -/
theorem run_of_moved {entry : EntryPoint} {kind : SourceKind} {source : String}
    {decision : Option String} {o : Options} {f g : Fragment} {d : Draft} {pool : List Value}
    {shift : Nat} (h : f.Moved d.constants pool shift g) (natives : Natives) (input : Value)
    (test : Option Value) (site : Site) :
    (finished o pool g.code).denote (.ofPool natives pool o.precision) site ⟨input, test, []⟩ =
      (ofFragment entry kind source decision o f d).run natives input test := by
  have hcode : Code.Moved d.constants pool shift
      (ofFragment entry kind source decision o f d).root (finished o pool g.code) :=
    finished_moved o h.code
  have halike := hcode.denote (m := .ofPool natives d.constants o.precision)
    (n := .ofPool natives pool o.precision) rfl rfl rfl
  exact (halike [] site _).symm

end Program

end Feel
