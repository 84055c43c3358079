import Feel.Proofs.Connectives
import Feel.Proofs.NamedArguments

/-!
# Programs of calls with named arguments

A call is lowered with its arguments in the order in which they are written, so that constants
have other places in the program of a call by name than in that of the same call by position.
Where the parts can be moved, and values of the pool are told apart, the places make no
difference: both programs give what the function gives for the values that the programs of the
arguments give.

* `Fragment.StandsFor`: a fragment within a program is that of a term on its own.
* `Machine.SameCalls`: two functions that do the same when they are called.
* `Program.CallParts`: what the programs of the parts of a call give.
* `Program.run_valueCall`: the program of a call of a value.
* `Surface.named_arguments_unordered`: named arguments may come in any order.
-/

namespace Feel

/-! ### Trees that can be moved -/

namespace Scope

/-- The terms of a tree can be moved. -/
def MovesTree (K : Value → Prop) (S : Scope) (source : String) (tree : Surface) : Prop :=
  ∀ t, Term.ofSurface source tree S = .ok t → t.Everywhere (Term.Movable K S)

/-- The terms of a tree can be moved, or define a function whose body can be. -/
def MovesCallee (K : Value → Prop) (S : Scope) (source : String) (tree : Surface) : Prop :=
  ∀ t, Term.ofSurface source tree S = .ok t → t.Everywhere (Term.Movable K S) ∨
    ∃ params body, t.shape = .function params body ∧ body.Everywhere (Term.Movable K S)

end Scope

/-! ### Fragments within a program -/

namespace Fragment

/-- A fragment within a program is that of a term on its own, moved. -/
def StandsFor (S : Scope) (t : Term) (g : Fragment) (pool : List Value) : Prop :=
  ∀ warnings f d, ofTerm t S (Draft.warn {} warnings) = .ok (f, d) →
    ∃ shift, f.Moved d.constants pool shift g

theorem StandsFor.extend {S : Scope} {t : Term} {g : Fragment} {pool pool' : List Value}
    (h : StandsFor S t g pool) (hpool : pool <+: pool') : StandsFor S t g pool' := by
  intro warnings f d hf
  obtain ⟨shift, hmoved⟩ := h warnings f d hf
  exact ⟨shift, hmoved.extend (List.prefix_refl _) hpool⟩

/-- A callee within a program is that of a term on its own, or defines the same function. -/
inductive StandsForCallee (S : Scope) (t : Term) (g : Fragment) (pool : List Value) : Prop
  | moved (h : StandsFor S t g pool)
  | function {params : List (String × Ty)} {body : Term} {b : Fragment}
      (hshape : t.shape = .function params body) (hbody : StandsFor S body b pool)
      (hcode : g.code = .function (params.map (·.1)) b.code t.type)

theorem StandsForCallee.extend {S : Scope} {t : Term} {g : Fragment} {pool pool' : List Value}
    (h : StandsForCallee S t g pool) (hpool : pool <+: pool') : StandsForCallee S t g pool' := by
  cases h with
  | moved h => exact .moved (h.extend hpool)
  | function hshape hbody hcode => exact .function hshape (hbody.extend hpool) hcode

section Lowering

open Lowering (Keeps)

variable {K : Value → Prop} (hK : ToldApart K) {S : Scope} (hlibraries : S.libraries = [.builtins])
  {pool : List Value}
include hK hlibraries

theorem keeps_ofTerm {t : Term} (h : t.Everywhere (Term.Movable K S)) :
    Keeps K pool (ofTerm t S) (StandsFor S t) := by
  intro e g e' he _ hg
  have hmoves : ∀ shift, Lower.Moves K shift S (ofTerm t) :=
    fun shift => (Term.moves hK hlibraries h).whole
  have hself : Draft.Moved K 0 e e := ⟨rfl, he, he⟩
  obtain ⟨hgrow, -, hlinked⟩ := hmoves 0 S.testType [] [] e e g e' g e' hself List.nil_prefix
    List.nil_prefix hg hg
  obtain ⟨hlinked, -⟩ := hlinked .intro
  refine ⟨hgrow, hlinked.right, fun warnings f d hf => ?_⟩
  have hempty : Draft.Moved K e.locals (Draft.warn {} warnings) e :=
    ⟨(Nat.zero_add _).symm, ⟨nofun, List.nodup_nil⟩, he⟩
  obtain ⟨-, -, hmoved⟩ := hmoves e.locals S.testType [] [] _ e f d g e' hempty List.nil_prefix
    List.nil_prefix hf hg
  exact ⟨e.locals, (hmoved .intro).2⟩

theorem keeps_all {ts : List Term} (h : ∀ t ∈ ts, t.Everywhere (Term.Movable K S)) :
    Keeps K pool (Lower.all S (ofList ts))
      fun fs pool' => List.Forall₂ (fun t f => StandsFor S t f pool') ts fs := by
  induction ts generalizing pool with
  | nil => exact .pure fun _ _ => .nil
  | cons t ts ih =>
    rw [List.forall_mem_cons] at h
    refine .bind (keeps_ofTerm hK hlibraries h.1) fun f pool₁ _ hf => ?_
    refine .bind (ih h.2) fun fs pool₂ hgrow hfs => ?_
    refine .pure fun pool₃ hmore => .cons (hf.extend (hgrow.trans hmore)) ?_
    exact hfs.imp fun _ _ hf => hf.extend hmore

theorem keeps_callee {t : Term} (h : t.Everywhere (Term.Movable K S) ∨
    ∃ params body, t.shape = .function params body ∧ body.Everywhere (Term.Movable K S)) :
    Keeps K pool (ofTerm t S) (StandsForCallee S t) := by
  rcases h with h | ⟨params, body, hshape, hbody⟩
  · exact (keeps_ofTerm hK hlibraries h).imp fun _ _ _ hg => .moved hg
  · obtain ⟨shape, type, span, comments, warnings⟩ := t
    cases hshape
    refine .bind (keeps_ofTerm hK hlibraries hbody) fun b pool₁ _ hb => ?_
    exact .pure fun pool₂ hmore => .function rfl (hb.extend hmore) rfl

/-- What a call of a value is lowered to. -/
theorem keeps_valueCall {c : Term} {ts : List Term}
    (hc : c.Everywhere (Term.Movable K S) ∨
      ∃ params body, c.shape = .function params body ∧ body.Everywhere (Term.Movable K S))
    (hts : ∀ t ∈ ts, t.Everywhere (Term.Movable K S)) (names : Option (List String)) (type : Ty)
    (span : Span) :
    Keeps K pool (Lower.invocation (.value (ofTerm c)) (ofList ts) names type span S)
      fun g pool' => ∃ cg fs, StandsForCallee S c cg pool' ∧
        List.Forall₂ (fun t f => StandsFor S t f pool') ts fs ∧
        g.code = .call (.value cg.code) (fs.map (·.code)) names := by
  refine .bind (keeps_all hK hlibraries hts) fun fs pool₁ _ hfs => ?_
  refine .bind (keeps_callee hK hlibraries hc) fun cg pool₂ hgrow hcg => ?_
  refine .pure fun pool₃ hmore => ⟨cg, fs, hcg.extend hmore, ?_, rfl⟩
  exact hfs.imp fun _ _ hf => hf.extend (hgrow.trans hmore)

end Lowering

end Fragment

/-! ### Functions that do the same -/

namespace Machine

/-- Functions with the same parameters, which give the same wherever they are called. -/
structure SameCalls (natives : Natives) (precision : Nat) (f g : FunctionValue) : Prop where
  params : g.paramNames = f.paramNames
  call : ∀ site vs input, invoke natives precision callLimit site g vs input =
    invoke natives precision callLimit site f vs input

/-- Closures over the same locals whose bodies are moved. -/
theorem sameCalls_closure {p q : List Value} {shift : Nat} {c d : Code}
    (h : Code.Moved p q shift c d) (natives : Natives) (precision : Nat) (site site' : Site)
    (params : List String) (captured : List (String × Value)) (type : Ty) :
    SameCalls natives precision (.closure site params c captured p type)
      (.closure site' params d captured q type) := by
  refine ⟨rfl, fun place vs input => ?_⟩
  have hlimit : callLimit = 9999 + 1 := rfl
  rw [hlimit, invoke, invoke]
  have halike := h.denote (m := ⟨p, precision, invoke natives precision 9999⟩)
    (n := ⟨q, precision, invoke natives precision 9999⟩) rfl rfl rfl
  exact (halike place place _).symm

end Machine

/-! ### Runs -/

namespace Action

/-- Arguments that give values wherever they are. -/
theorem all_of_forall₂ {as : List Action} {vs : List Value} {frame : Frame}
    (h : List.Forall₂ (fun a v => ∀ site, a site frame = .ok v) as vs) (site : Site) (i : Nat) :
    all site frame i as = .ok vs := by
  induction h generalizing i with
  | nil => rfl
  | cons ha _ ih => exact bind_eq_ok.mpr ⟨_, ha _, bind_eq_ok.mpr ⟨_, ih (i + 1), rfl⟩⟩

end Action

namespace Program

open Fragment (StandsFor StandsForCallee)

variable {entry : EntryPoint} {S : Scope} {source : String} {natives : Natives} {input : Value}
  {test : Option Value} {tree : Surface} {t : Term} {g : Fragment} {pool : List Value} {r : Program}

theorem finished_function (o : Options) (pool : List Value) (params : List String) (body : Code)
    (type : Ty) : finished o pool (.function params body type) =
      .function params (finished o pool body) type := by
  unfold finished
  split <;> rfl

theorem finished_call (o : Options) (pool : List Value) (callee : Code) (args : List Code)
    (names : Option (List String)) : finished o pool (.call (.value callee) args names) =
      .call (.value (finished o pool callee)) (args.map (finished o pool)) names := by
  unfold finished
  split
  · exact Code.simplify_call ..
  · rw [List.map_id']

/-- A part of a program gives what its own program gives. -/
theorem run_of_standsFor (h : StandsFor S t g pool) (ht : Term.ofSurface source tree S = .ok t)
    (hr : ofTree entry S source tree = .ok r) (site : Site) :
    (finished S.options pool g.code).denote (.ofPool natives pool S.options.precision) site
      ⟨input, test, []⟩ = r.run natives input test := by
  obtain ⟨t', f, d, ht', hf, rfl⟩ := of_ofTree hr
  cases ht.symm.trans ht'
  obtain ⟨shift, hmoved⟩ := h t.warnings f d hf
  exact run_of_moved hmoved natives input test site

/-- A callee of a program gives a function that does what that of its own program does. -/
theorem run_of_standsForCallee (h : StandsForCallee S t g pool)
    (ht : Term.ofSurface source tree S = .ok t) (hr : ofTree entry S source tree = .ok r)
    {F : FunctionValue} (hF : r.run natives input test = .ok (.function F)) (site : Site) :
    ∃ G, (finished S.options pool g.code).denote (.ofPool natives pool S.options.precision) site
        ⟨input, test, []⟩ = .ok (.function G) ∧
      Machine.SameCalls natives S.options.precision F G := by
  cases h with
  | moved h => exact ⟨F, (run_of_standsFor h ht hr site).trans hF, rfl, fun _ _ _ => rfl⟩
  | @function params body b hshape hbody hcode =>
    obtain ⟨t', f, d, ht', hf, rfl⟩ := of_ofTree hr
    cases ht.symm.trans ht'
    obtain ⟨shape, type, span, comments, warnings⟩ := t
    cases hshape
    obtain ⟨⟨own, d⟩, hown, hf⟩ := bind_eq_ok.mp hf
    cases hf
    obtain ⟨shift, hmoved⟩ := hbody _ own _ hown
    have hrun : (ofFragment entry .expression source none S.options
        (Fragment.computed (.function (params.map (·.1)) own.code type) type).nonNull d).run natives
          input test = .ok (.function (.closure [] (params.map (·.1))
            (finished S.options d.constants own.code) [] d.constants type)) := by
      change (finished S.options d.constants (.function _ own.code type)).denote _ [] _ = _
      rw [finished_function]
      rfl
    cases hrun.symm.trans hF
    refine ⟨.closure site (params.map (·.1)) (finished S.options pool b.code) [] pool type, ?_,
      Machine.sameCalls_closure (finished_moved S.options hmoved.code) _ _ _ _ _ _ _⟩
    rw [hcode, finished_function]
    rfl

/-- What the programs of the parts of a call give: the one of the callee a function whose
parameters are named as the arguments, and those of the arguments the values of their names. The
parts can be moved to the program of the call. -/
structure CallParts (K : Value → Prop) (S : Scope) (source : String) (natives : Natives)
    (input : Value) (test : Option Value) (callee : Surface) (args : List (String × Surface))
    (F : FunctionValue) (value : String → Value) : Prop where
  movesCallee : S.MovesCallee K source callee
  function : ∃ r, ofTree {} S source callee = .ok r ∧ r.run natives input test = .ok (.function F)
  params : F.paramNames = args.map (·.1)
  movesArgs : ∀ a ∈ args, S.MovesTree K source a.2
  values : ∀ a ∈ args, ∃ r, ofTree {} S source a.2 = .ok r ∧
    r.run natives input test = .ok (value a.1)

/-- Arguments of a call give what their own programs give. -/
theorem values_of_forall₂ {written : List (String × Surface)} {bs : List (String × Term)}
    {fs : List Fragment} {value : String → Value}
    (hbs : List.Forall₂ (Surface.HasTerm source S) written bs)
    (hfs : List.Forall₂ (fun b f => StandsFor S b.2 f pool) bs fs)
    (hvalues : ∀ a ∈ written, ∃ r, ofTree {} S source a.2 = .ok r ∧
      r.run natives input test = .ok (value a.1)) :
    List.Forall₂ (fun f a => ∀ site, (finished S.options pool f.code).denote
      (.ofPool natives pool S.options.precision) site ⟨input, test, []⟩ = .ok (value a.1))
      fs written := by
  induction hbs generalizing fs with
  | nil =>
    cases hfs
    exact .nil
  | cons hb _ ih =>
    rw [List.forall_mem_cons] at hvalues
    obtain ⟨⟨r, hr, hv⟩, hvalues⟩ := hvalues
    cases hfs with
    | cons hf hfs =>
      exact .cons (fun site => (run_of_standsFor hf hb.2 hr site).trans hv) (ih hfs hvalues)

/-- **The program of a call gives what the function gives for the values of the arguments.** -/
theorem run_valueCall {K : Value → Prop} (hK : ToldApart K) (hlibraries : S.libraries = [.builtins])
    {callee : Surface} {ordered written : List (String × Surface)} {F : FunctionValue}
    {value : String → Value}
    (hparts : CallParts K S source natives input test callee ordered F value)
    (hwritten : ∀ a ∈ written, a ∈ ordered) {span : Span} {comments : List String}
    (ht : Surface.ValueCalled source S callee span comments written (ordered.map (·.1)) t)
    (htree : Term.ofSurface source tree S = .ok t) (hr : ofTree entry S source tree = .ok r) :
    r.run natives input test =
      Machine.invoke natives S.options.precision Machine.callLimit [3] F
        (ordered.map fun a => value a.1) input := by
  obtain ⟨t', f, d, ht', hf, rfl⟩ := of_ofTree hr
  cases htree.symm.trans ht'
  obtain ⟨c, bs, names, type, hc, hbs, rfl, horder⟩ := ht
  have hmoves := Surface.forall_of_forall₂ hbs fun a ha => hparts.movesArgs a (hwritten a ha)
  have hkeeps : Lowering.Keeps K [] _ _ := Fragment.keeps_valueCall hK hlibraries
    (hparts.movesCallee c hc) hmoves names type span
  obtain ⟨-, -, cg, fs, hcg, hfs, hcode⟩ := hkeeps (Draft.warn {} _) f d
    ⟨nofun, List.nodup_nil⟩ List.nil_prefix hf
  obtain ⟨own, hown, hF⟩ := hparts.function
  obtain ⟨G, hG, hsame⟩ := run_of_standsForCallee hcg hc hown hF [2]
  have hvalues := values_of_forall₂ hbs (List.forall₂_map_left_iff.mp hfs)
    fun a ha => hparts.values a (hwritten a ha)
  have hall := Action.all_of_forall₂ (List.forall₂_map_left_iff.mpr
    (List.forall₂_map_right_iff.mpr hvalues)) [0] 0
  change (finished S.options d.constants f.code).denote
    (.ofPool natives d.constants S.options.precision) [] ⟨input, test, []⟩ = _
  rw [hcode, finished_call]
  change Action.call _ (.value _) (Code.denoteList _ _) names [] _ = _
  rw [Code.denoteList_eq, List.map_map, List.map_map]
  refine (Action.call_value hG hall names).trans ?_
  rw [horder G (hsame.params.trans hparts.params), List.map_map]
  exact hsame.call [3] _ input

/-- The program of a call gives what the function gives for the values of the arguments, in the
order of its parameters. -/
def RunsInOrder (S : Scope) (source : String) (tree callee : Surface)
    (ordered : List (String × Surface)) : Prop :=
  ∀ (K : Value → Prop) (natives : Natives) (input : Value) (test : Option Value)
    (F : FunctionValue) (value : String → Value) (entry : EntryPoint) (p : Program),
    ToldApart K → S.libraries = [.builtins] →
    CallParts K S source natives input test callee ordered F value →
    ofTree entry S source tree = .ok p →
    p.run natives input test = Machine.invoke natives S.options.precision Machine.callLimit [3] F
      (ordered.map fun a => value a.1) input

end Program

namespace Surface

open Elaboration (Declares declares_of_builtin)
open Program (RunsInOrder)

/-- **Named arguments may come in any order.** Let the arguments of a call be named in any order,
and be put in the order of some parameters with distinct names. Where a library declares a function
of these parameters, the call with the named arguments is typed if and only if the call by position
is, and as the same term. Where the callee is a value, one call is typed if and only if the other
is, and when it runs, either gives what the function gives for the values in the order of its
parameters; where the parts can be moved, these are the values that their own programs give. -/
theorem named_arguments_unordered (source : String) (scope : Scope) (callee : Surface)
    {named ordered : List (String × Surface)} (hperm : named.Perm ordered)
    (hnodup : (ordered.map (·.1)).Nodup) (span : Span) (comments : List String) :
    (∀ overloads, callee.overloads? scope = some overloads →
      Declares overloads (ordered.map (·.1)) → ∀ t,
        ofCall source callee span comments (.named named) scope = .ok t ↔
          ofCall source callee span comments (.positional (ordered.map (·.2))) scope = .ok t) ∧
    (callee.overloads? scope = none →
      ((∃ t, ofCall source callee span comments (.named named) scope = .ok t) ↔
        ∃ t, ofCall source callee span comments (.positional (ordered.map (·.2))) scope = .ok t) ∧
      (∀ S t,
        (ofCall source callee span comments (.named named) scope = .ok t →
          LoweredInOrder source scope S callee named (ordered.map (·.1)) t) ∧
        (ofCall source callee span comments (.positional (ordered.map (·.2))) scope = .ok t →
          LoweredInOrder source scope S callee ordered (ordered.map (·.1)) t)) ∧
      RunsInOrder scope source (.node (.invocation callee (.named named)) span comments) callee
        ordered ∧
      RunsInOrder scope source
        (.node (.invocation callee (.positional (ordered.map (·.2)))) span comments) callee
        ordered) := by
  refine ⟨fun overloads h hdeclares t => ofNamedCall_iff_declared hperm h hdeclares hnodup,
    fun h => ⟨ofNamedCall_iff_value hperm h, fun S t => ⟨fun ht => ?_, fun ht => ?_⟩, ?_, ?_⟩⟩
  · exact (valueCalled_of_named h hperm ht).loweredInOrder
  · exact (valueCalled_of_positional h ht).loweredInOrder
  · intro K natives input test F value entry p hK hlibraries hparts hp
    obtain ⟨t, _, _, ht, -, -⟩ := Program.of_ofTree hp
    exact Program.run_valueCall hK hlibraries hparts (fun _ => hperm.mem_iff.mp)
      (valueCalled_of_named h hperm ht) ht hp
  · intro K natives input test F value entry p hK hlibraries hparts hp
    obtain ⟨t, _, _, ht, -, -⟩ := Program.of_ofTree hp
    exact Program.run_valueCall hK hlibraries hparts (fun _ => id)
      (valueCalled_of_positional h ht) ht hp

/-- The parts of a call of a function that gives its first argument. -/
theorem callParts_first : ∃ F,
    Program.CallParts (fun _ => False) {} "" (fun _ _ => .null) .null none
      (.node (.function [("x", none), ("y", none)] (.node (.name "x") default [])) default [])
      [("x", .node (.number "3") default []), ("y", .node (.number "1") default [])] F
      (fun name => if name = "x" then .int 3 else .int 1) ∧
    Machine.invoke (fun _ _ => .null) Number.defaultPrecision Machine.callLimit [3] F
      [.int 3, .int 1] .null = .ok (.int 3) := by
  let callee : Surface :=
    .node (.function [("x", none), ("y", none)] (.node (.name "x") default [])) default []
  obtain ⟨r, F, hr, hF, hparams, hcall⟩ : ∃ r F, Program.ofTree {} {} "" callee = .ok r ∧
      r.run (fun _ _ => .null) .null none = .ok (.function F) ∧ F.paramNames = ["x", "y"] ∧
      Machine.invoke (fun _ _ => .null) Number.defaultPrecision Machine.callLimit [3] F
        [.int 3, .int 1] .null = .ok (.int 3) :=
    ⟨_, _, rfl, rfl, rfl, rfl⟩
  obtain ⟨body, type, span, hterm, hbody⟩ : ∃ body type span, Term.ofSurface "" callee {} =
      .ok (.plain (.function [("x", .any), ("y", .any)] body) type span) ∧
      body.all Term.ownUnpooled = true := ⟨_, _, _, rfl, rfl⟩
  refine ⟨F, ⟨fun t ht => ?_, ⟨r, hr, hF⟩, hparams, ?_, ?_⟩, hcall⟩
  · cases hterm.symm.trans ht
    exact .inr ⟨_, body, rfl, Term.movable_of_unpooled (Term.everywhere_of_all hbody)⟩
  · have hmoves : ∀ n ∈ ["3", "1"],
        Scope.MovesTree (fun _ => False) {} "" (.node (.number n) default []) := by
      simp only [List.forall_mem_cons]
      refine ⟨?_, ?_, fun _ h => absurd h List.not_mem_nil⟩ <;> rintro t ⟨⟩ <;>
        exact Term.movable_of_unpooled (Term.everywhere_of_all rfl)
    simpa using hmoves
  · simp only [List.forall_mem_cons]
    exact ⟨⟨_, rfl, rfl⟩, ⟨_, rfl, rfl⟩, fun _ h => absurd h List.not_mem_nil⟩

/-- A date from its parts, and functions of an input and of a program, which give their first
argument. -/
theorem named_arguments_unordered_date_first :
    (∃ t, ofCall "" (.node (.name "date") default []) default []
        (.named [("day", .node (.number "2") default []),
          ("year", .node (.number "2020") default []),
          ("month", .node (.number "1") default [])]) {} = .ok t ∧
      ofCall "" (.node (.name "date") default []) default []
        (.positional [.node (.number "2020") default [], .node (.number "1") default [],
          .node (.number "2") default []]) {} = .ok t) ∧
    (∃ S t f e, ofCall "" (.node (.name "f") default []) default []
        (.named [("y", .node (.number "1") default []), ("x", .node (.number "3") default [])]) S =
          .ok t ∧
      Fragment.ofTerm t S {} = .ok (f, e) ∧
      f.code.run (fun _ _ => .null) e.constants Number.defaultPrecision
        (.ofInput (.context [("f", .function
          (.closure [] ["x", "y"] (.local "x") [] [] (.named [("x", .any), ("y", .any)] .any)))])) =
        .ok (.int 3)) ∧
    ∃ p, Program.ofTree {} {} "" (.node (.invocation
        (.node (.function [("x", none), ("y", none)] (.node (.name "x") default [])) default [])
        (.named [("y", .node (.number "1") default []), ("x", .node (.number "3") default [])]))
        default []) = .ok p ∧
      p.run (fun _ _ => .null) .null none = .ok (.int 3) := by
  refine ⟨?_, ?_, ?_⟩
  · have hperm := @List.perm_append_comm _ [("day", Surface.node (.number "2") default [])]
      [("year", .node (.number "2020") default []), ("month", .node (.number "1") default [])]
    obtain ⟨hdeclared, -⟩ := named_arguments_unordered "" {} (.node (.name "date") default []) hperm
      (by decide) default []
    exact ⟨_, (hdeclared Builtin.date.overloads rfl (declares_of_builtin (by decide)) _).mpr rfl,
      rfl⟩
  · let S : Scope := { inputType := .context [("f", .named [("x", .any), ("y", .any)] .any)] }
    have hperm := @List.perm_append_comm _ [("y", Surface.node (.number "1") default [])]
      [("x", .node (.number "3") default [])]
    obtain ⟨-, hvalue⟩ := named_arguments_unordered "" S (.node (.name "f") default []) hperm
      (by decide) default []
    obtain ⟨t, f, e, ht, hf, hcode⟩ : ∃ t f e, ofCall "" (.node (.name "f") default []) default []
          (.named [("y", .node (.number "1") default []), ("x", .node (.number "3") default [])])
          S = .ok t ∧ Fragment.ofTerm t S {} = .ok (f, e) ∧
        f.code = .call (.value (.inputField "f")) [.const (.int 1), .const (.int 3)]
          (some ["y", "x"]) :=
      ⟨_, _, _, rfl, rfl, rfl⟩
    obtain ⟨-, hcalls, -⟩ := hvalue rfl
    obtain ⟨c, cs, names, hcall, -, -, hruns⟩ := ((hcalls S t).1 ht).calls {} f e hf
    cases hcode.symm.trans hcall
    let first : FunctionValue :=
      .closure [] ["x", "y"] (.local "x") [] [] (.named [("x", .any), ("y", .any)] .any)
    have hrun := hruns (.ofPool (fun _ _ => .null) e.constants Number.defaultPrecision) []
      (.ofInput (.context [("f", .function first)])) first
      (fun name => if name = "x" then .int 3 else .int 1) rfl rfl rfl
    exact ⟨S, t, f, e, ht, hf, hrun.trans rfl⟩
  · have hperm := @List.perm_append_comm _ [("y", Surface.node (.number "1") default [])]
      [("x", .node (.number "3") default [])]
    obtain ⟨F, hparts, hcall⟩ := callParts_first
    obtain ⟨-, hvalue⟩ := named_arguments_unordered "" {} (.node (.function
      [("x", none), ("y", none)] (.node (.name "x") default [])) default []) hperm (by decide)
      default []
    obtain ⟨-, -, hruns, -⟩ := hvalue rfl
    have hK : ToldApart fun _ : Value => False := ⟨fun _ _ h => h.elim, fun _ h => h.elim⟩
    exact ⟨_, rfl, (hruns _ _ _ _ F _ {} _ hK rfl hparts rfl).trans hcall⟩

end Surface

end Feel
