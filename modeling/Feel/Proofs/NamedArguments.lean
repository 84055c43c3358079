import Mathlib.Data.List.Induction
import Mathlib.Data.List.Perm.Subperm
import Feel.Proofs.TypeJoins
import Feel.Proofs.TypeSoundness

/-!
# Named arguments in any order

A call may name its arguments, in any order. Where a library declares the function, the arguments
are put in the order of the parameters while the call is typed, and the typed call is that of the
arguments by position. A function value is only known when the call runs: the names are looked up
among its own parameters then, and the function gets the values that it gets by position.

* `Elaboration.Declares`: overloads that list the same parameters in one order.
* `Elaboration.arrange_of_perm`: all arguments of an overload are put in its order.
* `Action.arrange_of_subset`: values are put in the order of the parameters of a function.
* `Surface.CallsInOrder`: what the code of a call of a function value does.
* `Surface.ofNamedCall_iff_declared`, `Surface.ofNamedCall_iff_value`: a call with named arguments
  is typed as the call by position.
* `Surface.ValueCalled.loweredInOrder`: calls of function values put their arguments in order.
-/

namespace Feel

/-! ### Overloads -/

namespace Elaboration

/-- Overloads declare parameters: one of them has these, and each one of the same names lists
them in the same order. -/
structure Declares (overloads : List Ty) (params : List String) : Prop where
  mem : params ∈ overloads.filterMap paramNames?
  order : ∀ ps ∈ overloads.filterMap paramNames?, ps.Perm params → ps = params

/-- No two overloads of a built-in function list the same parameters in different orders. -/
theorem declares_of_builtin {f : Builtin} {params : List String}
    (hmem : params ∈ f.overloads.filterMap paramNames?) : Declares f.overloads params := by
  have horder : ∀ ps ∈ f.overloads.filterMap paramNames?,
      ∀ qs ∈ f.overloads.filterMap paramNames?, qs.Perm ps → qs = ps := by
    cases f <;> decide +kernel
  exact ⟨hmem, horder params hmem⟩

/-- Of lists that are there, one that is no longer than the others is found. -/
theorem exists_shortest? {lists : List (List String)} (h : lists ≠ []) :
    ∃ best ∈ lists, shortest? lists = some best ∧ ∀ l ∈ lists, best.length ≤ l.length := by
  induction lists using List.reverseRecOn with
  | nil => exact absurd rfl h
  | append_singleton lists l ih =>
    have happend : shortest? (lists ++ [l]) = (shortest? lists).elim (some l)
        fun best => if l.length < best.length then some l else some best := by
      rw [shortest?, List.foldl_append]
      unfold shortest?
      cases lists.foldl _ none <;> rfl
    rw [happend]
    rcases eq_or_ne lists [] with rfl | hne
    · exact ⟨l, by simp [shortest?]⟩
    · obtain ⟨best, hbest, hsome, hle⟩ := ih hne
      rw [hsome, Option.elim_some]
      by_cases hlt : l.length < best.length
      · refine ⟨l, by simp, if_pos hlt, fun k hk => ?_⟩
        rcases List.mem_append.mp hk with hk | hk
        · exact Nat.le_trans (Nat.le_of_lt hlt) (hle k hk)
        · exact Nat.le_of_eq (congrArg List.length (List.mem_singleton.mp hk).symm)
      · refine ⟨best, List.mem_append_left _ hbest, if_neg hlt, fun k hk => ?_⟩
        rcases List.mem_append.mp hk with hk | hk
        · exact hle k hk
        · rw [List.mem_singleton.mp hk]
          exact Nat.le_of_not_lt hlt

/-- Names that are the parameters of an overload select its order. -/
theorem shortest?_of_declares {overloads : List Ty} {params names : List String}
    (h : Declares overloads params) (hperm : names.Perm params) (hnodup : params.Nodup) :
    shortest? ((overloads.filterMap paramNames?).filter fun ps => names.all ps.contains) =
      some params := by
  have hall : ∀ ps : List String, names.all ps.contains = true ↔ names ⊆ ps := by
    intro ps
    simp [List.all_eq_true, List.subset_def]
  have hparams : params ∈ (overloads.filterMap paramNames?).filter
      fun ps => names.all ps.contains :=
    List.mem_filter.mpr ⟨h.mem, (hall params).mpr hperm.subset⟩
  obtain ⟨best, hbest, hsome, hle⟩ := exists_shortest? (List.ne_nil_of_mem hparams)
  obtain ⟨hmem, hsubset⟩ := List.mem_filter.mp hbest
  -- the shortest has all the names and no room for another one
  have hshort : best.length ≤ names.length := hperm.length_eq ▸ hle params hparams
  have hbestPerm : names.Perm best :=
    (List.subperm_of_subset (hperm.nodup_iff.mpr hnodup)
      ((hall best).mp hsubset)).perm_of_length_le hshort
  rw [hsome, h.order best hmem (hbestPerm.symm.trans hperm)]

/-! ### Arguments in the order of the parameters -/

/-- Parameters take the arguments of their names, in whatever order these are given. -/
theorem fill_of_perm {span : Span} {given ordered : List (String × Term)}
    (hperm : given.Perm ordered) (hnodup : (ordered.map (·.1)).Nodup) :
    fill span (ordered.map (·.1)) given = ordered.map (·.2) := by
  induction ordered generalizing given with
  | nil => rfl
  | cons entry rest ih =>
    obtain ⟨p, t⟩ := entry
    have hgiven : (given.map (·.1)).Nodup := (hperm.map _).nodup_iff.mpr hnodup
    have hlookup : given.lookup p = some t :=
      (Entries.lookup_eq_some_iff_mem hgiven).mpr (hperm.mem_iff.mpr List.mem_cons_self)
    obtain ⟨hp, hrest⟩ := List.nodup_cons.mp hnodup
    have hothers : rest.filter (·.1 != p) = rest := by
      refine List.filter_eq_self.mpr fun e he => bne_iff_ne.mpr fun heq => hp ?_
      exact List.mem_map.mpr ⟨e, he, heq⟩
    have hfilter : (given.filter (·.1 != p)).Perm rest := by
      have h := hperm.filter (·.1 != p)
      rwa [List.filter_cons_of_neg (by simp), hothers] at h
    rw [List.map_cons, List.map_cons, fill, hlookup, Option.getD_some, ih hfilter hrest]

/-- All arguments of an overload are put in its order. -/
theorem arrange_of_perm {function : String} {overloads : List Ty} {span : Span}
    {given ordered : List (String × Term)} (hperm : given.Perm ordered)
    (hnodup : (ordered.map (·.1)).Nodup) (hdeclares : Declares overloads (ordered.map (·.1))) :
    arrange function overloads (given.map (·.1)) (given.map (·.2)) span =
      .ok (ordered.map (·.2)) := by
  have hzip : (given.map (·.1)).zip (given.map (·.2)) = given := by
    rw [List.zip_map', List.map_id'']
    exact fun _ => rfl
  rw [arrange, shortest?_of_declares hdeclares (hperm.map _) hnodup, hzip]
  exact congrArg Except.ok (fill_of_perm hperm hnodup)

/-- A call with all arguments of an overload is the call by position. -/
theorem namedCall_of_perm {function : String} {overloads : List Ty} {span : Span}
    {given ordered : List (String × Term)} (hperm : given.Perm ordered)
    (hnodup : (ordered.map (·.1)).Nodup) (hdeclares : Declares overloads (ordered.map (·.1))) :
    namedCall function overloads (some (given.map (·.1))) (given.map (·.2)) span =
      namedCall function overloads none (ordered.map (·.2)) span := by
  funext scope
  unfold namedCall
  simp only [arrange_of_perm hperm hnodup hdeclares]
  rfl

end Elaboration

/-! ### Calls as they are typed -/

namespace Surface

/-- The overloads of the function that a callee names, where a library declares it and no local
hides it. -/
def overloads? (callee : Surface) (scope : Scope) : Option (List Ty) :=
  (callee.name?.filter (!scope.isLocal ·)).bind scope.libraries.overloads?

/-- The term of a call. -/
def ofCall (source : String) (callee : Surface) (span : Span) (comments : List String)
    (args : Arguments Surface) : Elaboration :=
  Term.ofSurface source (.node (.invocation callee args) span comments)

/-- What a call becomes once its arguments are typed. -/
def Becomes (source : String) (scope : Scope) (callee : Surface) (span : Span)
    (typed : Option (List String) → List Term → Except CompileError Term) : Prop :=
  ∀ args, Elaboration.invocation source callee.name? (Term.ofSurface source callee) args span
    scope = (Elaboration.all scope (Elaboration.argumentParts args) >>= fun ts =>
      typed (Elaboration.argumentNames args) ts)

/-- The term of a named argument, with its name. -/
def HasTerm (source : String) (scope : Scope) (a : String × Surface) (b : String × Term) : Prop :=
  a.1 = b.1 ∧ Term.ofSurface source a.2 scope = .ok b.2

end Surface

namespace Elaboration

open Surface (HasTerm)

variable {source : String} {scope : Scope} {callee : Surface} {span : Span}

theorem parts_positional (args : List (String × Surface)) :
    argumentParts (Term.ofArguments source (.positional (args.map (·.2)))) =
      args.map fun a => Term.ofSurface source a.2 := by
  rw [Term.ofArguments, argumentParts, Term.ofList_eq_map, List.map_map]
  rfl

theorem parts_named (args : List (String × Surface)) :
    argumentParts (Term.ofArguments source (.named args)) =
      args.map fun a => Term.ofSurface source a.2 := by
  rw [Term.ofArguments, argumentParts, Term.ofEntries_eq_map, List.map_map]
  rfl

theorem names_named (args : List (String × Surface)) :
    argumentNames (Term.ofArguments source (.named args)) = some (args.map (·.1)) := by
  rw [Term.ofArguments, argumentNames, Term.ofEntries_eq_map, List.map_map]
  rfl

/-- Arguments are typed one by one, with or without their names. -/
theorem all_arguments_iff {args : List (String × Surface)} {ts : List Term} :
    all scope (args.map fun a => Term.ofSurface source a.2) = .ok ts ↔
      ∃ bs, List.Forall₂ (HasTerm source scope) args bs ∧ ts = bs.map (·.2) := by
  rw [all_eq_ok_iff, List.forall₂_map_left_iff]
  constructor
  · intro h
    induction h with
    | nil => exact ⟨[], .nil, rfl⟩
    | @cons a t _ _ h _ ih =>
      obtain ⟨bs, hbs, rfl⟩ := ih
      exact ⟨(a.1, t) :: bs, .cons ⟨rfl, h⟩ hbs, rfl⟩
  · rintro ⟨bs, hbs, rfl⟩
    exact List.forall₂_map_right_iff.mpr (hbs.imp fun _ _ h => h.2)

theorem names_of_forall₂ {args : List (String × Surface)} {bs : List (String × Term)}
    (h : List.Forall₂ (HasTerm source scope) args bs) : args.map (·.1) = bs.map (·.1) := by
  induction h with
  | nil => rfl
  | cons h _ ih => rw [List.map_cons, List.map_cons, h.1, ih]

end Elaboration

namespace Surface

open Elaboration

variable {source : String} {scope : Scope} {callee : Surface} {span : Span}
  {comments : List String} {args : Arguments Surface} {t : Term}

section Becomes

variable {typed : Option (List String) → List Term → Except CompileError Term}
  {written : List (String × Surface)}

theorem Becomes.ofCall_eq_ok_iff (h : Becomes source scope callee span typed)
    {args : Arguments Surface} {names : Option (List String)}
    (hparts : Elaboration.argumentParts (Term.ofArguments source args) =
      written.map fun a => Term.ofSurface source a.2)
    (hnames : Elaboration.argumentNames (Term.ofArguments source args) = names) :
    ofCall source callee span comments args scope = .ok t ↔
      ∃ bs u, List.Forall₂ (HasTerm source scope) written bs ∧
        typed names (bs.map (·.2)) = .ok u ∧ u.withComments comments = t := by
  unfold Becomes at h
  simp only [ofCall, Term.ofSurface, Term.ofForm, h, bind_eq_ok, pure_eq_ok, hparts, hnames,
    all_arguments_iff]
  constructor
  · rintro ⟨u, ⟨-, ⟨bs, hbs, rfl⟩, hu⟩, rfl⟩
    exact ⟨bs, u, hbs, hu, rfl⟩
  · rintro ⟨bs, u, hbs, hu, rfl⟩
    exact ⟨u, ⟨_, ⟨bs, hbs, rfl⟩, hu⟩, rfl⟩

theorem Becomes.named_iff (h : Becomes source scope callee span typed) :
    ofCall source callee span comments (.named written) scope = .ok t ↔
      ∃ bs u, List.Forall₂ (HasTerm source scope) written bs ∧
        typed (some (bs.map (·.1))) (bs.map (·.2)) = .ok u ∧ u.withComments comments = t := by
  rw [h.ofCall_eq_ok_iff (parts_named written) (names_named written)]
  refine exists_congr fun bs => exists_congr fun u => and_congr_right fun hbs => ?_
  rw [names_of_forall₂ hbs]

theorem Becomes.positional_iff (h : Becomes source scope callee span typed) :
    ofCall source callee span comments (.positional (written.map (·.2))) scope = .ok t ↔
      ∃ bs u, List.Forall₂ (HasTerm source scope) written bs ∧
        typed none (bs.map (·.2)) = .ok u ∧ u.withComments comments = t :=
  h.ofCall_eq_ok_iff (parts_positional written) rfl

end Becomes

/-- A function that a library declares is called at its signature. -/
theorem becomes_declared {overloads : List Ty} (h : callee.overloads? scope = some overloads) :
    ∃ name, Becomes source scope callee span fun names ts =>
      namedCall name overloads names ts span scope := by
  obtain ⟨name, hname, hoverloads⟩ := Option.bind_eq_some_iff.mp h
  refine ⟨name, fun args => ?_⟩
  simp only [invocation, hname, hoverloads]

/-- Anything else is called as a value. -/
theorem becomes_value (h : callee.overloads? scope = none) :
    Becomes source scope callee span fun names ts =>
      valueCall source (Term.ofSurface source callee) names ts span scope := by
  intro args
  unfold overloads? at h
  cases hname : callee.name?.filter (!scope.isLocal ·) with
  | none => simp only [invocation, hname]
  | some name =>
    rw [hname, Option.bind_some] at h
    simp only [invocation, hname, h]

/-- A call of a value types its callee, whatever the arguments are. -/
theorem of_valueCall {e : Elaboration} {names : Option (List String)} {ts : List Term}
    (h : valueCall source e names ts span scope = .ok t) :
    ∃ c type, e scope = .ok c ∧ ∀ names' ts', valueCall source e names' ts' span scope =
      .ok (.plain (.invocation (.value c) ts' names') type span) := by
  obtain ⟨c, hc, h⟩ := bind_eq_ok.mp h
  cases hname : unknownName? c with
  | some name =>
    simp only [hname] at h
    cases h
  | none =>
    simp only [hname] at h
    cases htype : c.type with
    | function params paramNames result =>
      refine ⟨c, result, hc, fun names' ts' => bind_eq_ok.mpr ⟨c, hc, ?_⟩⟩
      simp only [hname, htype]
      rfl
    | any =>
      refine ⟨c, .any, hc, fun names' ts' => bind_eq_ok.mpr ⟨c, hc, ?_⟩⟩
      simp only [hname, htype]
      rfl
    | _ =>
      simp only [htype] at h
      cases h

section Orders

variable {named ordered : List (String × Surface)} (hperm : named.Perm ordered)
include hperm

/-- A declared function is called with its arguments in any order. -/
theorem ofNamedCall_iff_declared {overloads : List Ty}
    (h : callee.overloads? scope = some overloads)
    (hdeclares : Declares overloads (ordered.map (·.1))) (hnodup : (ordered.map (·.1)).Nodup) :
    ofCall source callee span comments (.named named) scope = .ok t ↔
      ofCall source callee span comments (.positional (ordered.map (·.2))) scope = .ok t := by
  obtain ⟨name, hcall⟩ := becomes_declared h
  rw [hcall.named_iff, hcall.positional_iff]
  have hsame : ∀ {bs cs : List (String × Term)},
      List.Forall₂ (HasTerm source scope) ordered cs → bs.Perm cs →
      namedCall name overloads (some (bs.map (·.1))) (bs.map (·.2)) span scope =
        namedCall name overloads none (cs.map (·.2)) span scope := by
    intro bs cs hcs hbs
    rw [names_of_forall₂ hcs] at hnodup hdeclares
    exact congrFun (namedCall_of_perm hbs hnodup hdeclares) scope
  constructor
  · rintro ⟨bs, u, hbs, hu, rfl⟩
    obtain ⟨cs, hcs, hcsbs⟩ := List.perm_comp_forall₂ hperm.symm hbs
    exact ⟨cs, u, hcs, hsame hcs hcsbs.symm ▸ hu, rfl⟩
  · rintro ⟨cs, u, hcs, hu, rfl⟩
    obtain ⟨bs, hbs, hbscs⟩ := List.perm_comp_forall₂ hperm hcs
    exact ⟨bs, u, hbs, hsame hcs hbscs ▸ hu, rfl⟩

/-- A value is called with its arguments in any order. -/
theorem ofNamedCall_iff_value (h : callee.overloads? scope = none) :
    (∃ t, ofCall source callee span comments (.named named) scope = .ok t) ↔
      ∃ t, ofCall source callee span comments (.positional (ordered.map (·.2))) scope = .ok t := by
  have hcall : Becomes source scope callee span _ := becomes_value h
  simp only [hcall.named_iff, hcall.positional_iff]
  constructor
  · rintro ⟨-, bs, u, hbs, hu, rfl⟩
    obtain ⟨cs, hcs, -⟩ := List.perm_comp_forall₂ hperm.symm hbs
    obtain ⟨c, type, -, hvalue⟩ := of_valueCall hu
    exact ⟨_, cs, _, hcs, hvalue _ _, rfl⟩
  · rintro ⟨-, cs, u, hcs, hu, rfl⟩
    obtain ⟨bs, hbs, -⟩ := List.perm_comp_forall₂ hperm hcs
    obtain ⟨c, type, -, hvalue⟩ := of_valueCall hu
    exact ⟨_, bs, _, hbs, hvalue _ _, rfl⟩

end Orders

end Surface

/-! ### Calls as they are lowered -/

/-- The code that a tree is lowered to, after whatever else was lowered. -/
def Surface.LoweredTo (source : String) (scope S : Scope) (s : Surface) (code : Code) : Prop :=
  ∃ t d f e, Term.ofSurface source s scope = .ok t ∧ Fragment.ofTerm t S d = .ok (f, e) ∧
    f.code = code

/-- A tree is lowered, whatever was lowered before it. -/
def Surface.Lowers (source : String) (scope S : Scope) (s : Surface) : Prop :=
  ∀ t, Term.ofSurface source s scope = .ok t → ∀ d, ∃ f e, Fragment.ofTerm t S d = .ok (f, e)

namespace Lower

theorem exists_all {S : Scope} {ts : List Term}
    (h : ∀ t ∈ ts, ∀ d, ∃ f e, Fragment.ofTerm t S d = .ok (f, e)) (d : Draft) :
    ∃ fs e, all S (Fragment.ofList ts) d = .ok (fs, e) := by
  induction ts generalizing d with
  | nil => exact ⟨[], d, rfl⟩
  | cons t ts ih =>
    rw [List.forall_mem_cons] at h
    obtain ⟨f, mid, hf⟩ := h.1 d
    obtain ⟨fs, e, hfs⟩ := ih h.2 mid
    exact ⟨f :: fs, e, bind_eq_ok.mpr ⟨(f, mid), hf, bind_eq_ok.mpr ⟨(fs, e), hfs, rfl⟩⟩⟩

/-- Terms are lowered in order, each one after those before it. -/
theorem forall₂_all {S : Scope} {ts : List Term} {d e : Draft} {fs : List Fragment}
    (h : all S (Fragment.ofList ts) d = .ok (fs, e)) :
    List.Forall₂ (fun t f => ∃ d e, Fragment.ofTerm t S d = .ok (f, e)) ts fs := by
  induction ts generalizing d fs with
  | nil =>
    cases h
    exact .nil
  | cons t ts ih =>
    obtain ⟨⟨f, mid⟩, hf, h⟩ := bind_eq_ok.mp h
    obtain ⟨⟨rest, last⟩, hrest, h⟩ := bind_eq_ok.mp h
    cases h
    exact .cons ⟨d, mid, hf⟩ (ih hrest)

end Lower

/-- A call of a value is lowered to the codes of its arguments and of its callee. -/
theorem Fragment.of_valueCall {c : Term} {ts : List Term} {names : Option (List String)}
    {type : Ty} {span : Span} {comments : List String} {S : Scope} {d e : Draft} {f : Fragment}
    (h : ofTerm ((Term.plain (.invocation (.value c) ts names) type span).withComments comments) S
      d = .ok (f, e)) :
    ∃ g fs, (∃ d e, ofTerm c S d = .ok (g, e)) ∧
      List.Forall₂ (fun t f => ∃ d e, ofTerm t S d = .ok (f, e)) ts fs ∧
      f.code = .call (.value g.code) (fs.map (·.code)) names := by
  have h : Lower.invocation (.value (ofTerm c)) (ofList ts) names type span S d = .ok (f, e) := h
  obtain ⟨⟨fs, mid⟩, hfs, h⟩ := bind_eq_ok.mp h
  obtain ⟨⟨g, last⟩, hg, h⟩ := bind_eq_ok.mp h
  cases h
  exact ⟨g, fs, ⟨_, _, hg⟩, Lower.forall₂_all hfs, rfl⟩

theorem Fragment.exists_valueCall {c : Term} {ts : List Term} {S : Scope}
    (hc : ∀ d, ∃ f e, ofTerm c S d = .ok (f, e))
    (hts : ∀ t ∈ ts, ∀ d, ∃ f e, ofTerm t S d = .ok (f, e)) (names : Option (List String))
    (type : Ty) (span : Span) (comments : List String) (d : Draft) :
    ∃ f e, ofTerm ((Term.plain (.invocation (.value c) ts names) type span).withComments comments)
      S d = .ok (f, e) := by
  obtain ⟨fs, mid, hfs⟩ := Lower.exists_all hts d
  obtain ⟨g, e, hg⟩ := hc mid
  exact ⟨_, e, bind_eq_ok.mpr ⟨(fs, mid), hfs, bind_eq_ok.mpr ⟨(g, e), hg, rfl⟩⟩⟩

/-! ### Calls as they run -/

namespace Action

/-- A name is looked up to its value. -/
theorem lookup_zip_map {names : List String} {p : String} (h : p ∈ names)
    (value : String → Value) : (names.zip (names.map value)).lookup p = some (value p) := by
  induction names with
  | nil => cases h
  | cons name names ih =>
    rw [List.map_cons, List.zip_cons_cons, List.lookup_cons]
    by_cases heq : p = name
    · rw [heq, beq_self_eq_true]
    · rw [beq_false_of_ne heq]
      exact ih ((List.mem_cons.mp h).resolve_left heq)

/-- Values are put in the order of the parameters, whatever the order of their names. -/
theorem arrange_of_subset {params names : List String} (h : params ⊆ names)
    (value : String → Value) :
    arrange params names (names.map value) = params.map value := by
  refine List.map_congr_left fun p hp => ?_
  rw [lookup_zip_map (h hp), Option.getD_some]

/-- What a call of a function value gives. -/
theorem call_value {m : Machine} {site : Site} {frame : Frame} {callee : Action}
    {f : FunctionValue} {args : List Action} {vs : List Value}
    (hf : callee (2 :: site) frame = .ok (.function f))
    (hvs : all (0 :: site) frame 0 args = .ok vs) (names : Option (List String)) :
    call m (.value callee) args names site frame =
      m.call (3 :: site) f (positional f names vs) frame.input := by
  unfold call
  rw [hvs]
  change (callee (2 :: site) frame >>= _) = _
  rw [hf]
  rfl

end Action

namespace Surface

open Elaboration

/-- The code of a call of a function value, with arguments in the order in which they are
written. Where the callee gives a function of these parameters, and each argument gives the value
of its name, the code gives what the function gives for the values in the order of its
parameters. -/
def CallsInOrder (source : String) (scope S : Scope) (callee : Surface)
    (written : List (String × Surface)) (params : List String) (code : Code) : Prop :=
  ∃ (c : Code) (cs : List Code) (names : Option (List String)),
    code = .call (.value c) cs names ∧ callee.LoweredTo source scope S c ∧
      List.Forall₂ (fun a d => a.2.LoweredTo source scope S d) written cs ∧
      ∀ (m : Machine) (site : Site) (frame : Frame) (f : FunctionValue) (value : String → Value),
        c.denote m (2 :: site) frame = .ok (.function f) → f.paramNames = params →
        Action.all (0 :: site) frame 0 (Code.denoteList m cs) =
          .ok (written.map fun a => value a.1) →
        code.denote m site frame = m.call (3 :: site) f (params.map value) frame.input

/-- The term of a call of a function value is lowered where its parts are, to code that calls the
function with its arguments in order. -/
structure LoweredInOrder (source : String) (scope S : Scope) (callee : Surface)
    (written : List (String × Surface)) (params : List String) (t : Term) : Prop where
  lowers : callee.Lowers source scope S → (∀ a ∈ written, a.2.Lowers source scope S) →
    ∀ d, ∃ f e, Fragment.ofTerm t S d = .ok (f, e)
  calls : ∀ d f e, Fragment.ofTerm t S d = .ok (f, e) →
    CallsInOrder source scope S callee written params f.code

variable {source : String} {scope S : Scope} {callee : Surface} {span : Span}
  {comments : List String} {written : List (String × Surface)} {bs : List (String × Term)}

theorem loweredTo_of_forall₂ {fs : List Fragment}
    (hbs : List.Forall₂ (HasTerm source scope) written bs)
    (hfs : List.Forall₂ (fun b f => ∃ d e, Fragment.ofTerm b.2 S d = .ok (f, e)) bs fs) :
    List.Forall₂ (fun a f => a.2.LoweredTo source scope S f.code) written fs := by
  induction hbs generalizing fs with
  | nil =>
    cases hfs
    exact .nil
  | cons hb _ ih =>
    cases hfs with
    | cons hf hfs =>
      obtain ⟨d, e, hf⟩ := hf
      exact .cons ⟨_, d, _, e, hb.2, hf, rfl⟩ (ih hfs)

/-- What holds of the terms of arguments, taken together. -/
theorem forall_of_forall₂ {P : Term → Prop} (hbs : List.Forall₂ (HasTerm source scope) written bs)
    (h : ∀ a ∈ written, ∀ t, Term.ofSurface source a.2 scope = .ok t → P t) :
    ∀ t ∈ bs.map (·.2), P t := by
  induction hbs with
  | nil => exact fun _ ht => absurd ht List.not_mem_nil
  | cons hb _ ih =>
    rw [List.forall_mem_cons] at h
    exact List.forall_mem_cons.mpr ⟨h.1 _ hb.2, ih h.2⟩

/-- The term of a call of a value, with arguments as they are written, whose values a run puts in
the order of the parameters. -/
def ValueCalled (source : String) (scope : Scope) (callee : Surface) (span : Span)
    (comments : List String) (written : List (String × Surface)) (params : List String)
    (t : Term) : Prop :=
  ∃ (c : Term) (bs : List (String × Term)) (names : Option (List String)) (type : Ty),
    Term.ofSurface source callee scope = .ok c ∧ List.Forall₂ (HasTerm source scope) written bs ∧
      t = (Term.plain (.invocation (.value c) (bs.map (·.2)) names) type span).withComments
        comments ∧
      ∀ f : FunctionValue, f.paramNames = params → ∀ value : String → Value,
        Action.positional f names (written.map fun a => value a.1) = params.map value

section Orders

variable {named ordered : List (String × Surface)} {t : Term}
  (h : callee.overloads? scope = none)
include h

theorem valueCalled_of_named (hperm : named.Perm ordered)
    (ht : ofCall source callee span comments (.named named) scope = .ok t) :
    ValueCalled source scope callee span comments named (ordered.map (·.1)) t := by
  obtain ⟨bs, u, hbs, hu, rfl⟩ := (becomes_value h).named_iff.mp ht
  obtain ⟨c, type, hc, hvalue⟩ := of_valueCall hu
  cases hu.symm.trans (hvalue _ _)
  refine ⟨c, bs, _, type, hc, hbs, rfl, fun f hf value => ?_⟩
  have hvalues : (named.map fun a => value a.1) = (named.map (·.1)).map value :=
    List.map_map.symm
  rw [Action.positional, hf, ← names_of_forall₂ hbs, hvalues]
  exact Action.arrange_of_subset (hperm.map _).symm.subset value

theorem valueCalled_of_positional
    (ht : ofCall source callee span comments (.positional (ordered.map (·.2))) scope = .ok t) :
    ValueCalled source scope callee span comments ordered (ordered.map (·.1)) t := by
  obtain ⟨bs, u, hbs, hu, rfl⟩ := (becomes_value h).positional_iff.mp ht
  obtain ⟨c, type, hc, hvalue⟩ := of_valueCall hu
  cases hu.symm.trans (hvalue _ _)
  exact ⟨c, bs, _, type, hc, hbs, rfl, fun f _ value => List.map_map.symm⟩

end Orders

/-- The code of a call of a value puts the values of its arguments in order. -/
theorem ValueCalled.loweredInOrder {params : List String} {t : Term}
    (h : ValueCalled source scope callee span comments written params t) :
    LoweredInOrder source scope S callee written params t := by
  obtain ⟨c, bs, names, type, hc, hbs, rfl, horder⟩ := h
  refine ⟨fun hlowers hparts => Fragment.exists_valueCall (hlowers c hc)
    (forall_of_forall₂ hbs hparts) names type span comments, fun d f e hf => ?_⟩
  obtain ⟨g, fs, ⟨d₁, e₁, hg⟩, hfs, hcode⟩ := Fragment.of_valueCall hf
  refine ⟨g.code, fs.map (·.code), names, hcode, ⟨c, d₁, g, e₁, hc, hg, rfl⟩, ?_, ?_⟩
  · exact List.forall₂_map_right_iff.mpr (loweredTo_of_forall₂ hbs
      (List.forall₂_map_left_iff.mp hfs))
  · intro m site frame F value hF hparams hvs
    rw [hcode]
    change Action.call m (.value (g.code.denote m)) _ names site frame = _
    rw [Action.call_value hF hvs, horder F hparams]

end Surface

end Feel
