import Feel.Proofs.FormTypes

/-!
# The types of calls of library functions

A call is written at the signature that its written argument types resolve to, and lowered at the
one that the types of its lowered arguments do, after conversion to the parameters of the first.
For functions with one result for all arguments the two can differ only in that one of them is
not known. For the functions whose result follows their arguments conversion changes nothing that
the types say.

* `Fits.convert`: conversion to a type that a value fits keeps it fitting.
* `Builtin.CallAt`: the signature at which a call is written.
* `Lower.Sound.call`: calls of library functions are sound.
-/

namespace Feel

/-! ### Conversion -/

namespace Fits

/-- What is converted to a type that is no list keeps fitting a type that it fits. -/
theorem convertSingle {v : Value} {t : Ty} (h : Fits v t) :
    Fits (Datum.convertSingle t v) t := by
  unfold Datum.convertSingle
  split
  · exact .null _
  · exact .ofNumber? _ _
  · exact .dateTime _
  · exact .date _
  · split
    · exact h
    · exact .null _

/-- Conversion to a type that a value fits keeps it fitting. -/
theorem convert {v : Value} {t : Ty} (h : Fits v t) : Fits (v.convert t) t := by
  induction h with
  | any v => exact .any _
  | null t => cases t <;> constructor
  | list _ ih =>
    refine .list fun x hx => ?_
    obtain ⟨y, hy, rfl⟩ := List.mem_map.mp hx
    exact ih y hy
  | context hfields => exact (Fits.context hfields).convertSingle
  | range hs he => exact (Fits.range hs he).convertSingle
  | _ => exact convertSingle (by constructor)

end Fits

namespace Fragment

/-- Conversion to the type that a fragment is written with keeps it sound. -/
theorem Sound.convertTo {pool : List Value} {Q : Frame → Prop} {T : Ty} {f : Fragment}
    (h : f.Sound pool Q T) : (f.convertTo T).Sound pool Q T := by
  have hconverted : (Fragment.computed (.convert f.code T) T).Sound pool Q T :=
    .computed_of_fits (.convert h.runs fun v hv => hv.written.convert)
  unfold Fragment.convertTo
  split
  · split
    · exact h
    · exact hconverted
  · split
    · exact h
    · exact hconverted
  · exact h

/-- Nothing is converted where a list of anything is asked for. -/
theorem convertTo_list_any (f : Fragment) : f.convertTo (.list .any) = f := by
  unfold Fragment.convertTo
  cases ht : f.type with
  | list a =>
    have hwidens : widens (.list a) (.list .any) = true := by
      have hconforms : a.conformsTo .any = true := by
        unfold Ty.conformsTo Ty.compat
        rw [Ty.compatTo]
        split <;> rfl
      rw [widens, hconforms, Bool.true_or]
    rw [hwidens]
    split <;> rfl
  | _ => rfl

end Fragment

/-! ### Signatures -/

namespace Builtin

/-- The signature at which a call with arguments of some types is written: the one that they
resolve to, or one that says nothing where an argument may be anything. -/
def CallAt (f : Builtin) (types : List Ty) (signature : Ty) : Prop :=
  f.signature? types = some signature ∨
    f.signature? types = none ∧ types.any Ty.isAny = true ∧ signature = .function types none .any

/-- The result of the signature at which a call is written. -/
theorem CallAt.result {f : Builtin} {types : List Ty} {signature : Ty}
    (h : f.CallAt types signature) : signature.result?.getD .any = f.resultAt types := by
  unfold resultAt
  rcases h with h | ⟨h, -, rfl⟩
  · rw [h]
    rfl
  · rw [h]
    rfl

/-- Where the result follows the arguments, the parameters are the types of the arguments or a
single list of anything. -/
theorem CallAt.params {f : Builtin} (hfixed : f.hasFixedResult = false) {types : List Ty}
    {signature : Ty} (h : f.CallAt types signature) :
    (∃ result, signature = .function types none result) ∨
      types.length = 1 ∧ ∃ names result, signature = .function [.list .any] names result := by
  rcases h with h | ⟨-, -, rfl⟩
  · have hlist : ∀ {first : Ty}, f.listSignature? first = some signature →
        f = .min ∨ f = .max ∨ f = .concatenate ∨ f = .union →
        ∃ names result, signature = .function [.list .any] names result := by
      intro first hfirst hf
      obtain ⟨t, ht, hsig⟩ := Option.map_eq_some_iff.mp hfirst
      have hmem := mem_of_resolve? ht
      rcases hf with rfl | rfl | rfl | rfl <;>
        · rw [List.mem_singleton.mp hmem] at hsig
          exact ⟨_, _, hsig.symm⟩
    have hvariadic : ∀ {first : Ty} {rest : List Ty},
        (if rest.isEmpty && first.isList then f.listSignature? first
          else some (.function (first :: rest) none (f.looseResult (rest.foldl Ty.join first)))) =
            some signature → f = .min ∨ f = .max ∨ f = .concatenate ∨ f = .union →
        (∃ result, signature = .function (first :: rest) none result) ∨
          (first :: rest).length = 1 ∧
            ∃ names result, signature = .function [.list .any] names result := by
      intro first rest hsig hf
      split at hsig
      · next hone =>
        rw [Bool.and_eq_true, List.isEmpty_iff] at hone
        exact .inr ⟨by rw [hone.1]; rfl, hlist hsig hf⟩
      · cases hsig
        exact .inl ⟨_, rfl⟩
    cases f <;> simp only [hasFixedResult, Bool.true_eq_false] at hfixed
    case append =>
      cases types with
      | nil => cases h
      | cons first rest =>
        change (if first.isList || first.isAny then _ else none) = some signature at h
        split at h
        · cases h
          exact .inl ⟨_, rfl⟩
        · cases h
    all_goals
      cases types with
      | nil => cases h
      | cons first rest => exact hvariadic h (by simp)
  · exact .inl ⟨_, rfl⟩

end Builtin

/-! ### Calls -/

namespace Lower

variable {S : Scope} {pool : List Value} {Q : Frame → Prop} {fs : List Fragment} {Ts : List Ty}

/-- Where the result follows the arguments, these stay sound as they are converted. -/
theorem AllSound.convertAll (h : AllSound pool Q fs Ts) {f : Builtin}
    (hfixed : f.hasFixedResult = false) {signature : Ty} (hsig : f.CallAt Ts signature) :
    AllSound pool Q (Fragment.convertAll fs signature) Ts := by
  rcases hsig.params hfixed with ⟨result, rfl⟩ | ⟨hone, names, result, rfl⟩
  · clear hsig
    show AllSound pool Q ((fs.zip Ts).map fun pair => pair.1.convertTo pair.2) Ts
    induction h with
    | nil => exact .nil
    | cons hf _ ih => exact .cons hf.convertTo ih
  · obtain ⟨T, rfl⟩ := List.length_eq_one_iff.mp hone
    cases h with
    | cons hf hnil =>
      cases hnil
      refine .cons ?_ .nil
      show Fragment.Sound pool Q T (Fragment.convertTo _ (.list .any))
      rw [Fragment.convertTo_list_any]
      exact hf

/-- The result of the absolute value is known for one argument only. -/
theorem resultAt_abs {types : List Ty} (h : types.length ≠ 1) :
    Builtin.abs.resultAt types = .any := by
  match types, h with
  | [], _ => rfl
  | [_], h => exact absurd rfl h
  | _ :: _ :: _, _ => rfl

/-- The argument of the absolute value is a number, unless it may be anything. -/
theorem fits_number_of_abs {T signature : Ty} (h : Builtin.abs.CallAt [T] signature)
    (hT : T ≠ .any) :
    signature = .named [("n", .number .number)] (.number .number) ∧
      ∀ v, Fits v T → Fits v (.number .number) := by
  rcases h with h | ⟨-, hany, -⟩
  · have hmem := List.mem_singleton.mp (Builtin.mem_of_resolve? h)
    refine ⟨hmem, fun v hv => ?_⟩
    cases T with
    | number k =>
      cases hv with
      | null => exact .null _
      | number n => exact .number n _
    | null =>
      rw [hv.eq_null]
      exact .null _
    | any => exact absurd rfl hT
    | _ => cases h
  · cases T <;> simp [Ty.isAny] at hany hT

/-- What is asked of the arguments of a call: the absolute value is not taken of what may be
anything. -/
def CallSuits (f : Builtin) (Ts : List Ty) : Prop := f = .abs → Ts.head? ≠ some .any

/-- What a function with one result for all arguments gives fits its results: its arguments are
not asked for anything, but for the absolute value. -/
theorem gives_fixed (h : AllSound pool Q fs Ts) {name : String} {f : Builtin}
    (hname : Builtin.ofName? name = some f) (hfixed : f.hasFixedResult = true) {signature : Ty}
    (hsig : f.CallAt Ts signature) (hsuits : CallSuits f Ts) {args : List Fragment}
    (hargs : args = Fragment.convertAll fs signature) :
    (Code.call (.builtin name) (args.map (·.code)) none).Gives pool Q fun v =>
      Fits v (f.resultAt (args.map (·.type))) ∧ Fits v (f.resultAt Ts) := by
  have hgives : ∀ {Ps : List (Value → Prop)},
      List.Forall₂ (fun c P => Code.Gives pool Q c P) (args.map (·.code)) Ps →
      (∀ vs, List.Forall₂ (fun v P => P v) vs Ps → f.ArgumentsSuit vs) →
      (Code.call (.builtin name) (args.map (·.code)) none).Gives pool Q fun v =>
        Fits v (f.resultAt (args.map (·.type))) ∧ Fits v (f.resultAt Ts) := by
    intro Ps hPs hsuit
    refine .builtin hname hPs fun vs hvs invoke v hv => ?_
    exact ⟨Builtin.apply_fits_of_fixed hfixed (hsuit vs hvs) hv _,
      Builtin.apply_fits_of_fixed hfixed (hsuit vs hvs) hv _⟩
  by_cases habs : f = .abs
  · subst habs
    by_cases hone : Ts.length = 1
    · obtain ⟨T, rfl⟩ := List.length_eq_one_iff.mp hone
      have hT : T ≠ .any := fun h => hsuits rfl (congrArg some h)
      obtain ⟨rfl, hnumber⟩ := fits_number_of_abs hsig hT
      cases h with
      | @cons g _ _ _ hg hnil =>
        cases hnil
        subst hargs
        have hconverted : (g.convertTo (.number .number)).code.Gives pool Q
            fun v => Fits v (.number .number) := by
          have hcode := hg.runs.imp fun v hv => hnumber v hv.written
          have hconvert : (Code.convert g.code (.number .number)).Gives pool Q
              fun v => Fits v (.number .number) := .convert hcode fun v hv => hv.convert
          unfold Fragment.convertTo
          split
          · split <;> assumption
          · split <;> assumption
          · exact hcode
        refine hgives (.cons hconverted .nil) fun vs hvs _ => ?_
        cases hvs with
        | cons hv _ => exact hv
    · have hlow : Builtin.abs.resultAt (args.map (·.type)) = .any := by
        have hloose : signature = .function Ts none .any := by
          rcases hsig with hsome | ⟨-, -, hloose⟩
          · match Ts, hone, hsome with
            | [_], hone, _ => exact absurd rfl hone
          · exact hloose
        refine resultAt_abs ?_
        rw [hargs, hloose]
        simpa [Fragment.convertAll, h.length_eq] using hone
      rw [hlow, resultAt_abs hone]
      exact .trivial fun v => ⟨.any v, .any v⟩
  · have htrivial : List.Forall₂ (fun c P => Code.Gives pool Q c P) (args.map (·.code))
        ((args.map (·.code)).map fun _ _ => True) := by
      rw [List.forall₂_map_right_iff]
      exact List.forall₂_same.mpr fun c _ => .trivial fun _ => .intro
    exact hgives htrivial fun vs _ h => absurd h habs

/-- What a function whose result follows its arguments gives meets its results. -/
theorem gives_following (h : AllSound pool Q fs Ts) {name : String} {f : Builtin}
    (hname : Builtin.ofName? name = some f) (hfixed : f.hasFixedResult = false)
    {signature : Ty} (hsig : f.CallAt Ts signature) {args : List Fragment}
    (hargs : args = Fragment.convertAll fs signature) :
    (Code.call (.builtin name) (args.map (·.code)) none).Gives pool Q fun v =>
      Fits v (f.resultAt (args.map (·.type))) ∧ Fits v (f.resultAt Ts) ∧
        (f.resultAt (args.map (·.type)) = .any ∨
          Agree v (f.resultAt (args.map (·.type))) (f.resultAt Ts)) := by
  have hsound := h.convertAll hfixed hsig
  rw [← hargs] at hsound
  obtain ⟨Ps, hPs, hmeets⟩ := hsound.runs
  exact .builtin hname hPs fun vs hvs invoke v hv =>
    Builtin.apply_meets hfixed (hmeets vs hvs) hv

/-- How the built-in functions lower a call: negation has code of its own. -/
theorem lower?_builtins {name : String} {f : Builtin} (hname : Builtin.ofName? name = some f)
    (args : List Fragment) :
    (f = .not ∧ ∃ c, Libraries.lower? [.builtins] name args =
        some (pure (.computed (.not c) .boolean))) ∨
      Libraries.lower? [.builtins] name args =
        some (pure (.computed (.call (.builtin name) (args.map (·.code)) none)
          (f.resultAt (args.map (·.type))))) := by
  rw [Libraries.lower?, List.findSome?_singleton, Library.lower?]
  simp only [hname, Option.bind_eq_bind, Option.bind_some]
  split
  · exact .inl ⟨rfl, _, rfl⟩
  · exact .inr rfl

/-- **Calls of library functions are sound.** -/
theorem Sound.call {args : List Lower} (h : List.Forall₂ (fun l T => Sound S T l) args Ts)
    {name : String} {f : Builtin} (hname : Builtin.ofName? name = some f) {signature : Ty}
    (hsig : f.CallAt Ts signature) (hsuits : CallSuits f Ts) (names : Option (List String))
    (span : Span) :
    Sound S (signature.result?.getD .any)
      (.invocation (.named name signature) args names (signature.result?.getD .any) span) := by
  intro L pool hL
  refine (ensures_all h hL pool).bind fun fs pool' _ hfs => ?_
  rw [hL.libraries, hsig.result]
  dsimp only
  rcases lower?_builtins hname (Fragment.convertAll fs signature) with ⟨rfl, c, hlower⟩ | hlower
  · rw [hlower]
    refine .pure fun _ _ => .computed (.not fun x => ?_)
    rcases Builtin.resultAt_of_fixed (f := .not) rfl Ts with heq | heq
    · rw [heq]
      exact .of_fits (Fits.not x)
    · rw [heq]
      exact ⟨Fits.not x, .any _, .any _ _⟩
  · rw [hlower]
    have hgives : (Code.call (.builtin name) ((Fragment.convertAll fs signature).map (·.code))
        none).Gives pool' (Frame.Suits S (subjectType L)) fun v =>
          Fits v (f.resultAt ((Fragment.convertAll fs signature).map (·.type))) ∧
          Fits v (f.resultAt Ts) ∧
          (f.resultAt ((Fragment.convertAll fs signature).map (·.type)) = .any ∨
            Agree v (f.resultAt ((Fragment.convertAll fs signature).map (·.type)))
              (f.resultAt Ts)) := by
      cases hfixed : f.hasFixedResult with
      | false => exact gives_following hfs hname hfixed hsig rfl
      | true =>
        refine (gives_fixed hfs hname hfixed hsig hsuits rfl).imp fun v hv => ?_
        exact ⟨hv.1, hv.2, Builtin.resultAt_agree_of_fixed hfixed v _ _⟩
    refine .pure fun _ hpool => ?_
    have hgives := hgives.extend hpool
    -- a result that is left open takes the type that is written
    show Fragment.Sound _ _ _ (if Ty.isAny _ then _ else _)
    split
    · exact .computed_of_fits (hgives.imp fun v hv => hv.2.1)
    · next hany =>
      refine .computed (hgives.imp fun v hv => ⟨hv.1, hv.2.1, hv.2.2.resolve_left fun h => ?_⟩)
      exact hany (by rw [h]; rfl)

end Lower

end Feel
