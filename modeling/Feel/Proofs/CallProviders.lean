import Feel.Fragment.Calls
import Feel.Proofs.TypeDistances

/-!
# The library that lowers a call

Libraries are asked twice about a call: for its type, with the types that its arguments are written
at, and for its code, with the types that the lowered arguments have after conversion. Each time the
first that answers settles it. The two answers come from one library unless the conversion, or what
lowering found out about the arguments, lets an earlier library in or shuts the first answer out.

* `Library.takes`: whether a library lowers a call with arguments of some types.
* `Libraries.typedAt?`, `Libraries.loweredAt?`: the places of the two libraries.
* `Libraries.loweredAt?_eq_typedAt?_iff`: when they are one place, and what follows there.
-/

namespace Feel

/-! ### Overloads -/

namespace Ty

variable {args params : List Ty}

theorem resolve?_singleton (t : Ty) (args : List Ty) :
    resolve? [t] args = if (overloadDistance? args t).isSome then some t else none := by
  unfold resolve?
  cases h : overloadDistance? args t <;> simp [h]

/-- What an overload is near to is a function type. -/
theorem exists_function_of_overloadDistance? {t : Ty} (h : (overloadDistance? args t).isSome) :
    ∃ params names result, t = function params names result := by
  cases t with
  | function params names result => exact ⟨params, names, result, rfl⟩
  | _ => cases h

/-- Some conversion leads to a target that is not incompatible. -/
theorem convertsTo_iff_compat_ne {s t : Ty} :
    s.convertsTo t = true ↔ s.compat t ≠ .incompatible := by
  unfold convertsTo
  cases s.compat t <;> simp [Compat.isConvertible]

/-- Parameters are within reach when there is one for each argument and some conversion leads
there. -/
theorem isSome_distance?_iff :
    (distance? args params).isSome ↔
      List.Forall₂ (fun s t => s.convertsTo t = true) args params := by
  have hreached :
      ((args.zip params).map (Function.uncurry compat)).contains .incompatible = false ↔
        ∀ {s t : Ty}, (s, t) ∈ args.zip params → s.convertsTo t = true := by
    rw [← Bool.not_eq_true, List.contains_iff_mem, List.mem_map]
    constructor
    · intro hnone s t hmem
      exact convertsTo_iff_compat_ne.mpr fun heq => hnone ⟨(s, t), hmem, heq⟩
    · rintro hall ⟨⟨s, t⟩, hmem, heq⟩
      exact convertsTo_iff_compat_ne.mp (hall hmem) heq
  rw [distance?, List.forall₂_iff_zip, ← hreached]
  by_cases hlength : args.length = params.length
  · simp [hlength]
  · simp [hlength]

end Ty

/-! ### Arguments -/

namespace Fragment

/-- The type of an argument as a parameter of a type takes it. -/
def typeAs (t param : Ty) : Ty :=
  match t.compat param with
  | .convertible | .lossy => if widens t param then t else param
  | _ => t

theorem type_convertTo (f : Fragment) (param : Ty) :
    (f.convertTo param).type = typeAs f.type param := by
  unfold convertTo typeAs
  cases f.type.compat param <;> dsimp only <;> split <;> rfl

theorem types_convertAll (args : List Fragment) (params : List Ty) (names : Option (List String))
    (result : Ty) : (convertAll args (.function params names result)).map (·.type) =
      (args.map (·.type)).zipWith typeAs params := by
  rw [convertAll, List.map_map, List.zipWith_map_left, ← List.map_uncurry_zip_eq_zipWith]
  exact List.map_congr_left fun pair _ => type_convertTo pair.1 pair.2

/-- What some conversion leads to a parameter is still led there after the conversion. -/
theorem convertsTo_typeAs {t param : Ty} (hparam : param.Distinct) (h : t.convertsTo param = true) :
    (typeAs t param).convertsTo param = true := by
  have hself : param.convertsTo param = true := by
    rw [Ty.convertsTo, Ty.compat_self hparam]
    rfl
  unfold typeAs
  split
  · split <;> assumption
  · split <;> assumption
  · exact h

theorem convertsTo_typesAs {types params : List Ty} (hparams : ∀ p ∈ params, p.Distinct)
    (h : List.Forall₂ (fun s t => s.convertsTo t = true) types params) :
    List.Forall₂ (fun s t => s.convertsTo t = true) (types.zipWith typeAs params) params := by
  induction h with
  | nil => exact .nil
  | cons hhead _ ih =>
    rw [List.forall_mem_cons] at hparams
    exact .cons (convertsTo_typeAs hparams.1 hhead) (ih hparams.2)

end Fragment

/-! ### Libraries -/

namespace Library

/-- Whether a library lowers a call with arguments of some types: a host function must accept them,
a built-in function is lowered whatever they are. -/
def takes (l : Library) (name : String) (types : List Ty) : Bool :=
  match l with
  | host functions => ((find? functions name).bind fun f => Ty.resolve? [f.type] types).isSome
  | builtins => (Builtin.ofName? name).isSome

variable {l : Library} {name : String}

theorem isSome_lower? (args : List Fragment) :
    (l.lower? name args).isSome = l.takes name (args.map (·.type)) := by
  cases l with
  | host functions =>
    rw [lower?, takes]
    cases find? functions name with
    | none => rfl
    | some f =>
      rw [Option.bind_eq_bind, Option.bind_some, Option.bind_some, Ty.resolve?_singleton]
      split
      · next h =>
        obtain ⟨params, names, result, ht⟩ := Ty.exists_function_of_overloadDistance? h
        rw [ht]
        rfl
      · rfl
  | builtins =>
    rw [lower?, takes]
    cases Builtin.ofName? name with
    | none => rfl
    | some f =>
      simp only [Option.bind_eq_bind, Option.bind_some]
      split <;> rfl

/-- What a library accepts it lowers. -/
theorem takes_of_signature? {types : List Ty} (h : (l.signature? name types).isSome) :
    l.takes name types = true := by
  cases l with
  | host functions => exact h
  | builtins =>
    obtain ⟨t, ht⟩ := Option.isSome_iff_exists.mp h
    obtain ⟨f, hf, -⟩ := Option.bind_eq_some_iff.mp ht
    exact Option.isSome_iff_exists.mpr ⟨f, hf⟩

/-- A library accepts a call of a host function when some conversion leads from each argument to
its parameter. -/
theorem takes_host_iff {functions : List HostFunction} {types : List Ty} :
    (host functions).takes name types = true ↔
      ∃ f params names result, find? functions name = some f ∧
        f.type = .function params names result ∧
        List.Forall₂ (fun s t => s.convertsTo t = true) types params := by
  rw [takes]
  cases find? functions name with
  | none => simp
  | some f =>
    rw [Option.bind_some, Ty.resolve?_singleton]
    constructor
    · intro h
      have hnear : (Ty.overloadDistance? types f.type).isSome := by
        by_contra hfar
        rw [if_neg hfar] at h
        cases h
      obtain ⟨params, names, result, ht⟩ := Ty.exists_function_of_overloadDistance? hnear
      rw [ht] at hnear
      exact ⟨f, params, names, result, rfl, ht, Ty.isSome_distance?_iff.mp hnear⟩
    · rintro ⟨g, params, names, result, hg, ht, hreached⟩
      cases hg
      have hnear : (Ty.overloadDistance? types f.type).isSome := by
        rw [ht]
        exact Ty.isSome_distance?_iff.mpr hreached
      rw [if_pos hnear]
      rfl

/-- The function whose signature a library of host functions gave is the one that its code
calls. -/
theorem exists_function_of_signature? {functions : List HostFunction} {types : List Ty}
    {signature : Ty} (h : (host functions).signature? name types = some signature) :
    ∃ f, find? functions name = some f ∧ f.type = signature := by
  obtain ⟨f, hf, hresolve⟩ := Option.bind_eq_some_iff.mp h
  rw [Ty.resolve?_singleton] at hresolve
  split at hresolve
  · exact ⟨f, hf, Option.some.inj hresolve⟩
  · cases hresolve

/-- A library that accepts a call takes it with its arguments converted to the parameters. -/
theorem takes_convertAll {types : List Ty} {signature : Ty}
    (hsig : l.signature? name types = some signature) (hdistinct : signature.Distinct)
    {args : List Fragment} (hargs : args.map (·.type) = types) :
    l.takes name ((Fragment.convertAll args signature).map (·.type)) = true := by
  have htakes := takes_of_signature? (Option.isSome_iff_exists.mpr ⟨_, hsig⟩)
  cases l with
  | host functions =>
    obtain ⟨f, params, names, result, hf, ht, hreached⟩ := takes_host_iff.mp htakes
    obtain ⟨g, hg, rfl⟩ := exists_function_of_signature? hsig
    obtain rfl : f = g := Option.some.inj (hf.symm.trans hg)
    refine takes_host_iff.mpr ⟨f, params, names, result, hf, ht, ?_⟩
    rw [ht] at hdistinct ⊢
    cases hdistinct with
    | function hparams _ =>
      rw [Fragment.types_convertAll, hargs]
      exact Fragment.convertsTo_typesAs hparams hreached
  | builtins => exact htakes

/-- The code of a call of a host function loads the function from the pool. -/
theorem lower?_host {functions : List HostFunction} {f : HostFunction}
    (hf : find? functions name = some f) {args : List Fragment}
    (h : (host functions).takes name (args.map (·.type)) = true) :
    ∃ result, f.type.result? = some result ∧ (host functions).lower? name args = some (do
      let i ← Lowering.intern (.function (.native f.id f.name f.type))
      return .computed (.call (.value (.constRef i)) (args.map (·.code)) none) result) := by
  rw [takes, hf, Option.bind_some, Ty.resolve?_singleton] at h
  split at h
  · next hnear =>
    obtain ⟨params, names, result, ht⟩ := Ty.exists_function_of_overloadDistance? hnear
    refine ⟨result, by rw [ht]; rfl, ?_⟩
    simp only [lower?, hf, Option.bind_eq_bind, Option.bind_some, Ty.resolve?_singleton,
      if_pos hnear]
    rw [ht]
    rfl
  · cases h

end Library

namespace Libraries

variable {ls : Libraries} {name : String} {types : List Ty} {signature : Ty} {k : Nat}

/-- The place of the library that gives a call its type. -/
def typedAt? (ls : Libraries) (name : String) (types : List Ty) : Option Nat :=
  ls.findIdx? fun l => (l.signature? name types).isSome

/-- The place of the library that gives a call its code. -/
def loweredAt? (ls : Libraries) (name : String) (args : List Fragment) : Option Nat :=
  ls.findIdx? fun l => (l.lower? name args).isSome

theorem loweredAt?_eq (ls : Libraries) (name : String) (args : List Fragment) :
    ls.loweredAt? name args = ls.findIdx? (·.takes name (args.map (·.type))) := by
  unfold loweredAt?
  congr 1
  exact funext fun l => Library.isSome_lower? args

/-- The first answer is that of the member at the first place with an answer. -/
theorem findSome?_of_findIdx? {α β : Type} {f : α → Option β} {xs : List α} {k : Nat}
    (h : xs.findIdx? (fun x => (f x).isSome) = some k) :
    ∃ x, xs[k]? = some x ∧ xs.findSome? f = f x := by
  induction xs generalizing k with
  | nil => cases h
  | cons x xs ih =>
    rw [List.findIdx?_cons] at h
    rw [List.findSome?_cons]
    cases hx : f x with
    | some b =>
      rw [hx] at h
      cases h
      exact ⟨x, rfl, hx.symm⟩
    | none =>
      rw [hx] at h
      obtain ⟨j, hj, rfl⟩ := Option.map_eq_some_iff.mp h
      exact ih hj

/-- The place that gives a call its code takes the arguments, and no place before it does. -/
theorem loweredAt?_eq_some_iff {args : List Fragment} (hk : k < ls.length) :
    ls.loweredAt? name args = some k ↔
      (∀ l, ls[k]? = some l → l.takes name (args.map (·.type)) = true) ∧
        ∀ i < k, ∀ l, ls[i]? = some l → l.takes name (args.map (·.type)) = false := by
  have hget : ∀ {i : Nat} (hi : i < ls.length) {l : Library}, ls[i]? = some l ↔ ls[i] = l := by
    intro i hi l
    rw [List.getElem?_eq_getElem hi, Option.some.injEq]
  rw [loweredAt?_eq, List.findIdx?_eq_some_iff_getElem]
  constructor
  · rintro ⟨_, htakes, hbefore⟩
    refine ⟨fun l hl => ?_, fun i hi l hl => ?_⟩
    · rw [← (hget hk).mp hl]
      exact htakes
    · rw [← (hget (Nat.lt_trans hi hk)).mp hl]
      exact Bool.eq_false_iff.mpr (hbefore i hi)
  · rintro ⟨htakes, hbefore⟩
    refine ⟨hk, htakes _ ((hget hk).mpr rfl), fun i hi => Bool.not_eq_true _ ▸ ?_⟩
    exact hbefore i hi _ ((hget (Nat.lt_trans hi hk)).mpr rfl)

/-- Before a place that host functions and the built-in functions behind them have, all libraries
are host functions. -/
theorem exists_host_of_lt {groups : List (List HostFunction)} {i : Nat} {l : Library}
    (hk : k < (groups.map Library.host ++ [Library.builtins]).length) (hi : i < k)
    (hl : (groups.map Library.host ++ [Library.builtins])[i]? = some l) :
    ∃ functions, l = .host functions := by
  have hi' : i < (groups.map Library.host).length := by
    simp at hk ⊢
    omega
  rw [List.getElem?_append_left hi'] at hl
  obtain ⟨functions, -, rfl⟩ := List.mem_map.mp (List.mem_of_getElem? hl)
  exact ⟨functions, rfl⟩

/-- **The library that lowers a call.** Let the library at place `k` give a call its type, among
host functions with the built-in functions behind them. The library that gives the call its code,
after the arguments are converted to the parameters of that type, is the same one exactly when it
takes the arguments as they then are and no library before it does. It takes them when lowering kept
the types of the arguments, and both conditions hold when conversion kept them too. A host function
that gave the type is then the function that the code calls. -/
theorem loweredAt?_eq_typedAt?_iff {groups : List (List HostFunction)} {name : String}
    {types : List Ty} {signature : Ty} {k : Nat} {ls : Libraries}
    (hls : ls = groups.map .host ++ [.builtins])
    (htyped : ls.typedAt? name types = some k) (hsig : ls.signature? name types = some signature)
    {args converted : List Fragment} (hconverted : converted = Fragment.convertAll args signature) :
    (ls.loweredAt? name converted = some k ↔
      (∀ l, ls[k]? = some l → l.takes name (converted.map (·.type)) = true) ∧
        ∀ i < k, ∀ l, ls[i]? = some l → l.takes name (converted.map (·.type)) = false) ∧
    (signature.Distinct → args.map (·.type) = types →
      ∀ l, ls[k]? = some l → l.takes name (converted.map (·.type)) = true) ∧
    (converted.map (·.type) = types → ls.loweredAt? name converted = some k) ∧
    ∀ functions, ls[k]? = some (.host functions) → ls.loweredAt? name converted = some k →
      ∃ f result, Library.find? functions name = some f ∧ f.type = signature ∧
        signature.result? = some result ∧ ls.lower? name converted = some (do
          let i ← Lowering.intern (.function (.native f.id f.name f.type))
          return .computed (.call (.value (.constRef i)) (converted.map (·.code)) none)
            result) := by
  obtain ⟨hk, hkey, hbefore⟩ := List.findIdx?_eq_some_iff_getElem.mp htyped
  obtain ⟨l, hl, hfirst⟩ := findSome?_of_findIdx? htyped
  have hlsig : l.signature? name types = some signature := hfirst.symm.trans hsig
  have hsame : ∀ {l' : Library}, ls[k]? = some l' → l' = l := fun hl' =>
    Option.some.inj (hl'.symm.trans hl)
  refine ⟨loweredAt?_eq_some_iff hk, fun hdistinct hargs l' hl' => ?_, fun hgiven => ?_, ?_⟩
  · rw [hsame hl', hconverted]
    exact Library.takes_convertAll hlsig hdistinct hargs
  · refine (loweredAt?_eq_some_iff hk).mpr ⟨fun l' hl' => ?_, fun i hi l' hl' => ?_⟩
    · rw [hsame hl', hgiven]
      exact Library.takes_of_signature? (Option.isSome_iff_exists.mpr ⟨_, hlsig⟩)
    · obtain ⟨functions, rfl⟩ := exists_host_of_lt (hls ▸ hk) hi (hls ▸ hl')
      rw [hgiven]
      have hrejected := hbefore i hi
      obtain ⟨_, hhost⟩ := List.getElem_of_getElem? hl'
      rw [hhost] at hrejected
      exact Bool.eq_false_iff.mpr hrejected
  · intro functions hfunctions hlowered
    obtain rfl := hsame hfunctions
    obtain ⟨f, hf, hftype⟩ := Library.exists_function_of_signature? hlsig
    have htakes := ((loweredAt?_eq_some_iff hk).mp hlowered).1 _ hfunctions
    obtain ⟨result, hresult, hcode⟩ := Library.lower?_host hf htakes
    obtain ⟨l', hl', hlower⟩ := findSome?_of_findIdx? hlowered
    obtain rfl := hsame hl'
    exact ⟨f, result, hf, hftype, hftype ▸ hresult, hlower.trans hcode⟩

/-- With two host functions of one name, a call with a date is typed by the second, which takes an
instant. The first takes times: it has no use for the date, but for the instant that the date is
converted to, and so the code calls the first. A call with a time stays with it. -/
theorem loweredAt?_eq_typedAt?_iff_date :
    let ofTime : Ty := .named [("t", .time)] .string
    let ofInstant : Ty := .named [("t", .dateTime)] .boolean
    let ls : Libraries := [[⟨0, "f", ofTime⟩], [⟨1, "f", ofInstant⟩]].map .host ++ [.builtins]
    let args (t : Ty) : List Fragment := [.computed .testInput t]
    (ls.typedAt? "f" [.date] = some 1 ∧ ls.typedAt? "f" [.time] = some 0) ∧
      ls.loweredAt? "f" (Fragment.convertAll (args .date) ofInstant) ≠ some 1 ∧
      ls.loweredAt? "f" (Fragment.convertAll (args .time) ofTime) = some 0 := by
  intro ofTime ofInstant ls args
  have hdate : ls.typedAt? "f" [.date] = some 1 := by decide
  have htime : ls.typedAt? "f" [.time] = some 0 := by decide
  refine ⟨⟨hdate, htime⟩, fun h => ?_, ?_⟩
  · obtain ⟨-, hbefore⟩ := (loweredAt?_eq_typedAt?_iff rfl hdate rfl rfl).1.mp h
    exact Bool.noConfusion (hbefore 0 Nat.one_pos _ rfl)
  · exact (loweredAt?_eq_typedAt?_iff rfl htime rfl rfl).2.2.1 rfl

end Libraries

end Feel
