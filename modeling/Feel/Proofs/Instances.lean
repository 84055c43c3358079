import Feel.Proofs.Conversions

/-!
# Instances and their types

An instance of a type has a type of its own, which converts to the type in all but one respect: a
range is an instance whatever its brackets are, while a range type with brackets is reached from
types with the same brackets only.

* `Ty.bracketsMet`: a type has the brackets that a target asks for.
* `Ty.bracketsFit`: a value has them.
* `Ty.Within`, `Ty.Within.join`: types of instances, which stay of this kind when joined.
* `Ty.Within.reaches_iff`, `Ty.Within.reaches`: when these types convert.
* `Ty.convertsTo_of_isInstance`: the types of instances convert where brackets agree.
-/

namespace Feel

namespace Ty

variable {κ : Type}

/-! ### Brackets -/

/-- The bracket that a range type asks for, if it asks for one. -/
def flagMet (expected actual : Option Bool) : Bool := expected.isNone || actual == expected

theorem flagMet_iff {expected actual : Option Bool} :
    flagMet expected actual = true ↔ expected = none ∨ actual = expected := by
  simp [flagMet, Option.isNone_iff_eq_none]

mutual

/-- Whether the ranges in a type have the brackets that the target asks for, wherever both types
have a range. It follows the target. -/
def bracketsMet : Ty → Ty → Bool
  | list b, source =>
    match source with
    | list a => bracketsMet b a
    | _ => true
  | context b, source =>
    match source with
    | context a => fieldsMet b a
    | _ => true
  | range b sb eb, source =>
    match source with
    | range a sa ea => flagMet sb sa && flagMet eb ea && bracketsMet b a
    | _ => true
  | _, _ => true

def fieldsMet : List (String × Ty) → List (String × Ty) → Bool
  | [], _ => true
  | (name, t) :: fields, source =>
    (match source.lookup name with
      | some u => bracketsMet t u
      | none => true) && fieldsMet fields source

end

theorem fieldsMet_iff {fields source : List (String × Ty)} :
    fieldsMet fields source = true ↔
      ∀ field ∈ fields, ∀ t, source.lookup field.1 = some t → field.2.bracketsMet t = true := by
  induction fields with
  | nil => simp [fieldsMet]
  | cons field fields ih =>
    rw [fieldsMet, Bool.and_eq_true, ih, List.forall_mem_cons]
    refine and_congr_left fun _ => ?_
    cases source.lookup field.1 <;> simp

mutual

/-- Whether the ranges in a value have the brackets that a type asks for there. -/
def bracketsFit : Ty → Datum κ → Bool
  | list element, v =>
    match v with
    | .list items => items.all (bracketsFit element)
    | _ => true
  | context fields, v =>
    match v with
    | .context entries => entriesFit fields entries
    | _ => true
  | range element si ei, v =>
    match v with
    | .range start finish s e =>
      flagMet si (some s) && flagMet ei (some e) &&
        (start.all (bracketsFit element) && finish.all (bracketsFit element))
    | _ => true
  | _, _ => true

def entriesFit : List (String × Ty) → List (String × Datum κ) → Bool
  | [], _ => true
  | (name, t) :: fields, entries =>
    (match entries.lookup name with
      | some v => bracketsFit t v
      | none => true) && entriesFit fields entries

end

theorem entriesFit_iff {fields : List (String × Ty)} {entries : List (String × Datum κ)} :
    entriesFit fields entries = true ↔
      ∀ field ∈ fields, ∀ v, entries.lookup field.1 = some v → field.2.bracketsFit v = true := by
  induction fields with
  | nil => simp [entriesFit]
  | cons field fields ih =>
    rw [entriesFit, Bool.and_eq_true, ih, List.forall_mem_cons]
    refine and_congr_left fun _ => ?_
    cases entries.lookup field.1 <;> simp

/-! ### Types of instances -/

/-- The types that instances of a target have, and what these join to. Ranges have the brackets
that the target asks for if they have to. -/
inductive Within (strict : Prop) : Ty → Ty → Prop
  | target (t : Ty) : Within strict t any
  /-- Elements without a type of their own. -/
  | any (t : Ty) : Within strict any t
  | null (t : Ty) : Within strict null t
  | number (i j : NumberKind) : Within strict (number i) (number j)
  | string : Within strict string string
  | boolean : Within strict boolean boolean
  | date : Within strict date date
  | time : Within strict time time
  | dateTime : Within strict dateTime dateTime
  | dayTimeDuration : Within strict dayTimeDuration dayTimeDuration
  | yearMonthDuration : Within strict yearMonthDuration yearMonthDuration
  | list {a b : Ty} (h : Within strict a b) : Within strict (list a) (list b)
  | context {a b : List (String × Ty)} (hfields : ∀ field ∈ b, (a.lookup field.1).isSome)
      (h : ∀ field ∈ b, ∀ t, a.lookup field.1 = some t → Within strict t field.2) :
      Within strict (context a) (context b)
  | range {a b : Ty} {sa ea sb eb : Option Bool} (hs : strict → flagMet sb sa = true)
      (he : strict → flagMet eb ea = true) (h : Within strict a b) :
      Within strict (range a sa ea) (range b sb eb)

variable {strict : Prop} {s t T : Ty}

theorem flagMet_agreed {expected a b : Option Bool} (ha : flagMet expected a = true)
    (hb : flagMet expected b = true) : flagMet expected (agreed a b) = true := by
  rw [flagMet_iff] at ha hb ⊢
  rcases ha with h | rfl
  · exact .inl h
  · rcases hb with h | rfl
    · exact .inl h
    · exact .inr (if_pos rfl)

/-- Types of instances join to such a type. -/
theorem Within.join (hs : s.Distinct) (h : Within strict s T) (h' : Within strict t T) :
    Within strict (s.join t) T := by
  induction h generalizing t with
  | target _ => exact .target _
  | any _ =>
    rw [any_join]
    exact .any _
  | null _ =>
    rw [null_join]
    exact h'
  | number i j =>
    cases h' with
    | any => rw [join_any]; exact .any _
    | null => rw [join_null]; exact .number i j
    | number i' _ =>
      simp only [Ty.join]
      split <;> exact .number _ _
  | @list a b h ih =>
    cases hs with
    | list ha =>
      cases h' with
      | any => rw [join_any]; exact .any _
      | null => rw [join_null]; exact .list h
      | list h' =>
        rw [list_join_list]
        exact .list (ih ha h')
  | @context a b hfields h ih =>
    cases hs with
    | context hna ha =>
      cases h' with
      | any => rw [join_any]; exact .any _
      | null => rw [join_null]; exact .context hfields h
      | @context a' _ hfields' h' =>
        obtain ⟨c, hc, joined⟩ := exists_joined (b := a') hna
        rw [hc]
        have hlookup : ∀ field ∈ b, ∃ t t', a.lookup field.1 = some t ∧
            a'.lookup field.1 = some t' ∧ c.lookup field.1 = some (t.join t') := by
          intro field hfield
          obtain ⟨t, ht⟩ := Option.isSome_iff_exists.mp (hfields field hfield)
          obtain ⟨t', ht'⟩ := Option.isSome_iff_exists.mp (hfields' field hfield)
          exact ⟨t, t', ht, ht', by rw [joined.lookup, ht, ht']; rfl⟩
        refine .context (fun field hfield => ?_) fun field hfield u hu => ?_
        · obtain ⟨t, t', -, -, hjoin⟩ := hlookup field hfield
          exact Option.isSome_iff_exists.mpr ⟨_, hjoin⟩
        · obtain ⟨t, t', ht, ht', hjoin⟩ := hlookup field hfield
          obtain rfl : t.join t' = u := Option.some.inj (hjoin.symm.trans hu)
          exact ih field hfield t ht (ha (field.1, t) (mem_of_lookup ht)) (h' field hfield t' ht')
  | range hsa hea h ih =>
    cases hs with
    | range ha =>
      cases h' with
      | any => rw [join_any]; exact .any _
      | null => rw [join_null]; exact .range hsa hea h
      | range hsa' hea' h' =>
        rw [range_join_range]
        exact .range (fun hstrict => flagMet_agreed (hsa hstrict) (hsa' hstrict))
          (fun hstrict => flagMet_agreed (hea hstrict) (hea' hstrict)) (ih ha h')
  | _ =>
    cases h' with
    | any => rw [join_any]; exact .any _
    | null => rw [join_null]; constructor
    | _ => rw [join_self]; constructor

/-- The types of instances convert where their brackets are those that the target asks for. -/
theorem Within.reaches_iff (h : Within strict s T) :
    Reaches 4 s T ↔ T.bracketsMet s = true := by
  induction h with
  | target t => exact iff_of_true (.any (by omega) t) rfl
  | any t => exact iff_of_true (.runtime (by omega) t) (by cases t <;> rfl)
  | null t => exact iff_of_true (.null (by omega) t) (by cases t <;> rfl)
  | number i j => exact iff_of_true (.number NumberKind.rank_compat_le_four) rfl
  | list h ih =>
    rw [bracketsMet, ← ih]
    constructor
    · rintro (_ | _)
      assumption
    · exact fun h => .list h
  | @context a b hfields h ih =>
    rw [bracketsMet, fieldsMet_iff]
    constructor
    · intro hreaches field hfield t ht
      cases hreaches with
      | context _ _ hreaches => exact (ih field hfield t ht).mp (hreaches field hfield t ht)
    · intro hmet
      exact .context (by omega) hfields fun field hfield t ht =>
        (ih field hfield t ht).mpr (hmet field hfield t ht)
  | range hs he h ih =>
    rw [bracketsMet, Bool.and_eq_true, Bool.and_eq_true, flagMet_iff, flagMet_iff, ← ih]
    constructor
    · rintro (_ | _)
      exact ⟨⟨‹_›, ‹_›⟩, ‹_›⟩
    · rintro ⟨⟨hs, he⟩, h⟩
      exact .range hs he (by omega) h
  | _ => exact iff_of_true (by constructor) rfl

theorem Within.bracketsMet (h : Within True s T) : T.bracketsMet s = true := by
  induction h with
  | any t => cases t <;> rfl
  | null t => cases t <;> rfl
  | list h ih => exact ih
  | context hfields h ih => exact fieldsMet_iff.mpr ih
  | range hs he h ih =>
    rw [Ty.bracketsMet, hs trivial, he trivial, ih]
    rfl
  | _ => rfl

/-! ### Instances -/

/-- The types of instances stay within the target when all of them are joined. -/
theorem within_joinAll {ts : List Ty} (hts : ∀ t ∈ ts, t.Distinct)
    (h : ∀ t ∈ ts, Within strict t T) : Within strict (joinAll ts) T := by
  by_cases hnil : ts = []
  · rw [hnil]
    exact .any T
  · rw [joinAll_eq_foldl hnil]
    have hfold : (ts.foldl Ty.join Ty.null).Distinct ∧
        Within strict (ts.foldl Ty.join Ty.null) T :=
      List.foldlRecOn (motive := fun s => s.Distinct ∧ Within strict s T) ts Ty.join
        ⟨.null, .null T⟩ fun s hs t ht => ⟨hs.1.join (hts t ht), hs.2.join hs.1 (h t ht)⟩
    exact hfold.2

variable {v : Datum κ}

/-- A value without parts is an instance of the types that its own type conforms to. -/
theorem reaches_of_isInstance (h : T.isInstance v = true) (hT : T.Distinct)
    (hv : v.type.Distinct) (hlist : ∀ items, v ≠ .list items)
    (hcontext : ∀ entries, v ≠ .context entries)
    (hrange : ∀ start finish si ei, v ≠ .range start finish si ei) : Reaches 1 v.type T := by
  have hconforms : T = .any ∨ v.type.conformsTo T = true := by
    unfold isInstance at h
    split at h
    · exact .inl rfl
    · cases v with
      | null => exact .inr rfl
      | _ => exact .inr h
    · cases v with
      | list items => exact absurd rfl (hlist items)
      | _ => exact .inr (Bool.and_eq_true_iff.mp h).2
    · cases v with
      | context entries => exact absurd rfl (hcontext entries)
      | _ => exact .inr (Bool.and_eq_true_iff.mp h).2
    · cases v with
      | range start finish si ei => exact absurd rfl (hrange start finish si ei)
      | _ => exact .inr (Bool.and_eq_true_iff.mp h).2
    · exact .inr (Bool.and_eq_true_iff.mp h).2
  rcases hconforms with rfl | hconforms
  · exact .any (Nat.le_refl 1) _
  · exact (conformsTo_iff hv hT).mp hconforms

/-- The type of an instance is within the target. -/
theorem within_of_isInstance (hT : T.Distinct) (hplain : v.Plain) (hkeyed : v.Keyed)
    (h : T.isInstance v = true) (hfit : strict → T.bracketsFit v = true) :
    Within strict v.type T := by
  induction hplain generalizing T with
  | @list items hitems ih =>
    cases hkeyed with
    | list hkeyed =>
      rw [Datum.type_list]
      cases hT with
      | any => exact .target _
      | @list element helement =>
        rw [isInstance, List.all_eq_true] at h
        simp only [bracketsFit, List.all_eq_true] at hfit
        refine .list (within_joinAll (fun t ht => ?_) fun t ht => ?_)
        · obtain ⟨v, hv, rfl⟩ := List.mem_map.mp ht
          exact Datum.type_distinct (hitems v hv) (hkeyed v hv)
        · obtain ⟨v, hv, rfl⟩ := List.mem_map.mp ht
          exact ih v hv helement (hkeyed v hv) (h v hv) fun hstrict => hfit hstrict v hv
      | _ => simp [isInstance, Datum.type_list, conformsTo, compat, compatTo, Compat.isConforming,
          Datum.isNull] at h
  | @context entries hentries ih =>
    cases hkeyed with
    | context names hkeyed =>
      cases hT with
      | any => exact .target _
      | @context fields hnames hfields =>
        rw [isInstance, areInstances_iff] at h
        simp only [bracketsFit, entriesFit_iff] at hfit
        rw [Datum.type]
        refine .context (fun field hfield => ?_) fun field hfield t ht => ?_
        · obtain ⟨v, hv, -⟩ := h field hfield
          rw [Datum.lookup_entryTypes, hv]
          rfl
        · obtain ⟨v, hv, hinstance⟩ := h field hfield
          rw [Datum.lookup_entryTypes, hv] at ht
          obtain rfl : v.type = t := Option.some.inj ht
          have hmem := mem_of_lookup hv
          exact ih _ hmem (hfields field hfield) (hkeyed _ hmem) hinstance
            fun hstrict => hfit hstrict field hfield v hv
      | _ => simp [isInstance, Datum.type, conformsTo, compat, compatTo, Compat.isConforming,
          Datum.isNull] at h
  | @range start finish si ei hs he ihs ihe =>
    cases hkeyed with
    | range hks hke =>
      cases hT with
      | any => exact .target _
      | range helement =>
        simp only [isInstance, Bool.and_eq_true] at h
        simp only [bracketsFit, Bool.and_eq_true] at hfit
        rw [Datum.type]
        refine .range (fun hstrict => (hfit hstrict).1.1) (fun hstrict => (hfit hstrict).1.2) ?_
        -- the type of a range is that of the first bound it has
        cases start with
        | some v =>
          exact ihs v rfl helement (hks v rfl) h.1 fun hstrict => (hfit hstrict).2.1
        | none =>
          cases finish with
          | some v => exact ihe v rfl helement (hke v rfl) h.2 fun hstrict => (hfit hstrict).2.2
          | none => exact .any _
      | _ => simp [isInstance, Datum.type, conformsTo, compat, compatTo, Compat.isConforming,
          Datum.isNull] at h
  | null => exact .null _
  | _ =>
    have hreaches := reaches_of_isInstance h hT (by constructor) (by simp) (by simp) (by simp)
    rw [Datum.type] at hreaches ⊢
    cases hreaches <;> first | exact absurd ‹_› (by decide : ¬ _ ≤ 1) | constructor

/-- **The types of instances convert where brackets agree.** The type of an instance of a type
converts to the type exactly if the two have the same brackets wherever the target asks for
brackets and both have a range. So it does if the ranges in the value have these brackets, which
instances need not. -/
theorem convertsTo_of_isInstance (hT : T.Distinct) (hplain : v.Plain) (hkeyed : v.Keyed)
    (h : T.isInstance v = true) :
    (v.type.convertsTo T = true ↔ T.bracketsMet v.type = true) ∧
      (T.bracketsFit v = true → v.type.convertsTo T = true) := by
  have hconverts := convertsTo_iff (Datum.type_distinct hplain hkeyed) hT
  refine ⟨?_, fun hfit => ?_⟩
  · have hwithin : Within False v.type T := within_of_isInstance hT hplain hkeyed h nofun
    rw [hconverts]
    exact hwithin.reaches_iff
  · have hwithin : Within True v.type T := within_of_isInstance hT hplain hkeyed h fun _ => hfit
    exact hconverts.mpr (hwithin.reaches_iff.mpr hwithin.bracketsMet)

/-- An open range is an instance of a type of closed ranges, and its type does not convert to it;
lists of ranges that are closed at their start convert, whatever they are at their end. -/
theorem convertsTo_of_isInstance_open :
    let T := range (number .number) (some true) (some true)
    let v : Value := .range (some (.int 1)) (some (.int 2)) false false
    let U := list (range (number .number) (some true) none)
    let w : Value := .list [.range (some (.int 1)) none true false,
      .range none (some (.long 2)) true true]
    (T.Distinct ∧ v.Plain ∧ v.Keyed ∧ T.isInstance v = true ∧ v.type.convertsTo T = false ∧
      T.bracketsMet v.type = false) ∧
      U.Distinct ∧ w.Plain ∧ w.Keyed ∧ U.isInstance w = true ∧ w.type.convertsTo U = true := by
  intro T v U w
  have hT : T.Distinct := .range (.number _)
  have hv : v.Plain := .range (by rintro _ ⟨⟩; exact .number _) (by rintro _ ⟨⟩; exact .number _)
  have hkeyed : v.Keyed :=
    .range (by rintro _ ⟨⟩; exact .number _) (by rintro _ ⟨⟩; exact .number _)
  have hinstance : T.isInstance v = true := by decide +kernel
  have hbrackets : T.bracketsMet v.type = false := by decide +kernel
  have hopen := (convertsTo_of_isInstance hT hv hkeyed hinstance).1
  have hU : U.Distinct := .list (.range (.number _))
  have hw : w.Plain := by
    refine .list ?_
    rw [List.forall_mem_cons, List.forall_mem_singleton]
    exact ⟨.range (by rintro _ ⟨⟩; exact .number _) nofun,
      .range nofun (by rintro _ ⟨⟩; exact .number _)⟩
  have hkeyed' : w.Keyed := by
    refine .list ?_
    rw [List.forall_mem_cons, List.forall_mem_singleton]
    exact ⟨.range (by rintro _ ⟨⟩; exact .number _) nofun,
      .range nofun (by rintro _ ⟨⟩; exact .number _)⟩
  have hinstance' : U.isInstance w = true := by decide +kernel
  refine ⟨⟨hT, hv, hkeyed, hinstance, ?_, hbrackets⟩, hU, hw, hkeyed', hinstance', ?_⟩
  · rw [hbrackets] at hopen
    simpa using hopen
  · exact (convertsTo_of_isInstance hU hw hkeyed' hinstance').2 (by decide +kernel)

end Ty

end Feel
