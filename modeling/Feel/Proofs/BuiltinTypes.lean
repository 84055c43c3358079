import Feel.Builtin.Apply
import Feel.Builtin.Signature
import Feel.Proofs.OperatorTypes

/-!
# The types of built-in functions

Every overload of a built-in function has one result type, and what the function gives fits it
whatever the arguments are. The absolute value is the exception: it takes durations too, and
gives numbers only for numbers. The functions whose result follows their arguments give items
that they were given.

* `Builtin.result`, `Builtin.result?_of_mem_overloads`: the result of a built-in function.
* `Builtin.value_fits`: what a built-in function gives fits its result.
* `Builtin.resultAt`: the result of a call with arguments of some types.
* `Builtin.apply_meets`: what a call gives fits its result, for arguments with two types each.
-/

namespace Feel

/-! ### Built-in functions -/

namespace Fits

/-- A list whose items are numbers. -/
theorem numbers {vs : List Value} (h : ∀ v ∈ vs, ∃ n, v = .number n) (k : NumberKind) :
    Fits (.list vs) (.list (.number k)) := by
  refine .list fun v hv => ?_
  obtain ⟨n, rfl⟩ := h v hv
  exact .number n k

theorem anyList (vs : List Value) : Fits (.list vs) (.list .any) := .list fun v _ => .any v

end Fits

namespace Builtin

variable {t : Ty} {args : List Value}

theorem onText_fits {f : String → Value} (h : ∀ s, Fits (f s) t) : Fits (onText args f) t := by
  unfold onText
  split
  · exact h _
  · exact .null t

theorem onTexts_fits {f : String → String → Value} (h : ∀ s s', Fits (f s s') t) :
    Fits (onTexts args f) t := by
  unfold onTexts
  split
  · exact h _ _
  · exact .null t

theorem onList_fits {f : List Value → Value} (h : ∀ vs, Fits (f vs) t) :
    Fits (onList args f) t := by
  unfold onList
  split
  · exact h _
  · exact .null t

theorem onDate_fits {f : Date → Value} (h : ∀ d, Fits (f d) t) : Fits (onDate args f) t := by
  unfold onDate
  split
  · exact h _
  · exact h _
  · exact .null t

theorem map_getD_fits {α : Type} {o : Option α} {f : α → Value} (h : ∀ a, Fits (f a) t) :
    Fits ((o.map f).getD .null) t := by
  cases o with
  | none => exact .null t
  | some a => exact h a

/-! ### Sorted numbers -/

theorem mem_of_insertDown? {before? : Before?} {v : Value} {ws out : List Value}
    (h : insertDown? before? v ws = some out) {x : Value} (hx : x ∈ out) : x = v ∨ x ∈ ws := by
  induction ws generalizing out with
  | nil =>
    rw [insertDown?, Option.some.injEq] at h
    rw [← h] at hx
    exact .inl (List.mem_singleton.mp hx)
  | cons w ws ih =>
    rw [insertDown?] at h
    obtain ⟨b, -, h⟩ := Option.bind_eq_some_iff.mp h
    cases b with
    | true =>
      rw [if_pos rfl] at h
      obtain ⟨rest, hrest, h⟩ := Option.bind_eq_some_iff.mp h
      cases h
      rcases List.mem_cons.mp hx with rfl | hx
      · simp
      · rcases ih hrest hx with h | h <;> simp [h]
    | false =>
      rw [if_neg Bool.false_ne_true] at h
      cases h
      simpa using hx

theorem mem_of_foldlM_insertDown? {before? : Before?} {vs sorted out : List Value}
    (h : vs.foldlM (fun sorted v => insertDown? before? v sorted) sorted = some out) {x : Value}
    (hx : x ∈ out) : x ∈ vs ∨ x ∈ sorted := by
  induction vs generalizing sorted with
  | nil =>
    rw [List.foldlM_nil] at h
    cases h
    exact .inr hx
  | cons v vs ih =>
    rw [List.foldlM_cons] at h
    obtain ⟨next, hnext, h⟩ := Option.bind_eq_some_iff.mp h
    rcases ih h with hmem | hmem
    · simp [hmem]
    · rcases mem_of_insertDown? hnext hmem with h | h <;> simp [h]

/-- Sorting leaves the items that there were. -/
theorem mem_of_sortWith? {before? : Before?} {vs out : List Value}
    (h : sortWith? before? vs = some out) {x : Value} (hx : x ∈ out) : x ∈ vs := by
  unfold sortWith? at h
  split at h
  · obtain ⟨down, hdown, rfl⟩ := Option.map_eq_some_iff.mp h
    rcases mem_of_foldlM_insertDown? hdown (List.mem_reverse.mp hx) with h | h
    · exact h
    · simp at h
  · simp only [mergeSort?] at h
    split at h
    · cases h
      exact List.mem_mergeSort.mp hx
    · contradiction

theorem exists_number_of_sortedNumbers? {vs out : List Value} (h : sortedNumbers? vs = some out) :
    ∀ x ∈ out, ∃ n, x = .number n := by
  intro x hx
  unfold sortedNumbers? at h
  split at h
  · contradiction
  · next hall =>
    simp only [Bool.or_eq_true, not_or, Bool.not_eq_true, Bool.not_eq_false',
      List.all_eq_true] at hall
    have hsome := hall.2 x (mem_of_sortWith? h hx)
    cases x with
    | number n => exact ⟨n, rfl⟩
    | _ => simp [Datum.asNumber?] at hsome

/-! ### Aggregates -/

theorem foldl_arith_fits {op : Operator} {vs : List Value} {v : Value} {k : NumberKind}
    (h : Fits v (.number k)) :
    Fits (vs.foldl (fun acc v => acc.arith op v .native Number.defaultPrecision) v)
      (.number k) := by
  induction vs generalizing v with
  | nil => exact h
  | cons w ws ih => exact ih (.arith op v w .native _ k)

theorem total_fits (op : Operator) (vs : List Value) (k : NumberKind) :
    Fits (total op vs) (.number k) := by
  unfold total
  split
  · next hall =>
    cases vs with
    | nil => exact .null _
    | cons v vs =>
      refine foldl_arith_fits ?_
      have hsome := List.all_eq_true.mp hall v List.mem_cons_self
      cases v with
      | number n => exact .number n k
      | _ => simp [Datum.asNumber?] at hsome
  · exact .null _

theorem meanOf_fits (vs : List Value) (precision : Nat) (k : NumberKind) :
    Fits (meanOf vs precision) (.number k) := by
  unfold meanOf
  split
  · exact .null _
  · exact .arith ..

theorem medianOf_fits (vs : List Value) (precision : Nat) (k : NumberKind) :
    Fits (medianOf vs precision) (.number k) := by
  unfold medianOf
  split
  · exact .null _
  · next sorted hsorted =>
    extract_lets mid
    split
    · rw [List.getD_eq_getElem?_getD]
      cases hget : sorted[mid]? with
      | none => exact .null _
      | some v =>
        obtain ⟨n, rfl⟩ := exists_number_of_sortedNumbers? hsorted v (List.mem_of_getElem? hget)
        exact .number n k
    · exact meanOf_fits _ precision k

theorem deviation_fits (vs : List Value) (k : NumberKind) : Fits (deviation vs) (.number k) := by
  unfold deviation
  split
  · exact .null _
  · extract_lets xs
    split
    · exact .null _
    · exact .ofNumber? _ k

theorem mem_of_runs_go {v : Value} {n : Nat} {ws : List Value} {r : Value × Nat}
    (h : r ∈ runs.go v n ws) : r.1 = v ∨ r.1 ∈ ws := by
  induction ws generalizing v n with
  | nil =>
    rw [runs.go, List.mem_singleton] at h
    exact .inl (by rw [h])
  | cons w ws ih =>
    rw [runs.go] at h
    split at h
    · rcases ih h with h | h <;> simp [h]
    · rcases List.mem_cons.mp h with rfl | h
      · simp
      · rcases ih h with h | h <;> simp [h]

theorem modes_fits (vs : List Value) (k : NumberKind) :
    Fits (modes vs) (.list (.number k)) := by
  unfold modes
  split
  · exact .null _
  · next sorted hsorted =>
    refine .numbers (fun v hv => ?_) k
    obtain ⟨r, hr, rfl⟩ := List.mem_map.mp hv
    have hmem := (List.mem_filter.mp hr).1
    cases sorted with
    | nil => simp [runs] at hmem
    | cons w ws =>
      refine exists_number_of_sortedNumbers? hsorted r.1 ?_
      rcases mem_of_runs_go hmem with h | h <;> simp [h]

theorem quantify_fits {op : Value → Value → Value} (hop : ∀ a b, Fits (op a b) .boolean)
    {acc : Value} (hacc : Fits acc .boolean) (vs : List Value) :
    Fits (quantify op acc vs) .boolean := by
  induction vs generalizing acc with
  | nil => exact hacc
  | cons v vs ih =>
    rw [quantify]
    split
    · exact ih (hop acc v)
    · exact .null _

theorem indexesOf_numbers (v : Value) (i : Nat) (ws : List Value) :
    ∀ x ∈ indexesOf v i ws, ∃ n, x = .number n := by
  induction ws generalizing i with
  | nil => simp [indexesOf]
  | cons w ws ih =>
    rw [indexesOf]
    split
    · intro x hx
      rcases List.mem_cons.mp hx with rfl | hx
      · exact ⟨_, rfl⟩
      · exact ih _ x hx
    · exact ih _

theorem sublist?_fits (o : Overflow) (vs : List Value) (position size : Value) :
    Fits ((sublist? o vs position size).getD .null) (.list .any) := by
  have hof : ∀ p n, Fits ((sublistOf? o vs p n).getD .null) (.list .any) := by
    refine fun p n => .getD fun v hv => ?_
    obtain ⟨start, -, hv⟩ := Option.bind_eq_some_iff.mp hv
    split at hv
    · cases hv
      exact .null _
    · obtain ⟨stop, -, hv⟩ := Option.bind_eq_some_iff.mp hv
      obtain ⟨items, -, rfl⟩ := Option.map_eq_some_iff.mp hv
      exact .anyList _
  unfold sublist?
  repeat' split
  all_goals first | exact .null _ | exact hof _ _

theorem relate_fits (rel : Interval → Interval → Option Bool) (a b : Value) :
    Fits (relate rel a b) .boolean := .ofBool? _

theorem relateRanges_fits (rel : Interval → Interval → Option Bool) (a b : Value) :
    Fits (relateRanges rel a b) .boolean := by
  unfold relateRanges
  split
  · exact relate_fits rel _ _
  · exact .null _

theorem entriesOf_fits (v : Value) :
    Fits (entriesOf v) (.list (.context [("key", .string), ("value", .any)])) := by
  unfold entriesOf
  split
  · refine .list fun x hx => ?_
    obtain ⟨e, -, rfl⟩ := List.mem_map.mp hx
    refine .context fun name t ht v hv => ?_
    simp only [List.mem_cons, Prod.mk.injEq, List.not_mem_nil, or_false] at ht
    rcases ht with ⟨rfl, rfl⟩ | ⟨rfl, rfl⟩
    · rw [List.lookup_cons_self, Option.some.injEq] at hv
      rw [← hv]
      exact .string _
    · exact .any v
  · exact .null _

/-! ### Results -/

/-- The result type of a built-in function, that of its first overload. -/
def result (f : Builtin) : Ty := (f.overloads.head?.bind Ty.result?).getD .any

/-- All overloads of a built-in function have the same result. -/
theorem result?_of_mem_overloads {f : Builtin} {t : Ty} (h : t ∈ f.overloads) :
    t.result? = some f.result := by
  have hall : ∀ t ∈ f.overloads, t.result? = some f.result := by
    cases f <;> decide +kernel
  exact hall t h

/-- What a built-in function other than the absolute value gives fits its result. -/
theorem value_fits {f : Builtin} (hf : f ≠ .abs) (args : List Value) (precision : Nat) :
    Fits (f.value args precision) f.result := by
  cases f with
  | abs => contradiction
  | date => exact map_getD_fits fun d => .date d
  | time => exact map_getD_fits fun t => .time t
  | dateAndTime => exact map_getD_fits fun t => .dateTime t
  | number => exact .ofNumber? _ _
  | string =>
    show Fits (if (Args.get args 0).isNull then .null else .string _) .string
    split <;> constructor
  | duration | min | max | getValue => exact .any _
  | yearsAndMonthsDuration =>
    show Fits (yearsAndMonths _ _) .yearMonthDuration
    unfold yearsAndMonths
    split <;> constructor
  | not => exact .not _
  | is => exact .boolean _
  | substring =>
    show Fits ((substring? .wraps args).getD .null) .string
    unfold substring?
    repeat' split
    all_goals first | exact .null _ | exact map_getD_fits fun s => .string _
  | stringLength => exact onText_fits fun s => .number _ _
  | upperCase | lowerCase => exact onText_fits fun s => .string _
  | substringBefore | substringAfter => exact onTexts_fits fun s s' => .string _
  | contains | startsWith | endsWith => exact onTexts_fits fun s s' => .boolean _
  | «matches» =>
    show Fits (matchesValue args) .boolean
    unfold matchesValue
    split <;> constructor
  | replace =>
    show Fits (replaceValue args) .string
    unfold replaceValue
    split <;> constructor
  | split =>
    show Fits (splitValue args) (.list .string)
    unfold splitValue
    split
    · exact .strings id _
    · exact .null _
  | listContains => exact onList_fits fun vs => .boolean _
  | count => exact onList_fits fun vs => .number _ _
  | sum => exact total_fits .add _ _
  | product => exact total_fits .mul _ _
  | mean => exact meanOf_fits _ _ _
  | median => exact medianOf_fits _ _ _
  | stddev => exact deviation_fits _ _
  | mode => exact modes_fits _ _
  | all => exact quantify_fits .and (.boolean _) _
  | any => exact quantify_fits .or (.boolean _) _
  | sublist => exact onList_fits fun vs => sublist?_fits .wraps vs _ _
  | append | reverse | distinctValues | flatten => exact onList_fits fun vs => .anyList _
  | concatenate | union => exact map_getD_fits fun vs => .anyList _
  | insertBefore =>
    refine onList_fits fun vs => ?_
    unfold insertBeforeValue
    split
    · exact .anyList _
    · exact .null _
  | remove =>
    refine onList_fits fun vs => ?_
    unfold removeValue
    repeat' split
    all_goals first | exact .null _ | exact .anyList _
  | indexOf => exact onList_fits fun vs => .numbers (indexesOf_numbers _ _ vs) _
  | sort =>
    refine onList_fits fun vs => ?_
    unfold sortNatural
    repeat' split
    all_goals first | exact .null _ | exact .anyList _
  | decimal | floor | ceiling =>
    show Fits (round args _ _) (.number .number)
    unfold round
    extract_lets scale?
    split <;> constructor
  | modulo =>
    show Fits (remainder _ _) (.number .number)
    unfold remainder
    repeat' split
    all_goals constructor
  | sqrt =>
    show Fits (squareRoot _) (.number .number)
    unfold squareRoot
    repeat' split
    all_goals constructor
  | log =>
    show Fits (logarithm _) (.number .number)
    unfold logarithm
    repeat' split
    all_goals first | exact .null _ | exact .ofNumber? _ _
  | exp =>
    show Fits (exponential _) (.number .number)
    unfold exponential
    split
    · exact .ofNumber? _ _
    · exact .null _
  | odd | even => exact .ofBool? _
  | before | after | finishes | finishedBy | starts | startedBy | coincides =>
    exact relate_fits _ _ _
  | meets | metBy | overlaps => exact relateRanges_fits _ _ _
  | dayOfYear | weekOfYear => exact onDate_fits fun d => .number _ _
  | dayOfWeek | monthOfYear => exact onDate_fits fun d => .string _
  | getEntries => exact entriesOf_fits _

/-- The absolute value of a number is a number. -/
theorem absolute_fits {v : Value} {k : NumberKind} (h : Fits v (.number k)) :
    Fits (absolute v) (.number k) := by
  cases h with
  | null => exact .null _
  | number => exact .number _ _

/-- The same for the whole of a call, where only sorting calls back. -/
theorem apply_fits {ε : Type} {f : Builtin} (hf : f ≠ .abs) {args : List Value}
    {precision : Nat} {invoke : FunctionValue → List Value → Except ε Value} {v : Value}
    (h : f.apply args precision invoke = .ok v) : Fits v f.result := by
  unfold apply at h
  split at h
  · unfold Except.map at h
    split at h
    · contradiction
    · cases h
      exact .anyList _
  · rw [Except.ok.injEq] at h
    rw [← h]
    exact value_fits hf args precision

/-! ### Signatures -/

/-- The result of a call with arguments of some types, any type where there is no signature. -/
def resultAt (f : Builtin) (types : List Ty) : Ty :=
  ((f.signature? types).bind Ty.result?).getD .any

/-- The overload that is chosen is one of the overloads. -/
theorem mem_of_resolve? {overloads args : List Ty} {t : Ty}
    (h : Ty.resolve? overloads args = some t) : t ∈ overloads := by
  unfold Ty.resolve? at h
  extract_lets step at h
  obtain ⟨best, hbest, rfl⟩ := Option.map_eq_some_iff.mp h
  -- the best so far is an overload seen before
  have hfold : ∀ (os : List Ty) (acc : Option ((Nat × Nat) × Ty)) (seen : List Ty),
      (∀ b, acc = some b → b.2 ∈ seen) → ∀ b, os.foldl step acc = some b → b.2 ∈ seen ++ os := by
    intro os
    induction os with
    | nil =>
      intro acc seen hacc b hb
      simpa using hacc b hb
    | cons o os ih =>
      intro acc seen hacc b hb
      rw [List.append_cons]
      refine ih (step acc o) (seen ++ [o]) (fun c hc => ?_) b hb
      simp only [step] at hc
      split at hc
      · exact List.mem_append_left _ (hacc c hc)
      · cases hc
        simp
      · split at hc
        · cases hc
          simp
        · exact List.mem_append_left _ (hacc c hc)
  simpa using hfold overloads none [] (by simp) best hbest

/-- The functions whose result does not follow the types of the arguments. -/
def hasFixedResult : Builtin → Bool
  | min | max | append | concatenate | union => false
  | _ => true

/-- The result of a call of such a function is the declared one, or any type. -/
theorem resultAt_of_fixed {f : Builtin} (hf : f.hasFixedResult = true) (types : List Ty) :
    f.resultAt types = f.result ∨ f.resultAt types = .any := by
  unfold resultAt
  cases hsig : f.signature? types with
  | none => exact .inr rfl
  | some t =>
    left
    have hresult : t.result? = some f.result := by
      unfold signature? at hsig
      split at hsig
      · next hvariadic =>
        unfold variadicSignature? at hsig
        split at hsig
        all_goals try contradiction
        next first rest _ _ =>
        split at hsig
        · unfold listSignature? at hsig
          obtain ⟨u, hu, rfl⟩ := Option.map_eq_some_iff.mp hsig
          have hmem := result?_of_mem_overloads (mem_of_resolve? hu)
          cases f <;> first | contradiction | exact hmem
        · cases hsig
          cases f <;> first | contradiction | rfl
      · exact result?_of_mem_overloads (mem_of_resolve? hsig)
    rw [Option.bind_some, hresult, Option.getD_some]

/-! ### Results that follow the arguments -/

/-- Some argument fits, so that it fits the join of all types. -/
theorem fits_foldl_of_mem {vs : List Value} {first : Ty} {rest : List Ty}
    (h : List.Forall₂ Fits vs (first :: rest)) {v : Value} (hv : v ∈ vs) :
    Fits v (rest.foldl Ty.join first) := by
  cases h with
  | @cons w _ ws _ hw hws =>
    rcases List.mem_cons.mp hv with rfl | hv
    · exact .foldl_join (.inl hw)
    · obtain ⟨i, hi, rfl⟩ := List.mem_iff_getElem.mp hv
      have hlen := hws.length_eq
      refine .foldl_join (.inr ⟨rest[i], List.getElem_mem _, ?_⟩)
      exact hws.get hi (hlen ▸ hi)

/-- The items of a list fit the element type. -/
theorem fits_item {items : List Value} {t : Ty} (h : Fits (.list items) t) {v : Value}
    (hv : v ∈ items) : Fits v t.elementType := by
  cases h with
  | any => exact .any v
  | list h => exact h v hv

theorem covers_args {vs : List Value} {f t : Ty} {fs ts : List Ty}
    (h : MeetsAll vs (f :: fs) (t :: ts)) :
    Covers vs (fs.foldl Ty.join f) (ts.foldl Ty.join t) := by
  cases h with
  | @cons v _ _ vs _ _ hv hvs =>
    exact Covers.foldl_join (.of_agree (List.mem_singleton_self v) hv.agree) hvs

/-- The result of `min` and `max`: of one list that of its elements, else the join of all. -/
theorem resultAt_extreme {f : Builtin} (hf : f = .min ∨ f = .max) (first : Ty) (rest : List Ty) :
    f.resultAt (first :: rest) = .any ∨ f.resultAt (first :: rest) =
      if rest.isEmpty && first.isList then first.elementType else rest.foldl Ty.join first := by
  by_cases hlist : (rest.isEmpty && first.isList) = true
  · have hsig : f.signature? (first :: rest) = f.listSignature? first := by
      rcases hf with rfl | rfl
      · exact if_pos hlist
      · exact if_pos hlist
    rw [resultAt, hsig, listSignature?, if_pos hlist]
    cases hresolve : Ty.resolve? f.overloads [first] with
    | none => exact .inl rfl
    | some t =>
      have hmem := mem_of_resolve? hresolve
      rcases hf with rfl | rfl <;> rw [List.mem_singleton.mp hmem] <;> exact .inr rfl
  · right
    have hsig : f.signature? (first :: rest) =
        some (.function (first :: rest) none (rest.foldl Ty.join first)) := by
      rcases hf with rfl | rfl
      · exact if_neg hlist
      · exact if_neg hlist
    rw [resultAt, hsig, if_neg hlist]
    rfl

/-- Arguments that are not one list are the items themselves. -/
theorem items_eq_self {vs : List Value} {first : Ty} {rest : List Ty}
    (h : List.Forall₂ Fits vs (first :: rest)) (hlist : (rest.isEmpty && first.isList) = false)
    (hany : rest.foldl Ty.join first ≠ .any) : Args.items vs = vs := by
  unfold Args.items
  split
  · next items =>
    cases h with
    | cons hfirst hrest =>
      cases hrest
      cases hfirst with
      | any => simp at hany
      | list => simp [Ty.isList] at hlist
  · rfl

/-- The least or greatest of the arguments fits the result. -/
theorem extreme_fits {f : Builtin} (hf : f = .min ∨ f = .max) (wanted : Ordering)
    {vs : List Value} {ts : List Ty} (h : List.Forall₂ Fits vs ts) :
    Fits (extreme wanted (Args.items vs)) (f.resultAt ts) := by
  cases ts with
  | nil =>
    cases h
    exact .null _
  | cons first rest =>
    rcases resultAt_extreme hf first rest with hany | hresult
    · rw [hany]
      exact .any _
    rw [hresult]
    cases hlist : rest.isEmpty && first.isList with
    | true =>
      rw [if_pos rfl]
      rw [Bool.and_eq_true, List.isEmpty_iff] at hlist
      obtain ⟨rfl, hfirst⟩ := hlist
      cases h with
      | @cons v _ _ _ hv hvs =>
        cases hvs
        cases v with
        | list items =>
          rcases extreme_mem wanted items with hnull | hmem
          · show Fits (extreme wanted items) _
            rw [hnull]
            exact .null _
          · exact fits_item hv hmem
        | null => exact .null _
        | _ => cases hv <;> simp [Ty.isList] at hfirst
    | false =>
      rw [if_neg Bool.false_ne_true]
      by_cases hany : rest.foldl Ty.join first = .any
      · rw [hany]
        exact .any _
      · rw [items_eq_self h hlist hany]
        rcases extreme_mem wanted vs with hnull | hmem
        · rw [hnull]
          exact .null _
        · exact fits_foldl_of_mem h hmem

/-- The two results of `min` and `max` agree, unless the lowered one is any type. -/
theorem extreme_agree {f : Builtin} (hf : f = .min ∨ f = .max) (wanted : Ordering)
    {vs : List Value} {fs ts : List Ty} (h : MeetsAll vs fs ts) :
    f.resultAt fs = .any ∨
      Agree (extreme wanted (Args.items vs)) (f.resultAt fs) (f.resultAt ts) := by
  cases h with
  | nil => exact .inr (.null _ _)
  | @cons v low high rest lows highs hv hrest =>
    rcases resultAt_extreme hf low lows with hany | hlow
    · exact .inl hany
    right
    rcases resultAt_extreme hf high highs with hany | hhigh
    · rw [hany]
      exact .any _ _
    rw [hlow, hhigh]
    cases hrest with
    | cons hw hws =>
      -- several arguments are the items
      have hitems : ∀ (a b : Value) (vs : List Value), Args.items (a :: b :: vs) = a :: b :: vs :=
        fun a b vs => by cases a <;> rfl
      rw [hitems]
      exact (covers_args (.cons hv (.cons hw hws))).extreme wanted
    | nil =>
      -- a single argument that differs in its types is null, or a list both times
      rcases hv.agree.cases with rfl | rfl | rfl | ⟨a, b, rfl, rfl⟩
      · exact .null _ _
      · exact .any _ _
      · exact .same _ _
      · cases v with
        | list items => exact (Covers.items hv.agree hv.lowered).extreme wanted
        | null => exact .null _ _
        | _ => cases hv.lowered

/-- The result of `append`: the element type of the first list joined with the other types. -/
theorem resultAt_append (first : Ty) (rest : List Ty) :
    append.resultAt (first :: rest) = .any ∨
      append.resultAt (first :: rest) = .list (rest.foldl Ty.join first.elementType) := by
  cases hfirst : first.isList || first.isAny with
  | true =>
    right
    show ((if (first.isList || first.isAny) = true then _ else none : Option Ty).bind _).getD _ = _
    rw [hfirst]
    rfl
  | false =>
    left
    show ((if (first.isList || first.isAny) = true then _ else none : Option Ty).bind _).getD _ = _
    rw [hfirst]
    rfl

/-- A list with more items fits the result of `append`. -/
theorem append_fits {vs : List Value} {ts : List Ty} (h : List.Forall₂ Fits vs ts) :
    Fits (onList vs fun items => .list (items ++ vs.tail)) (append.resultAt ts) := by
  cases h with
  | nil => exact .null _
  | @cons v first rest types hv hrest =>
    rcases resultAt_append first types with hany | hresult
    · rw [hany]
      exact .any _
    rw [hresult]
    cases v with
    | list items =>
      refine .list fun x hx => ?_
      rcases List.mem_append.mp hx with hx | hx
      · exact .foldl_join (.inl (fits_item hv hx))
      · exact fits_foldl_of_mem (.cons (.null _) hrest) (List.mem_cons_of_mem .null hx)
    | _ => exact .null _

/-- The two results of `append` agree, unless the lowered one is any type. -/
theorem append_agree {vs : List Value} {fs ts : List Ty} (h : MeetsAll vs fs ts) :
    append.resultAt fs = .any ∨ Agree (onList vs fun items => .list (items ++ vs.tail))
      (append.resultAt fs) (append.resultAt ts) := by
  cases h with
  | nil => exact .inr (.null _ _)
  | @cons v low high rest lows highs hv hrest =>
    rcases resultAt_append low lows with hany | hlow
    · exact .inl hany
    right
    rcases resultAt_append high highs with hany | hhigh
    · rw [hany]
      exact .any _ _
    rw [hlow, hhigh]
    cases v with
    | list items =>
      exact (Covers.foldl_join (Covers.items hv.agree hv.lowered) hrest).list
    | _ => exact .null _ _

/-- The items of lists that are joined are those of the lists. -/
theorem mem_of_joined? {args vs : List Value} (h : joined? args = some vs) :
    (∀ x ∈ vs, ∃ items, .list items ∈ args ∧ x ∈ items) ∧
      (∀ a ∈ args, ∃ items, a = .list items ∧ ∀ x ∈ items, x ∈ vs) := by
  induction args generalizing vs with
  | nil =>
    rw [joined?, Option.some.injEq] at h
    simp [← h]
  | cons a rest ih =>
    cases a with
    | list items =>
      rw [joined?] at h
      obtain ⟨tail, htail, rfl⟩ := Option.map_eq_some_iff.mp h
      obtain ⟨hfrom, hto⟩ := ih htail
      constructor
      · intro x hx
        rcases List.mem_append.mp hx with hx | hx
        · exact ⟨items, List.mem_cons_self, hx⟩
        · obtain ⟨others, hmem, hx⟩ := hfrom x hx
          exact ⟨others, List.mem_cons_of_mem _ hmem, hx⟩
      · intro b hb
        rcases List.mem_cons.mp hb with rfl | hb
        · exact ⟨items, rfl, fun x hx => List.mem_append_left _ hx⟩
        · obtain ⟨others, rfl, hmem⟩ := hto b hb
          exact ⟨others, rfl, fun x hx => List.mem_append_right _ (hmem x hx)⟩
    | _ => simp [joined?] at h

/-- The result of `concatenate` and `union`: of one list a list of anything, else the elements
of the join of all types. -/
theorem resultAt_joined {f : Builtin} (hf : f = .concatenate ∨ f = .union) (first : Ty)
    (rest : List Ty) :
    f.resultAt (first :: rest) = .any ∨
      (rest.isEmpty && first.isList) = true ∧ f.resultAt (first :: rest) = .list .any ∨
      (rest.isEmpty && first.isList) = false ∧
        f.resultAt (first :: rest) = .list (rest.foldl Ty.join first).elementType := by
  by_cases hlist : (rest.isEmpty && first.isList) = true
  · have hsig : f.signature? (first :: rest) = f.listSignature? first := by
      rcases hf with rfl | rfl
      · exact if_pos hlist
      · exact if_pos hlist
    rw [resultAt, hsig, listSignature?]
    cases hresolve : Ty.resolve? f.overloads [first] with
    | none => exact .inl rfl
    | some t =>
      have hmem := mem_of_resolve? hresolve
      refine .inr (.inl ⟨hlist, ?_⟩)
      rcases hf with rfl | rfl <;> rw [List.mem_singleton.mp hmem] <;> rfl
  · have hsig : f.signature? (first :: rest) =
        some (.function (first :: rest) none (.list (rest.foldl Ty.join first).elementType)) := by
      rcases hf with rfl | rfl
      · exact if_neg hlist
      · exact if_neg hlist
    rw [resultAt, hsig]
    exact .inr (.inr ⟨Bool.eq_false_iff.mpr hlist, rfl⟩)

/-- The items of joined lists fit the result of `concatenate` and `union`. -/
theorem joined_fits {f : Builtin} (hf : f = .concatenate ∨ f = .union) {vs items : List Value}
    {ts : List Ty} (h : List.Forall₂ Fits vs ts)
    (hitems : ∀ x ∈ items, ∃ xs, .list xs ∈ vs ∧ x ∈ xs) :
    Fits (.list items) (f.resultAt ts) := by
  cases ts with
  | nil =>
    cases h
    rcases hf with rfl | rfl <;> exact .any _
  | cons first rest =>
    rcases resultAt_joined hf first rest with hany | ⟨-, hany⟩ | ⟨-, hresult⟩
    · rw [hany]
      exact .any _
    · rw [hany]
      exact .anyList _
    · rw [hresult]
      refine .list fun x hx => ?_
      obtain ⟨xs, hxs, hx⟩ := hitems x hx
      exact fits_item (fits_foldl_of_mem h hxs) hx

/-- The two results of `concatenate` agree, unless the lowered one is any type. -/
theorem joined_covers {f : Builtin} (hf : f = .concatenate ∨ f = .union)
    {vs items : List Value} {fs ts : List Ty} (h : MeetsAll vs fs ts)
    (hitems : joined? vs = some items) :
    f.resultAt fs = .any ∨ f.resultAt ts = .any ∨ ∃ a b, f.resultAt fs = .list a ∧
      f.resultAt ts = .list b ∧ Covers items a b := by
  cases h with
  | nil => rcases hf with rfl | rfl <;> exact .inl rfl
  | @cons v low high rest lows highs hv hrest =>
    have hcovers := covers_args (.cons hv hrest)
    have helements : Covers items (lows.foldl Ty.join low).elementType
        (highs.foldl Ty.join high).elementType := by
      rcases hcovers with heq | hany | ⟨x, hx, hagree⟩
      · rw [heq]
        exact .inl rfl
      · rw [hany]
        exact .inr (.inl rfl)
      · obtain ⟨xs, rfl, hsub⟩ := (mem_of_joined? hitems).2 x hx
        have hfits := fits_foldl_of_mem (MeetsAll.lowered (.cons hv hrest)) hx
        rcases Covers.items hagree hfits with heq | hany | ⟨y, hy, hagree⟩
        · exact .inl heq
        · exact .inr (.inl hany)
        · exact .of_agree (hsub y hy) hagree
    rcases resultAt_joined hf low lows with hlow | ⟨hlist, hlow⟩ | ⟨hloose, hlow⟩
    · exact .inl hlow
    · rcases resultAt_joined hf high highs with hhigh | ⟨-, hhigh⟩ | ⟨hloose, hhigh⟩
      · exact .inr (.inl hhigh)
      · exact .inr (.inr ⟨_, _, hlow, hhigh, .inl rfl⟩)
      · -- one argument, a list on one way only: then it may be anything on the other
        refine .inr (.inr ⟨_, _, hlow, hhigh, ?_⟩)
        rw [Bool.and_eq_true, List.isEmpty_iff] at hlist
        obtain ⟨rfl, hlist⟩ := hlist
        cases hrest
        rcases hv.agree.cases with rfl | rfl | rfl | ⟨a, b, rfl, rfl⟩
        · simp [joined?] at hitems
        · exact .inr (.inl rfl)
        · simp [hlist] at hloose
        · simp [Ty.isList] at hloose
    · rcases resultAt_joined hf high highs with hhigh | ⟨-, hhigh⟩ | ⟨-, hhigh⟩
      · exact .inr (.inl hhigh)
      · exact .inr (.inr ⟨_, _, hlow, hhigh, .inr (.inl rfl)⟩)
      · exact .inr (.inr ⟨_, _, hlow, hhigh, helements⟩)

/-- The lists made by `concatenate` and `union` have types that agree. -/
theorem joined_agree {f : Builtin} (hf : f = .concatenate ∨ f = .union) {vs : List Value}
    {fs ts : List Ty} (h : MeetsAll vs fs ts) {g : List Value → List Value}
    (hg : ∀ items a b, Covers items a b → Covers (g items) a b) :
    f.resultAt fs = .any ∨ Agree (((joined? vs).map fun items => .list (g items)).getD .null)
      (f.resultAt fs) (f.resultAt ts) := by
  cases hitems : joined? vs with
  | none => exact .inr (.null _ _)
  | some items =>
    rcases joined_covers hf h hitems with hany | hany | ⟨a, b, hlow, hhigh, hcovers⟩
    · exact .inl hany
    · rw [hany]
      exact .inr (.any _ _)
    · rw [hlow, hhigh]
      exact .inr (hg items a b hcovers).list

/-! ### Calls -/

/-- What holds of the arguments of a call of the absolute value: they are numbers. -/
def ArgumentsSuit (f : Builtin) (vs : List Value) : Prop :=
  f = .abs → Fits (Args.get vs 0) (.number .number)

/-- What a function with one result for all arguments gives fits the result for any types. -/
theorem apply_fits_of_fixed {ε : Type} {f : Builtin} (hfixed : f.hasFixedResult = true)
    {vs : List Value} (hargs : f.ArgumentsSuit vs) {precision : Nat}
    {invoke : FunctionValue → List Value → Except ε Value} {v : Value}
    (hv : f.apply vs precision invoke = .ok v) (types : List Ty) : Fits v (f.resultAt types) := by
  have hresult : Fits v f.result := by
    by_cases habs : f = .abs
    · subst habs
      cases hv
      exact absolute_fits (hargs rfl)
    · exact apply_fits habs hv
  rcases resultAt_of_fixed hfixed types with heq | heq
  · rw [heq]
    exact hresult
  · rw [heq]
    exact .any v

/-- The results of a function with one result for all arguments agree, unless the first is any
type. -/
theorem resultAt_agree_of_fixed {f : Builtin} (hfixed : f.hasFixedResult = true) (v : Value)
    (fs ts : List Ty) : f.resultAt fs = .any ∨ Agree v (f.resultAt fs) (f.resultAt ts) := by
  rcases resultAt_of_fixed hfixed fs with hlow | hlow
  · rcases resultAt_of_fixed hfixed ts with hhigh | hhigh
    · rw [hlow, hhigh]
      exact .inr (.same _ _)
    · rw [hhigh]
      exact .inr (.any _ _)
  · exact .inl hlow

/-- **The types of calls.** What a function whose result depends on its arguments gives on
arguments with two types each fits the result for the lowered types and the result for the written
ones, and these agree unless the first is any type. -/
theorem apply_meets {ε : Type} {f : Builtin} (hfixed : f.hasFixedResult = false)
    {vs : List Value} {fs ts : List Ty} (h : MeetsAll vs fs ts) {precision : Nat}
    {invoke : FunctionValue → List Value → Except ε Value} {v : Value}
    (hv : f.apply vs precision invoke = .ok v) :
    Fits v (f.resultAt fs) ∧ Fits v (f.resultAt ts) ∧
      (f.resultAt fs = .any ∨ Agree v (f.resultAt fs) (f.resultAt ts)) := by
  cases f with
  | min =>
    cases hv
    exact ⟨extreme_fits (.inl rfl) .lt h.lowered, extreme_fits (.inl rfl) .lt h.written,
      extreme_agree (.inl rfl) .lt h⟩
  | max =>
    cases hv
    exact ⟨extreme_fits (.inr rfl) .gt h.lowered, extreme_fits (.inr rfl) .gt h.written,
      extreme_agree (.inr rfl) .gt h⟩
  | append =>
    cases hv
    exact ⟨append_fits h.lowered, append_fits h.written, append_agree h⟩
  | concatenate =>
    have hfits : ∀ types, List.Forall₂ Fits vs types →
        Fits (((joined? vs).map .list).getD .null) (concatenate.resultAt types) := by
      intro types htypes
      cases hitems : joined? vs with
      | none => exact .null _
      | some items => exact joined_fits (.inl rfl) htypes (mem_of_joined? hitems).1
    cases hv
    exact ⟨hfits fs h.lowered, hfits ts h.written,
      joined_agree (g := id) (.inl rfl) h fun items a b hcovers => hcovers⟩
  | union =>
    have hfits : ∀ types, List.Forall₂ Fits vs types →
        Fits (((joined? vs).map fun items => .list (distinct items)).getD .null)
          (union.resultAt types) := by
      intro types htypes
      cases hitems : joined? vs with
      | none => exact .null _
      | some items =>
        exact joined_fits (.inr rfl) htypes fun x hx =>
          (mem_of_joined? hitems).1 x (mem_of_mem_distinct hx)
    cases hv
    exact ⟨hfits fs h.lowered, hfits ts h.written,
      joined_agree (.inr rfl) h fun items a b hcovers => hcovers.distinct⟩
  | _ => simp [hasFixedResult] at hfixed

end Builtin

end Feel
