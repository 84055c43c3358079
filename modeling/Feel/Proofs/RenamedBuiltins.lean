import Feel.Proofs.Renaming
import Mathlib.Data.List.InsertIdx

/-!
# Built-in functions of renamed arguments

A built-in function looks at its arguments through their families, their order and their equality,
none of which shows where a closure was made. Those that hand on arguments or their parts hand on
the renamed ones, in the same places.

* `Builtin.sortWith?_rename`, `Builtin.distinct_rename` and the others: the functions of lists.
* `Builtin.relate_rename`: relations between ranges and points.
* `Builtin.value_rename`: every built-in function that calls no other.
* `Builtin.apply_rename`: every built-in function, where the calls it makes are renamed.
-/

namespace Feel

variable (R : Renaming)

/-! ### Arguments -/

namespace Args

variable (args : List Value)

theorem get_rename (i : Nat) :
    get (args.map (Datum.rename R)) i = (get args i).rename R :=
  Datum.getD_map_rename R args i

theorem text?_rename (i : Nat) : text? (args.map (Datum.rename R)) i = text? args i := by
  rw [text?, get_rename, Datum.asString?_rename, text?]

theorem int64?_rename (v : Value) : int64? (v.rename R) = int64? v := by
  rw [int64?, Datum.asNumber?_rename, int64?]

theorem int?_rename (v : Value) : int? (v.rename R) = int? v := by
  rw [int?, int64?_rename, int?]

theorem optionalInt64?_rename (v : Value) : optionalInt64? (v.rename R) = optionalInt64? v := by
  cases v <;> rfl

theorem decimal?_rename (v : Value) : decimal? (v.rename R) = decimal? v := by
  rw [decimal?, Datum.asNumber?_rename, decimal?]

theorem items_rename : items (args.map (Datum.rename R)) = (items args).map (Datum.rename R) := by
  rcases args with _ | ⟨v, _ | ⟨w, vs⟩⟩
  · rfl
  · cases v with
    | list vs =>
      rw [List.map_cons, Datum.rename_list]
      rfl
    | _ => rfl
  · cases v <;> rfl

end Args

namespace Builtin

variable (args vs : List Value) (v w : Value)

/-- A function of the list in the first place. -/
theorem onList_rename {f g : List Value → Value}
    (h : ∀ vs, f (vs.map (Datum.rename R)) = (g vs).rename R) :
    onList (args.map (Datum.rename R)) f = (onList args g).rename R := by
  unfold onList
  rw [Args.get_rename]
  cases Args.get args 0 with
  | list vs =>
    rw [Datum.rename_list]
    exact h vs
  | _ => rfl

theorem onText_rename (f : String → Value) :
    onText (args.map (Datum.rename R)) f = onText args f := by
  rw [onText, Args.text?_rename, onText]

theorem onTexts_rename (f : String → String → Value) :
    onTexts (args.map (Datum.rename R)) f = onTexts args f := by
  rw [onTexts, Args.text?_rename, Args.text?_rename, onTexts]

theorem onDate_rename (f : Date → Value) :
    onDate (args.map (Datum.rename R)) f = onDate args f := by
  unfold onDate
  rw [Args.get_rename]
  cases Args.get args 0 <;> rfl

/-! ### Dates, times and numbers -/

theorem dateOf?_rename : dateOf? (args.map (Datum.rename R)) = dateOf? args := by
  rcases args with _ | ⟨u, _ | ⟨v, _ | ⟨w, _ | ⟨x, vs⟩⟩⟩⟩
  · rfl
  · cases u <;> rfl
  · cases u <;> rfl
  · simp only [List.map_cons, List.map_nil, dateOf?, Args.int?_rename]
  · cases u <;> rfl

theorem timeOf?_rename : timeOf? (args.map (Datum.rename R)) = timeOf? args := by
  rcases args with _ | ⟨u, _ | ⟨v, _ | ⟨w, _ | ⟨x, vs⟩⟩⟩⟩
  · rfl
  · cases u <;> rfl
  · cases u <;> rfl
  · simp only [List.map_cons, List.map_nil, timeOf?, Args.int?_rename, Datum.asNumber?_rename]
  · cases u <;> rfl

theorem dateTimeOf?_rename : dateTimeOf? (args.map (Datum.rename R)) = dateTimeOf? args := by
  rcases args with _ | ⟨u, _ | ⟨v, _ | ⟨w, vs⟩⟩⟩
  · rfl
  · cases u <;> rfl
  · cases u <;> cases v <;> rfl
  · cases u <;> cases v <;> rfl

theorem numberOf?_rename : numberOf? (args.map (Datum.rename R)) = numberOf? args := by
  have hungrouped : ∀ (cs : List Char) (v : Value), ungrouped? cs (v.rename R) = ungrouped? cs v := by
    intro cs v
    cases v <;> rfl
  have hpointed : ∀ (cs : List Char) (v : Value), pointed? cs (v.rename R) = pointed? cs v := by
    intro cs v
    cases v <;> rfl
  simp only [numberOf?, Args.text?_rename, Args.get_rename, hungrouped, hpointed]

theorem yearsAndMonths_rename :
    yearsAndMonths (v.rename R) (w.rename R) = yearsAndMonths v w := by
  simp only [yearsAndMonths, Datum.instant?_rename]

theorem round_rename (mode : Rounding) (scaleOptional : Bool) :
    round (args.map (Datum.rename R)) mode scaleOptional = round args mode scaleOptional := by
  unfold round
  rw [Args.get_rename, Args.get_rename, Args.decimal?_rename]
  cases Args.get args 1 <;> rfl

theorem absolute_rename : absolute (v.rename R) = absolute v := by
  cases v <;> rfl

/-! ### Texts -/

theorem substring?_rename (o : Overflow) :
    substring? o (args.map (Datum.rename R)) = substring? o args := by
  rw [substring?, Args.text?_rename, Args.get_rename, Args.get_rename, Args.int64?_rename,
    Args.optionalInt64?_rename, substring?]

theorem patternOf?_rename (flags : Value) :
    patternOf? (args.map (Datum.rename R)) (flags.rename R) = patternOf? args flags := by
  rw [patternOf?, Args.text?_rename, Datum.asString?_rename, patternOf?]

theorem matchesValue_rename : matchesValue (args.map (Datum.rename R)) = matchesValue args := by
  rw [matchesValue, Args.text?_rename, Args.get_rename, patternOf?_rename, matchesValue]

theorem replaceValue_rename : replaceValue (args.map (Datum.rename R)) = replaceValue args := by
  rw [replaceValue, Args.text?_rename, Args.text?_rename, Args.get_rename, patternOf?_rename,
    replaceValue]

theorem splitValue_rename : splitValue (args.map (Datum.rename R)) = splitValue args := by
  have h := patternOf?_rename R args .null
  rw [Datum.rename_null] at h
  rw [splitValue, Args.text?_rename, h, splitValue]

end Builtin

/-! ### Relations -/

/-- An edge at a renamed value. -/
def Edge.rename : Edge → Edge
  | .below => .below
  | .at v => .at (v.rename R)
  | .above => .above

theorem Edge.order?_rename (a b : Edge) : (a.rename R).order? (b.rename R) = a.order? b := by
  cases a with
  | «at» v =>
    cases b with
    | «at» w => exact Datum.order?_rename R v w
    | _ => rfl
  | _ => cases b <;> rfl

theorem Edge.lower?_rename (a b : Edge) : (a.rename R).lower? (b.rename R) = a.lower? b := by
  rw [lower?, order?_rename, lower?]

theorem Edge.same?_rename (a b : Edge) : (a.rename R).same? (b.rename R) = a.same? b := by
  rw [same?, order?_rename, same?]

/-- An interval between renamed values. -/
def Interval.rename (a : Interval) : Interval :=
  ⟨a.start.rename R, a.startIncluded, a.stop.rename R, a.stopIncluded⟩

theorem Interval.of?_rename (v : Value) : of? (v.rename R) = (of? v).map (rename R) := by
  cases v with
  | range s e si ei =>
    rw [Datum.rename_range]
    cases s <;> cases e <;> rfl
  | _ => rfl

namespace Builtin

/-- A relation that goes by the order of edges. -/
theorem relate_rename {rel : Interval → Interval → Option Bool}
    (h : ∀ a b, rel (a.rename R) (b.rename R) = rel a b) (v w : Value) :
    relate rel (v.rename R) (w.rename R) = relate rel v w := by
  unfold relate
  rw [Interval.of?_rename, Interval.of?_rename]
  cases Interval.of? v with
  | none => rfl
  | some a =>
    cases Interval.of? w with
    | none => rfl
    | some b => exact congrArg _ (h a b)

theorem relateRanges_rename {rel : Interval → Interval → Option Bool}
    (h : ∀ a b, rel (a.rename R) (b.rename R) = rel a b) (v w : Value) :
    relateRanges rel (v.rename R) (w.rename R) = relateRanges rel v w := by
  have hrelate := relate_rename R h v w
  cases v with
  | range =>
    cases w with
    | range => exact hrelate
    | _ => rfl
  | _ => cases w <;> rfl

variable (args vs : List Value) (v w : Value)

/-! ### Aggregates -/

theorem extreme_rename (wanted : Ordering) :
    extreme wanted (vs.map (Datum.rename R)) = (extreme wanted vs).rename R := by
  have hfrom : ∀ best : Value, extremeFrom wanted (best.rename R) (vs.tail.map (Datum.rename R)) =
      (extremeFrom wanted best vs.tail).rename R := by
    induction vs.tail with
    | nil => exact fun best => rfl
    | cons v vs ih =>
      intro best
      rw [List.map_cons, extremeFrom, extremeFrom, Datum.order?_rename]
      cases v.order? best with
      | none => rfl
      | some o =>
        dsimp only
        rw [← apply_ite (Datum.rename R)]
        exact ih _
  cases vs with
  | nil => rfl
  | cons v vs => exact hfrom v

theorem reduce_rename (op : Operator) :
    reduce op (vs.map (Datum.rename R)) = (reduce op vs).rename R := by
  cases vs with
  | nil => rfl
  | cons v vs =>
    rw [List.map_cons, reduce, reduce]
    induction vs generalizing v with
    | nil => rfl
    | cons w vs ih =>
      rw [List.map_cons, List.foldl_cons, List.foldl_cons, Datum.arith_rename]
      exact ih _

theorem all_isSome_asNumber?_rename :
    (vs.map (Datum.rename R)).all (·.asNumber?.isSome) = vs.all (·.asNumber?.isSome) := by
  rw [List.all_map]
  exact congrArg vs.all (funext fun v => congrArg Option.isSome (Datum.asNumber?_rename R v))

theorem total_rename (op : Operator) :
    total op (vs.map (Datum.rename R)) = (total op vs).rename R := by
  rw [total, all_isSome_asNumber?_rename, reduce_rename, total, apply_ite (Datum.rename R),
    Datum.rename_null]

theorem meanOf_rename (precision : Nat) :
    meanOf (vs.map (Datum.rename R)) precision = (meanOf vs precision).rename R := by
  have hmean : ∀ v : Value, (v.rename R).arith .div (.count vs.length) .decimal precision =
      (v.arith .div (.count vs.length) .decimal precision).rename R := fun v =>
    Datum.arith_rename R v (.count vs.length) .div .decimal precision
  unfold meanOf
  rw [total_rename, List.length_map]
  cases total .add vs with
  | null => rfl
  | _ => exact hmean _

theorem quantify_rename {op : Value → Value → Value}
    (h : ∀ v w, op (v.rename R) (w.rename R) = (op v w).rename R) (acc : Value) :
    quantify op (acc.rename R) (vs.map (Datum.rename R)) = (quantify op acc vs).rename R := by
  induction vs generalizing acc with
  | nil => rfl
  | cons v vs ih =>
    rw [List.map_cons, quantify, quantify, Datum.isNull_rename, Datum.asBool?_rename, h, ih,
      apply_ite (Datum.rename R), Datum.rename_null]

/-! ### Sorting -/

/-- A question whose answer does not show where closures were made. -/
def Uniform (before? : Before?) : Prop :=
  ∀ v w : Value, before? (v.rename R) (w.rename R) = before? v w

theorem insertDown?_rename {before? : Before?} (h : Uniform R before?) :
    insertDown? before? (v.rename R) (vs.map (Datum.rename R)) =
      (insertDown? before? v vs).map (List.map (Datum.rename R)) := by
  induction vs with
  | nil => rfl
  | cons w ws ih =>
    rw [List.map_cons, insertDown?, insertDown?, h]
    cases before? v w with
    | none => rfl
    | some first =>
      cases first with
      | false => rfl
      | true =>
        simp only [Option.bind_eq_bind, Option.bind_some, if_true, ih]
        cases insertDown? before? v ws <;> rfl

theorem insertionSort?_rename {before? : Before?} (h : Uniform R before?) :
    insertionSort? before? (vs.map (Datum.rename R)) =
      (insertionSort? before? vs).map (List.map (Datum.rename R)) := by
  have hfold : ∀ sorted : List Value,
      (vs.map (Datum.rename R)).foldlM (fun sorted v => insertDown? before? v sorted)
          (sorted.map (Datum.rename R)) =
        (vs.foldlM (fun sorted v => insertDown? before? v sorted) sorted).map
          (List.map (Datum.rename R)) := by
    induction vs with
    | nil => exact fun sorted => rfl
    | cons v vs ih =>
      intro sorted
      rw [List.map_cons, List.foldlM_cons, List.foldlM_cons, insertDown?_rename R sorted v h]
      cases insertDown? before? v sorted with
      | none => rfl
      | some next => exact ih next
  have hnil := hfold []
  rw [List.map_nil] at hnil
  rw [insertionSort?, insertionSort?, hnil]
  simp only [Option.map_map, Function.comp_def, List.map_reverse]

theorem answered_rename {before? : Before?} (h : Uniform R before?) :
    answered before? (vs.map (Datum.rename R)) = answered before? vs := by
  induction vs with
  | nil => rfl
  | cons v vs ih =>
    cases vs with
    | nil => rfl
    | cons w vs =>
      rw [List.map_cons, List.map_cons, answered, answered, h]
      exact congrArg _ ih

theorem sortWith?_rename {before? : Before?} (h : Uniform R before?) :
    sortWith? before? (vs.map (Datum.rename R)) =
      (sortWith? before? vs).map (List.map (Datum.rename R)) := by
  have hmerge : mergeSort? before? (vs.map (Datum.rename R)) =
      (mergeSort? before? vs).map (List.map (Datum.rename R)) := by
    have hsorted : (vs.map (Datum.rename R)).mergeSort (fun a b => before? b a != some true) =
        (vs.mergeSort fun a b => before? b a != some true).map (Datum.rename R) :=
      (List.map_mergeSort fun v _ w _ => by rw [h]).symm
    rw [mergeSort?, mergeSort?, hsorted, answered_rename R _ h]
    split <;> rfl
  rw [sortWith?, sortWith?, List.length_map, hmerge, insertionSort?_rename R vs h,
    apply_ite (Option.map (List.map (Datum.rename R)))]

theorem sortedNumbers?_rename :
    sortedNumbers? (vs.map (Datum.rename R)) =
      (sortedNumbers? vs).map (List.map (Datum.rename R)) := by
  rw [sortedNumbers?, sortedNumbers?, List.isEmpty_map, all_isSome_asNumber?_rename,
    sortWith?_rename R vs fun v w => by rw [Datum.order?_rename]]
  split <;> rfl

theorem sortNatural_rename : sortNatural (vs.map (Datum.rename R)) = (sortNatural vs).rename R := by
  unfold sortNatural ascending?
  rw [sortWith?_rename R vs fun v w => by rw [Datum.order?_rename]]
  cases sortWith? (fun v w : Value => (v.order? w).map (· == .lt)) vs with
  | none => rfl
  | some sorted => exact (Datum.rename_list R sorted).symm

theorem medianOf_rename (precision : Nat) :
    medianOf (vs.map (Datum.rename R)) precision = (medianOf vs precision).rename R := by
  unfold medianOf
  rw [sortedNumbers?_rename]
  cases sortedNumbers? vs with
  | none => rfl
  | some sorted =>
    simp only [Option.map_some, List.length_map, Datum.getD_map_rename, ← List.map_drop,
      ← List.map_take, meanOf_rename]
    rw [apply_ite (Datum.rename R)]

theorem deviation_rename : deviation (vs.map (Datum.rename R)) = deviation vs := by
  unfold deviation
  rw [sortedNumbers?_rename]
  cases sortedNumbers? vs with
  | none => rfl
  | some sorted =>
    have h : (sorted.map (Datum.rename R)).filterMap
        (fun v => v.asNumber?.map (·.toFloat)) =
          sorted.filterMap fun v => v.asNumber?.map (·.toFloat) := by
      rw [List.filterMap_map]
      refine congrArg (fun f => sorted.filterMap f) (funext fun v => ?_)
      exact congrArg (Option.map (·.toFloat)) (Datum.asNumber?_rename R v)
    rw [Option.map_some]
    simp only [h]

theorem runs_rename :
    runs (vs.map (Datum.rename R)) = (runs vs).map fun r => (r.1.rename R, r.2) := by
  have hgo : ∀ (vs : List Value) (v : Value) (n : Nat),
      runs.go (v.rename R) n (vs.map (Datum.rename R)) =
        (runs.go v n vs).map fun r => (r.1.rename R, r.2) := by
    intro vs
    induction vs with
    | nil => exact fun v n => rfl
    | cons w ws ih =>
      intro v n
      rw [List.map_cons, runs.go, runs.go, Datum.equal_rename, ih, ih]
      split <;> rfl
  cases vs with
  | nil => rfl
  | cons v vs => exact hgo vs v 1

theorem modes_rename : modes (vs.map (Datum.rename R)) = (modes vs).rename R := by
  unfold modes
  rw [sortedNumbers?_rename]
  cases sortedNumbers? vs with
  | none => rfl
  | some sorted =>
    simp only [Option.map_some, runs_rename, List.foldl_map, List.filter_map, List.map_map,
      Datum.rename_list]
    rfl

/-! ### Positions -/

theorem sublist?_rename (o : Overflow) (position size : Value) :
    sublist? o (vs.map (Datum.rename R)) (position.rename R) (size.rename R) =
      (sublist? o vs position size).map (Datum.rename R) := by
  have hslice : ∀ start stop, (slice? (vs.map (Datum.rename R)) start stop).map Datum.list =
      ((slice? vs start stop).map Datum.list).map (Datum.rename R) := by
    intro start stop
    simp only [slice?, List.length_map, ← List.map_drop, ← List.map_take]
    split
    · exact congrArg some (Datum.rename_list R _).symm
    · rfl
  have hof : ∀ position size, sublistOf? o (vs.map (Datum.rename R)) position size =
      (sublistOf? o vs position size).map (Datum.rename R) := by
    intro position size
    simp only [sublistOf?, List.length_map, hslice, Option.bind_eq_bind, Option.map_bind,
      Function.comp_def, apply_ite (Option.map (Datum.rename R)), Option.map_some,
      Datum.rename_null]
  unfold sublist?
  rw [Args.int64?_rename, Args.optionalInt64?_rename]
  cases Args.int64? position with
  | none => rfl
  | some position =>
    cases Args.optionalInt64? size with
    | none => rfl
    | some size =>
      simp only [hof, apply_ite (Option.map (Datum.rename R)), Option.map_some,
        Datum.rename_null]

theorem position?_rename (len : Nat) (position : Value) :
    position? len (position.rename R) = position? len position := by
  rw [position?, Args.int?_rename, position?]

theorem insertBeforeValue_rename (position : Value) :
    insertBeforeValue (vs.map (Datum.rename R)) (position.rename R) (v.rename R) =
      (insertBeforeValue vs position v).rename R := by
  unfold insertBeforeValue
  rw [List.length_map, position?_rename]
  cases position? vs.length position with
  | none => rfl
  | some i =>
    rw [Datum.rename_list, List.map_append, List.map_cons, List.map_take, List.map_drop]

theorem removeValue_rename (position : Value) :
    removeValue (vs.map (Datum.rename R)) (position.rename R) =
      (removeValue vs position).rename R := by
  unfold removeValue
  rw [List.length_map, position?_rename]
  cases position? vs.length position with
  | none => rfl
  | some i =>
    dsimp only
    rw [apply_ite (Datum.rename R), Datum.rename_list, Datum.rename_null, List.eraseIdx_map]

theorem indexesOf_rename (i : Nat) :
    indexesOf (v.rename R) i (vs.map (Datum.rename R)) =
      (indexesOf v i vs).map (Datum.rename R) := by
  induction vs generalizing i with
  | nil => rfl
  | cons w ws ih =>
    rw [List.map_cons, indexesOf, indexesOf, Datum.equal_rename, ih]
    split <;> rfl

/-! ### Whole lists -/

theorem joined?_rename :
    joined? (args.map (Datum.rename R)) = (joined? args).map (List.map (Datum.rename R)) := by
  induction args with
  | nil => rfl
  | cons v args ih =>
    cases v with
    | list vs =>
      rw [List.map_cons, Datum.rename_list, joined?, joined?, ih]
      simp only [Option.map_map, Function.comp_def, List.map_append]
    | _ => rfl

theorem distinct_rename : distinct (vs.map (Datum.rename R)) = (distinct vs).map (Datum.rename R) := by
  have hfrom : ∀ kept : List Value,
      distinctFrom (kept.map (Datum.rename R)) (vs.map (Datum.rename R)) =
        (distinctFrom kept vs).map (Datum.rename R) := by
    induction vs with
    | nil => exact fun kept => rfl
    | cons v vs ih =>
      intro kept
      have hkept : (if kept.any (·.equal v) then kept.map (Datum.rename R)
          else kept.map (Datum.rename R) ++ [v.rename R]) =
            (if kept.any (·.equal v) then kept else kept ++ [v]).map (Datum.rename R) := by
        rw [apply_ite (List.map (Datum.rename R)), List.map_append, List.map_singleton]
      rw [List.map_cons, distinctFrom, distinctFrom, Datum.any_equal_rename, hkept]
      exact ih _
  exact hfrom []

mutual

theorem flat_rename : ∀ v : Value, flat (v.rename R) = (flat v).map (Datum.rename R)
  | .list vs => flatAll_rename vs
  | .null | .boolean _ | .number _ | .string _ | .date _ | .time _ | .dateTime _
  | .dayTimeDuration _ | .yearMonthDuration _ | .context _ | .range _ _ _ _ | .function _ => rfl

theorem flatAll_rename : ∀ vs : List Value,
    flatAll (Datum.renameList R vs) = (flatAll vs).map (Datum.rename R)
  | [] => rfl
  | v :: vs => by
    show flat (v.rename R) ++ flatAll (Datum.renameList R vs) = _
    rw [flat_rename v, flatAll_rename vs, ← List.map_append]
    rfl

end

/-! ### Contexts -/

theorem entryOf_rename : entryOf (v.rename R) (w.rename R) = (entryOf v w).rename R := by
  cases w with
  | string key => exact Datum.getD_get?_rename R v key
  | _ => rfl

theorem entriesOf_rename : entriesOf (v.rename R) = (entriesOf v).rename R := by
  cases v with
  | context entries =>
    rw [Datum.rename_context, entriesOf, entriesOf, Datum.rename_list, List.map_map, List.map_map]
    refine congrArg Datum.list (List.map_congr_left fun e _ => ?_)
    exact (Datum.rename_context R [("key", .string e.1), ("value", e.2)]).symm
  | _ => rfl

/-! ### Every function -/

/-- Results that leave no room for functions do not change, so that what is seen of the arguments
has to agree. -/
theorem value_rename_of_eq {f : Builtin} (precision : Nat) (hf : f ≠ .abs)
    (hresult : f.result.isPlain = true)
    (h : f.value (args.map (Datum.rename R)) precision = f.value args precision) :
    f.value (args.map (Datum.rename R)) precision = (f.value args precision).rename R := by
  rw [h, ((value_fits hf args precision).plain hresult).rename]

/-- The functions of lists. -/
def ofLists : List Builtin :=
  [.listContains, .count, .sublist, .append, .concatenate, .insertBefore, .remove, .reverse,
    .indexOf, .union, .distinctValues, .flatten, .sort]

theorem value_rename_of_lists {f : Builtin} (precision : Nat) (h : f ∈ ofLists) :
    f.value (args.map (Datum.rename R)) precision = (f.value args precision).rename R := by
  cases f with
  | listContains =>
    refine onList_rename R args fun vs => ?_
    rw [Args.get_rename, Datum.any_equal_rename]
    rfl
  | count =>
    refine onList_rename R args fun vs => ?_
    rw [List.length_map]
    rfl
  | sublist =>
    show onList _ _ = _
    rw [Args.get_rename, Args.get_rename]
    refine onList_rename R args fun vs => ?_
    rw [sublist?_rename]
    cases sublist? .wraps vs (Args.get args 1) (Args.get args 2) <;> rfl
  | append =>
    refine onList_rename R args fun vs => ?_
    rw [Datum.rename_list, List.map_append, List.map_tail]
  | concatenate =>
    show ((joined? _).map Datum.list).getD .null = (((joined? _).map Datum.list).getD .null).rename R
    rw [joined?_rename]
    cases joined? args with
    | none => rfl
    | some vs => exact (Datum.rename_list R vs).symm
  | insertBefore =>
    show onList _ _ = _
    rw [Args.get_rename, Args.get_rename]
    exact onList_rename R args fun vs => insertBeforeValue_rename R vs _ _
  | remove =>
    show onList _ _ = _
    rw [Args.get_rename]
    exact onList_rename R args fun vs => removeValue_rename R vs _
  | reverse =>
    refine onList_rename R args fun vs => ?_
    rw [Datum.rename_list, List.map_reverse]
  | indexOf =>
    refine onList_rename R args fun vs => ?_
    rw [Args.get_rename, indexesOf_rename, Datum.rename_list]
  | union =>
    show ((joined? _).map fun vs => Datum.list (distinct vs)).getD .null =
      (((joined? _).map fun vs => Datum.list (distinct vs)).getD .null).rename R
    rw [joined?_rename]
    cases joined? args with
    | none => rfl
    | some vs =>
      rw [Option.map_some, Option.map_some, distinct_rename]
      exact (Datum.rename_list R _).symm
  | distinctValues =>
    refine onList_rename R args fun vs => ?_
    rw [distinct_rename, Datum.rename_list]
  | flatten =>
    refine onList_rename R args fun vs => ?_
    rw [← Datum.renameList_eq, flatAll_rename, Datum.rename_list]
  | sort =>
    show onList _ _ = _
    rw [Args.get_rename, Datum.isNull_rename]
    refine onList_rename R args fun vs => ?_
    rw [sortNatural_rename, apply_ite (Datum.rename R), Datum.rename_null]
  | _ => exact absurd h (by decide)

/-- The relations between ranges and points. -/
def relations : List Builtin :=
  [.before, .after, .overlaps, .meets, .metBy, .finishes, .finishedBy, .starts, .startedBy,
    .coincides]

theorem value_rename_of_relations {f : Builtin} (precision : Nat) (h : f ∈ relations) :
    f.value (args.map (Datum.rename R)) precision = (f.value args precision).rename R := by
  cases f with
  | before | after =>
    refine value_rename_of_eq R args precision (by decide) rfl ?_
    simp only [value, Args.get_rename]
    exact relate_rename R (fun a b => by
      simp only [Interval.before?, Interval.rename, Edge.lower?_rename, Edge.same?_rename]) _ _
  | overlaps =>
    refine value_rename_of_eq R args precision (by decide) rfl ?_
    simp only [value, Args.get_rename]
    exact relateRanges_rename R (fun a b => by
      simp only [Interval.overlaps?, Interval.rename, Edge.lower?_rename, Edge.same?_rename]) _ _
  | meets | metBy =>
    refine value_rename_of_eq R args precision (by decide) rfl ?_
    simp only [value, Args.get_rename]
    exact relateRanges_rename R (fun a b => by
      simp only [Interval.meets?, Interval.rename, Edge.same?_rename]) _ _
  | finishes | finishedBy =>
    refine value_rename_of_eq R args precision (by decide) rfl ?_
    simp only [value, Args.get_rename]
    exact relate_rename R (fun a b => by
      simp only [Interval.finishes?, Interval.rename, Edge.lower?_rename, Edge.same?_rename]) _ _
  | starts | startedBy =>
    refine value_rename_of_eq R args precision (by decide) rfl ?_
    simp only [value, Args.get_rename]
    exact relate_rename R (fun a b => by
      simp only [Interval.starts?, Interval.rename, Edge.lower?_rename, Edge.same?_rename]) _ _
  | coincides =>
    refine value_rename_of_eq R args precision (by decide) rfl ?_
    simp only [value, Args.get_rename]
    exact relate_rename R (fun a b => by
      simp only [Interval.coincides?, Interval.rename, Edge.same?_rename]) _ _
  | _ => exact absurd h (by decide)

/-- **Built-in functions of renamed arguments** give what they give of the arguments, renamed. -/
theorem value_rename (f : Builtin) (precision : Nat) :
    f.value (args.map (Datum.rename R)) precision = (f.value args precision).rename R := by
  cases f with
  | abs =>
    show absolute _ = (absolute _).rename R
    rw [Args.get_rename, absolute_rename]
    cases Args.get args 0 with
    | yearMonthDuration months => rw [absolute_yearMonthDuration, Datum.rename]
    | _ => rfl
  | duration =>
    show onText _ _ = (onText _ _).rename R
    rw [onText_rename, onText]
    cases Args.text? args 0 with
    | none => rfl
    | some s => exact ((Datum.Steady.getD fun _ => Datum.Steady.of_parseDuration?).plain.rename R).symm
  | min | max => simp only [value, Args.items_rename, extreme_rename]
  | sum | product | mean | median | mode =>
    simp only [value, Args.items_rename, total_rename, meanOf_rename, medianOf_rename, modes_rename]
  | all =>
    show quantify _ _ (Args.items _) = _
    rw [Args.items_rename]
    exact quantify_rename R _ (Datum.and_rename R) (.boolean true)
  | any =>
    show quantify _ _ (Args.items _) = _
    rw [Args.items_rename]
    exact quantify_rename R _ (Datum.or_rename R) (.boolean false)
  | listContains | count | sublist | append | concatenate | insertBefore | remove | reverse
  | indexOf | union | distinctValues | flatten | sort =>
    exact value_rename_of_lists R args precision (by decide)
  | before | after | overlaps | meets | metBy | finishes | finishedBy | starts | startedBy
  | coincides => exact value_rename_of_relations R args precision (by decide)
  | getValue => simp only [value, Args.get_rename, entryOf_rename]
  | getEntries => simp only [value, Args.get_rename, entriesOf_rename]
  | _ =>
    refine value_rename_of_eq R args precision (by decide) rfl ?_
    simp only [value, Args.get_rename, dateOf?_rename, timeOf?_rename, dateTimeOf?_rename,
      numberOf?_rename, onText_rename, onTexts_rename, onDate_rename, yearsAndMonths_rename,
      substring?_rename, matchesValue_rename, replaceValue_rename, splitValue_rename,
      round_rename, deviation_rename, Args.items_rename, remainder, squareRoot, logarithm,
      exponential, parity, Args.decimal?_rename, Args.int?_rename, Datum.asNumber?_rename,
      Datum.isNull_rename, Datum.text_rename, Datum.familyName_rename, Datum.equal_rename,
      Datum.asBool?_rename, Datum.not]

theorem inBounds_rename (f : Builtin) :
    f.inBounds (args.map (Datum.rename R)) = f.inBounds args := by
  cases f with
  | substring => exact congrArg Option.isSome (substring?_rename R args .wraps)
  | sublist =>
    unfold inBounds
    rw [Args.get_rename, Args.get_rename, Args.get_rename]
    cases Args.get args 0 with
    | list vs =>
      rw [Datum.rename_list]
      exact (congrArg Option.isSome (sublist?_rename R vs .wraps _ _)).trans Option.isSome_map
    | _ => rfl
  | _ => rfl

variable {ε : Type}

theorem sortBy_rename {precedes precedes' : Value → Value → Except ε Bool}
    (h : ∀ v w : Value, precedes' (v.rename R) (w.rename R) = precedes v w) (sorted : List Value) :
    sortBy precedes' (vs.map (Datum.rename R)) (sorted.map (Datum.rename R)) =
      (sortBy precedes vs sorted).map (List.map (Datum.rename R)) := by
  have hinsert : ∀ (v : Value) (ws : List Value),
      insertBy precedes' (v.rename R) (ws.map (Datum.rename R)) =
        (insertBy precedes v ws).map (List.map (Datum.rename R)) := by
    intro v ws
    induction ws with
    | nil => rfl
    | cons w ws ih =>
      rw [List.map_cons, insertBy, insertBy, h, ih]
      cases precedes v w with
      | error e => rfl
      | ok first =>
        cases first with
        | true => rfl
        | false => cases insertBy precedes v ws <;> rfl
  induction vs generalizing sorted with
  | nil => rfl
  | cons v vs ih =>
    rw [List.map_cons, sortBy, sortBy, hinsert]
    cases insertBy precedes v sorted with
    | error e => rfl
    | ok next => exact ih next

/-- Built-in functions of renamed arguments, where what they call is renamed too. -/
theorem apply_rename (f : Builtin) (precision : Nat)
    {invoke invoke' : FunctionValue → List Value → Except ε Value}
    (h : ∀ g vs, invoke' (g.rename R) (vs.map (Datum.rename R)) =
      (invoke g vs).map (Datum.rename R)) :
    f.apply (args.map (Datum.rename R)) precision invoke' =
      (f.apply args precision invoke).map (Datum.rename R) := by
  have hvalue : (Except.ok (f.value (args.map (Datum.rename R)) precision) : Except ε Value) =
      (Except.ok (f.value args precision)).map (Datum.rename R) :=
    congrArg Except.ok (value_rename R args f precision)
  have htrue : ∀ (x : Except ε Value), isTrue (x.map (Datum.rename R)) = isTrue x := by
    intro x
    cases x with
    | error e => rfl
    | ok v => exact congrArg Except.ok (Datum.isBool_rename R v true)
  unfold apply
  rw [Args.get_rename, Args.get_rename]
  cases f with
  | sort =>
    cases hlist : Args.get args 0 with
    | list items =>
      cases Args.get args 1 with
      | function precedes =>
        have hprecedes : ∀ v w : Value,
            isTrue (invoke' (precedes.rename R) [v.rename R, w.rename R]) =
              isTrue (invoke precedes [v, w]) :=
          fun v w => (congrArg isTrue (h precedes [v, w])).trans (htrue _)
        have hsort : sortBy (fun a b => isTrue (invoke' (precedes.rename R) [a, b]))
            (items.map (Datum.rename R)) [] = _ := sortBy_rename R items hprecedes []
        rw [Datum.rename_list]
        refine (congrArg (Except.map Datum.list) hsort).trans ?_
        dsimp only
        cases sortBy (fun a b => isTrue (invoke precedes [a, b])) items [] with
        | error e => rfl
        | ok out => exact congrArg Except.ok (Datum.rename_list R out).symm
      | _ => exact hvalue
    | _ => exact hvalue
  | _ => exact hvalue

end Builtin

end Feel
