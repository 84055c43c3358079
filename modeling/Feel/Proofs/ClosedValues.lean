import Feel.Program.Basic
import Feel.Proofs.BuiltinTypes
import Feel.Proofs.Parts
import Feel.Proofs.Renaming
import Feel.Proofs.SteadyValues

/-!
# Values whose functions can be called

Code is closed over a pool of some size if its constants are in the pool, the built-in functions
it calls exist and its inline constants hold no function. That is what the check of a program
asks for. A value is closed if every function in it is a built-in function that exists, or a
closure whose body is closed over the constants that it carries. Operations on values only hand
on the functions that they are given, so that they keep values closed.

A strict reading leaves out closures, in code and in values, and numbers that differ from
themselves. Operators never make such numbers, so that they keep values closed in this reading as
well, and a value that is closed in it is the same as itself and lies at no place.

* `Strictness`: which of the two readings is meant.
* `Code.Closed`: code that refers to nothing outside its pool.
* `Code.Closed.codeFault?`: closed code passes the check of programs.
* `Datum.Closed`: a value all of whose functions are closed.
* `Datum.Closed.same_self`, `Datum.Closed.rename`: what the strict reading is good for.
* `Datum.Closed.member`, `Datum.Closed.convert`: members and conversions.
* `Builtin.value_closed`: built-in functions.
-/

namespace Feel

/-- Whether closures, and numbers that differ from themselves, are left out. -/
class Strictness where
  strict : Prop

namespace Strictness

/-- Every closure that can be called, and every number. -/
instance lax : Strictness := ⟨False⟩

/-- No closures, and only numbers that equal themselves. -/
@[reducible] def exact : Strictness := ⟨True⟩

end Strictness

/-- A number that is brought to another representation than binary64 equals itself, if it did. -/
theorem Number.equal_self_of_convert? {n r : Number} {kind : NumberKind} (hkind : kind ≠ .double)
    (h : n.equal n = true) (hr : n.convert? kind = some r) : r.equal r = true := by
  unfold convert? at hr
  split at hr
  · cases hr
    exact h
  · obtain ⟨l, -, hr⟩ := Option.bind_eq_some_iff.mp hr
    obtain ⟨i, -, rfl⟩ := Option.map_eq_some_iff.mp hr
    exact equal_self_of_kind nofun
  · refine equal_self_of_kind ?_
    split at hr
    · cases hr
      exact nofun
    · obtain ⟨l, -, rfl⟩ := Option.map_eq_some_iff.mp hr
      exact nofun
    · obtain ⟨l, -, rfl⟩ := Option.map_eq_some_iff.mp hr
      exact nofun
  · exact absurd rfl hkind
  · cases hr
    exact equal_self_of_kind nofun

open Strictness (strict)

variable [Strictness]

/-! ### Closed code -/

namespace Code

/-- What a form refers to by itself is there, over a pool of some size. -/
def OwnClosed (size : Nat) : Code → Prop
  | const v => v.Plain ∧ (strict → v.Steady)
  | constRef i => i < size
  | call (.builtin name) _ _ => (Builtin.ofName? name).isSome
  | function _ _ _ => ¬ strict
  | convert _ target => strict → target.makesDouble = false
  | _ => True

/-- Code that refers to nothing outside a pool of some size. -/
abbrev Closed (size : Nat) (c : Code) : Prop := c.Everywhere (OwnClosed size)

variable {size size' : Nat} {c : Code}

theorem OwnClosed.mono (h : c.OwnClosed size) (hsize : size ≤ size') : c.OwnClosed size' := by
  cases c with
  | constRef i => exact Nat.lt_of_lt_of_le h hsize
  | call target args names => cases target <;> exact h
  | _ => exact h

/-- Pools only grow, and code stays closed over them. -/
theorem Closed.mono (h : c.Closed size) (hsize : size ≤ size') : c.Closed size' :=
  h.imp fun _ hc => hc.mono hsize

/-- A value without functions that is the same as itself. -/
theorem Closed.const {v : Value} (h : v.Steady) : (const v).Closed size :=
  everywhere_iff.mpr ⟨⟨h.plain, fun _ => h⟩, nofun⟩

theorem Closed.of_parts (hown : c.OwnClosed size) (h : ∀ d ∈ c.children, d.Closed size) :
    c.Closed size :=
  everywhere_iff.mpr ⟨hown, h⟩

theorem OwnClosed.ownFault? (h : c.OwnClosed size) : Program.ownFault? size c = none := by
  unfold Program.ownFault?
  split
  · exact if_neg (Nat.not_le.mpr h)
  · exact if_pos h
  · rfl

/-- **Closed code passes the check of programs.** -/
theorem Closed.codeFault? (h : c.Closed size) : Program.codeFault? size c = none := by
  revert h
  refine partsInduction (P := fun c => c.Closed size → Program.codeFault? size c = none)
    (fun c ih h => ?_) c
  rw [Program.codeFault?, fold_eq, h.here.ownFault?, Option.none_or, List.findSome?_eq_none_iff]
  intro fault hfault
  obtain ⟨d, hd, rfl⟩ := List.mem_map.mp hfault
  exact ih d hd (h.part hd)

end Code

/-! ### Closed values -/

/-- A value whose functions are built-in functions that exist, or closures whose bodies are closed
over their own constants. In the strict reading it has no closures and is the same as itself. -/
inductive Datum.Closed : Value → Prop
  | steady {v : Value} (h : v.Steady) : Closed v
  | plain {v : Value} (hlax : ¬ strict) (h : v.Plain) : Closed v
  | list {items : List Value} (h : ∀ v ∈ items, Closed v) : Closed (.list items)
  | context {entries : List (String × Value)} (hnames : strict → (entries.map (·.1)).Nodup)
      (h : ∀ e ∈ entries, Closed e.2) : Closed (.context entries)
  | range {s e : Option Value} {si ei : Bool} (hs : ∀ v, s = some v → Closed v)
      (he : ∀ v, e = some v → Closed v) : Closed (.range s e si ei)
  | builtin {name : String} {type : Ty} (h : (Builtin.ofName? name).isSome) :
      Closed (.function (.builtin name type))
  | closure {site : List Nat} {params : List String} {body : Code}
      {captured : List (String × Value)} {constants : List Value} {type : Ty} (hlax : ¬ strict)
      (hbody : body.Closed constants.length) (hcaptured : ∀ e ∈ captured, Closed e.2)
      (hconstants : ∀ v ∈ constants, Closed v) :
      Closed (.function (.closure site params body captured constants type))

namespace Datum.Closed

variable {v : Value}

theorem null : Closed .null := .steady .null

theorem empty : Closed (.context []) := .context (fun _ => List.nodup_nil) fun _ he => nomatch he

theorem items {vs : List Value} (h : Closed (.list vs)) : ∀ v ∈ vs, v.Closed := by
  cases h with
  | steady h =>
    cases h with
    | list h => exact fun v hv => .steady (h v hv)
  | plain hlax h =>
    cases h with
    | list h => exact fun v hv => .plain hlax (h v hv)
  | list h => exact h

theorem entries {es : List (String × Value)} (h : Closed (.context es)) : ∀ e ∈ es, e.2.Closed := by
  cases h with
  | steady h =>
    cases h with
    | context _ h => exact fun e he => .steady (h e he)
  | plain hlax h =>
    cases h with
    | context h => exact fun e he => .plain hlax (h e he)
  | context _ h => exact h

theorem names {es : List (String × Value)} (hstrict : strict) (h : Closed (.context es)) :
    (es.map (·.1)).Nodup := by
  cases h with
  | steady h =>
    cases h with
    | context hnames _ => exact hnames
  | plain hlax _ => exact absurd hstrict hlax
  | context hnames _ => exact hnames hstrict

theorem start {s e : Option Value} {si ei : Bool} (h : Closed (.range s e si ei)) :
    ∀ v, s = some v → v.Closed := by
  cases h with
  | steady h =>
    cases h with
    | range hs _ => exact fun v hv => .steady (hs v hv)
  | plain hlax h =>
    cases h with
    | range hs _ => exact fun v hv => .plain hlax (hs v hv)
  | range hs _ => exact hs

theorem finish {s e : Option Value} {si ei : Bool} (h : Closed (.range s e si ei)) :
    ∀ v, e = some v → v.Closed := by
  cases h with
  | steady h =>
    cases h with
    | range _ he => exact fun v hv => .steady (he v hv)
  | plain hlax h =>
    cases h with
    | range _ he => exact fun v hv => .plain hlax (he v hv)
  | range _ he => exact he

theorem of_plain (h : v.Plain) (hstrict : strict → v.Steady) : v.Closed := by
  by_cases hs : strict
  · exact .steady (hstrict hs)
  · exact .plain hs h

/-! ### The strict reading -/

/-- A closed value is the same as itself, if closures are left out. -/
theorem same_self (hstrict : strict) (h : v.Closed) : v.same v = true := by
  have hbound : ∀ o : Option Value, (∀ v, o = some v → v.same v = true) →
      Option.Rel (fun a b : Value => a.same b = true) o o := by
    intro o ho
    cases o with
    | none => exact .none
    | some v => exact .some (ho v rfl)
  induction h with
  | steady h => exact h.same_self
  | list _ ih => exact same_list_iff.mpr (List.forall₂_same.mpr ih)
  | context hnames _ ih =>
    refine (same_context_iff (hnames hstrict) (hnames hstrict)).mpr fun name => ?_
    exact hbound _ fun v hv => ih (name, v) (Ty.mem_of_lookup hv)
  | range _ _ ihs ihe => exact same_range_iff.mpr ⟨hbound _ ihs, hbound _ ihe, rfl, rfl⟩
  | builtin _ => simp [same, Function.same]
  | plain hlax _ | closure hlax _ _ _ => exact absurd hstrict hlax

/-- A closed value was made at no place, if closures are left out. -/
theorem rename_eq (hstrict : strict) (h : v.Closed) (R : Renaming) : v.rename R = v := by
  induction h with
  | steady h => exact h.plain.rename R
  | @list vs _ ih =>
    rw [rename_list, List.map_congr_left ih, List.map_id']
  | @context es _ _ ih =>
    rw [rename_context, Entries.rename, List.map_congr_left fun e he => ?_, List.map_id']
    exact congrArg (Prod.mk e.1) (ih e he)
  | @range s e si ei _ _ ihs ihe =>
    have hbound : ∀ o : Option Value, (∀ v, o = some v → v.rename R = v) →
        o.map (rename R) = o := by
      intro o ho
      cases o with
      | none => rfl
      | some v => exact congrArg some (ho v rfl)
    rw [rename_range, hbound s ihs, hbound e ihe]
  | builtin _ => rfl
  | plain hlax _ | closure hlax _ _ _ => exact absurd hstrict hlax

/-! ### Parts -/

theorem negate (h : v.Closed) : v.negate.Closed := by
  cases v with
  | number n =>
    by_cases hstrict : strict
    · have hself := h.same_self hstrict
      rw [same] at hself
      exact .steady (.number (Number.equal_self_neg hself))
    · exact .plain hstrict (.number _)
  | dayTimeDuration n => exact .steady (.dayTimeDuration _)
  | yearMonthDuration n => exact .steady (.yearMonthDuration _)
  | _ => exact .null

theorem getD {o : Option Value} (h : ∀ v, o = some v → v.Closed) : (o.getD .null).Closed := by
  cases o with
  | none => exact .null
  | some v => exact h v rfl

/-- What a name is looked up to in closed entries. -/
theorem lookup {es : List (String × Value)} (h : ∀ e ∈ es, e.2.Closed) (name : String) :
    ((es.lookup name).getD .null).Closed :=
  getD fun v hv => h (name, v) (Ty.mem_of_lookup hv)

theorem getElem {vs : List Value} (h : ∀ v ∈ vs, v.Closed) (i : Nat) :
    (vs.getD i .null).Closed := by
  rw [List.getD_eq_getElem?_getD]
  exact getD fun v hv => h v (List.mem_of_getElem? hv)

theorem insert {es : List (String × Value)} (h : Closed (.context es)) (name : String)
    (hv : v.Closed) : Closed (.context (Entries.insert es name v)) := by
  refine .context (fun hstrict => ?_) (Entries.forall_insert h.entries name hv)
  exact Entries.nodup_insert (names hstrict h) name v

theorem get? (h : v.Closed) (name : String) : ((v.get? name).getD .null).Closed := by
  unfold Datum.get?
  cases v with
  | context es => exact lookup h.entries name
  | _ => exact .null

/-! ### Members and conversions -/

theorem unwrap (h : v.Closed) : v.unwrap.Closed := by
  fun_induction Datum.unwrap v with
  | case1 v ih => exact ih (h.items v List.mem_cons_self)
  | case2 v _ => exact h

/-- A number that equals itself is brought to one that does, if it is not made a binary64 one. -/
theorem convertNumber {n : Number} {kind : NumberKind} (hkind : strict → kind ≠ .double)
    (h : Closed (.number n)) : (Datum.convertNumber n kind).Closed := by
  by_cases hstrict : strict
  · have hself := h.same_self hstrict
    rw [same] at hself
    have hconvert : ∀ {m r : Number}, m.equal m = true → m.convert? kind = some r →
        r.equal r = true := fun hm hr => Number.equal_self_of_convert? (hkind hstrict) hm hr
    unfold Datum.convertNumber
    cases hr : (n.convert? kind).or ((n.convert? .long).bind (·.convert? kind)) with
    | none => exact .null
    | some r =>
      refine .steady (.number ?_)
      rcases Option.or_eq_some_iff.mp hr with hr | ⟨-, hr⟩
      · exact hconvert hself hr
      · obtain ⟨l, hl, hr⟩ := Option.bind_eq_some_iff.mp hr
        have hlong : NumberKind.long ≠ .double := by decide
        exact hconvert (Number.equal_self_of_convert? hlong hself hl) hr
  · exact .plain hstrict ((Fits.ofNumber? _ .number).plain rfl)

theorem convertSingle (h : v.Closed) {target : Ty}
    (htarget : strict → target.makesDouble = false) : (v.convertSingle target).Closed := by
  unfold Datum.convertSingle
  split
  · exact .null
  · refine h.convertNumber fun hstrict hkind => ?_
    subst hkind
    cases htarget hstrict
  · exact .steady (.dateTime _)
  · exact .steady (.date _)
  · split
    · exact h
    · exact .null

theorem convert : ∀ {target : Ty}, (strict → target.makesDouble = false) → ∀ {v : Value},
    v.Closed → (v.convert target).Closed
  | .any, _, _, h => h
  | .list element, htarget, v, h => by
    have htarget : strict → element.makesDouble = false := htarget
    rw [Datum.convert.eq_def]
    dsimp only
    split
    · exact .null
    · next items =>
      refine .list fun w hw => ?_
      obtain ⟨v, hv, rfl⟩ := List.mem_map.mp hw
      exact convert htarget (h.items v hv)
    · exact .list (List.forall_mem_singleton.mpr (convert htarget h))
  | .null, ht, _, h | .number _, ht, _, h | .string, ht, _, h | .boolean, ht, _, h
  | .date, ht, _, h | .time, ht, _, h | .dateTime, ht, _, h | .dayTimeDuration, ht, _, h
  | .yearMonthDuration, ht, _, h | .context _, ht, _, h | .range _ _ _, ht, _, h
  | .function _ _ _, ht, _, h => h.unwrap.convertSingle ht

mutual

theorem member (name : String) : ∀ {v : Value}, v.Closed → (v.member name).Closed
  | .context es, h => by
    rw [Datum.member]
    exact lookup h.entries name
  | .list vs, h => by
    rw [Datum.member.eq_def]
    dsimp only
    split
    · exact .steady (.count _)
    · exact .steady (.boolean _)
    · exact .steady (.boolean _)
    · exact .list (members name h.items)
  | .range s e si ei, h => by
    rw [Datum.member.eq_def]
    dsimp only
    split
    · exact getD h.start
    · exact getD h.finish
    · exact .steady (.boolean _)
    · exact .steady (.boolean _)
    · exact .null
  | .null, _ | .boolean _, _ | .number _, _ | .string _, _ | .date _, _ | .time _, _
  | .dateTime _, _ | .dayTimeDuration _, _ | .yearMonthDuration _, _ | .function _, _ =>
    .steady (.member name rfl rfl nofun)

theorem members (name : String) :
    ∀ {vs : List Value}, (∀ v ∈ vs, v.Closed) → ∀ v ∈ Datum.members name vs, v.Closed
  | [], _ => nofun
  | v :: vs, h => by
    rw [Datum.members]
    rw [List.forall_mem_cons] at h ⊢
    exact ⟨member name h.1, members name h.2⟩

end

end Datum.Closed

/-! ### Built-in functions -/

namespace Builtin

variable {args vs : List Value} {v : Value}

theorem get_closed (h : ∀ v ∈ args, v.Closed) (i : Nat) : (Args.get args i).Closed :=
  .getElem h i

theorem items_closed (h : ∀ v ∈ args, v.Closed) : ∀ v ∈ Args.items args, v.Closed := by
  unfold Args.items
  split
  · exact (h _ List.mem_cons_self).items
  · exact h

theorem onList_closed {f : List Value → Value} (h : ∀ v ∈ args, v.Closed)
    (hf : ∀ vs, (∀ v ∈ vs, v.Closed) → (f vs).Closed) : (onList args f).Closed := by
  unfold onList
  split
  · next vs hvs =>
    have hget := get_closed h 0
    rw [hvs] at hget
    exact hf vs hget.items
  · exact .null

/-- The items that are left of a list, or nothing. -/
theorem closed_of_subset {out : List Value} (h : ∀ v ∈ vs, v.Closed) (hout : out ⊆ vs) :
    Datum.Closed (.list out) :=
  .list fun v hv => h v (hout hv)

theorem extreme_closed (wanted : Ordering) (h : ∀ v ∈ vs, v.Closed) :
    (extreme wanted vs).Closed := by
  cases vs with
  | nil => exact .null
  | cons best rest =>
    rw [List.forall_mem_cons] at h
    obtain ⟨hbest, hrest⟩ := h
    rw [extreme]
    induction rest generalizing best with
    | nil => exact hbest
    | cons v rest ih =>
      rw [List.forall_mem_cons] at hrest
      rw [extremeFrom]
      split
      · split
        · exact ih v hrest.1 hrest.2
        · exact ih best hbest hrest.2
      · exact .null

theorem sublist?_closed (o : Overflow) (h : ∀ v ∈ vs, v.Closed) (position size : Value) :
    ((sublist? o vs position size).getD .null).Closed := by
  have hof : ∀ position size, ((sublistOf? o vs position size).getD .null).Closed := by
    refine fun position size => .getD fun v hv => ?_
    obtain ⟨start, -, hv⟩ := Option.bind_eq_some_iff.mp hv
    split at hv
    · cases hv
      exact .null
    · obtain ⟨stop, -, hv⟩ := Option.bind_eq_some_iff.mp hv
      obtain ⟨items, hitems, rfl⟩ := Option.map_eq_some_iff.mp hv
      unfold slice? at hitems
      split at hitems
      · cases hitems
        exact closed_of_subset h (List.Subset.trans (List.take_subset _ _) (List.drop_subset _ _))
      · cases hitems
  unfold sublist?
  repeat' split
  all_goals first | exact .null | exact hof _ _

theorem insertBeforeValue_closed (h : ∀ v ∈ vs, v.Closed) (position : Value) (hv : v.Closed) :
    (insertBeforeValue vs position v).Closed := by
  unfold insertBeforeValue
  split
  · refine .list fun w hw => ?_
    rcases List.mem_append.mp hw with hw | hw
    · exact h w (List.take_subset _ _ hw)
    · rcases List.mem_cons.mp hw with rfl | hw
      · exact hv
      · exact h w (List.drop_subset _ _ hw)
  · exact .null

theorem removeValue_closed (h : ∀ v ∈ vs, v.Closed) (position : Value) :
    (removeValue vs position).Closed := by
  unfold removeValue
  repeat' split
  all_goals first | exact .null | exact closed_of_subset h (List.eraseIdx_subset ..)

omit [Strictness] in
theorem distinct_subset (vs : List Value) : distinct vs ⊆ vs := by
  have hfrom : ∀ kept, distinctFrom kept vs ⊆ kept ++ vs := by
    induction vs with
    | nil =>
      intro kept
      rw [distinctFrom, List.append_nil]
      exact List.Subset.refl _
    | cons v vs ih =>
      intro kept x hx
      have hmem := ih _ hx
      split at hmem
      · rcases List.mem_append.mp hmem with h | h <;> simp [h]
      · simpa using hmem
  simpa [distinct] using hfrom []

mutual

theorem flat_closed : ∀ {v : Value}, v.Closed → ∀ w ∈ flat v, w.Closed
  | .list vs, h => by
    rw [flat]
    exact flatAll_closed h.items
  | .null, h | .boolean _, h | .number _, h | .string _, h | .date _, h | .time _, h
  | .dateTime _, h | .dayTimeDuration _, h | .yearMonthDuration _, h | .context _, h
  | .range _ _ _ _, h | .function _, h => List.forall_mem_singleton.mpr h

theorem flatAll_closed : ∀ {vs : List Value}, (∀ v ∈ vs, v.Closed) → ∀ w ∈ flatAll vs, w.Closed
  | [], _ => nofun
  | v :: vs, h => by
    rw [flatAll, List.forall_mem_append]
    rw [List.forall_mem_cons] at h
    exact ⟨flat_closed h.1, flatAll_closed h.2⟩

end

theorem joined?_closed (h : ∀ v ∈ args, v.Closed) (hvs : joined? args = some vs) :
    ∀ v ∈ vs, v.Closed := by
  intro v hv
  obtain ⟨items, hitems, hv⟩ := (mem_of_joined? hvs).1 v hv
  exact (h _ hitems).items v hv

theorem sortNatural_closed (h : ∀ v ∈ vs, v.Closed) : (sortNatural vs).Closed := by
  unfold sortNatural
  split
  · next sorted hsorted => exact .list fun v hv => h v (mem_of_sortWith? hsorted hv)
  · exact .null

theorem entriesOf_closed (h : v.Closed) : (entriesOf v).Closed := by
  unfold entriesOf
  split
  · refine .list fun w hw => ?_
    obtain ⟨e, he, rfl⟩ := List.mem_map.mp hw
    have hnames : ["key", "value"].Nodup := by decide
    refine .context (fun _ => hnames) (List.forall_mem_cons.mpr ⟨.steady (.string _), ?_⟩)
    exact List.forall_mem_singleton.mpr (h.entries e he)
  · exact .null

/-! #### Numbers -/

omit [Strictness] in
theorem steady_ofDecimal (d : Decimal) : (ofDecimal d).Steady :=
  .number (Number.equal_self_of_kind nofun)

omit [Strictness] in
theorem steady_ofFloat (x : Float) : (ofFloat x).Steady := by
  unfold ofFloat
  cases h : Number.finite? x with
  | none => exact .null
  | some n => exact .number (Number.equal_self_of_finite? h)

omit [Strictness] in
theorem steady_numberOf? (args : List Value) :
    (Datum.ofNumber? (numberOf? args) : Value).Steady := by
  cases h : numberOf? args with
  | none => exact .null
  | some n =>
    obtain ⟨text, -, h⟩ := Option.bind_eq_some_iff.mp h
    obtain ⟨cs, -, h⟩ := Option.bind_eq_some_iff.mp h
    obtain ⟨cs, -, h⟩ := Option.bind_eq_some_iff.mp h
    exact .number (Number.equal_self_of_kind (Number.kind_of_parse? h))

omit [Strictness] in
theorem steady_indexesOf (v : Value) (i : Nat) (vs : List Value) :
    ∀ w ∈ indexesOf v i vs, w.Steady := by
  induction vs generalizing i with
  | nil => exact nofun
  | cons u us ih =>
    rw [indexesOf]
    split
    · exact List.forall_mem_cons.mpr ⟨.count _, ih _⟩
    · exact ih _

theorem reduce_closed (op : Operator) (h : ∀ v ∈ vs, v.Closed) : (reduce op vs).Closed := by
  cases vs with
  | nil => exact .null
  | cons v vs =>
    exact List.foldlRecOn _ _ (h v List.mem_cons_self) fun _ _ _ _ => .steady (.arith ..)

theorem total_closed (op : Operator) (h : ∀ v ∈ vs, v.Closed) : (total op vs).Closed := by
  unfold total
  split
  · exact reduce_closed op h
  · exact .null

omit [Strictness] in
theorem steady_meanOf (vs : List Value) (precision : Nat) : (meanOf vs precision).Steady := by
  unfold meanOf
  split
  · exact .null
  · exact .arith ..

theorem sortedNumbers?_closed {out : List Value} (h : ∀ v ∈ vs, v.Closed)
    (hout : sortedNumbers? vs = some out) : ∀ v ∈ out, v.Closed := by
  unfold sortedNumbers? at hout
  split at hout
  · cases hout
  · exact fun v hv => h v (mem_of_sortWith? hout hv)

theorem medianOf_closed (h : ∀ v ∈ vs, v.Closed) (precision : Nat) :
    (medianOf vs precision).Closed := by
  unfold medianOf
  split
  · exact .null
  · next sorted hsorted =>
    dsimp only
    split
    · exact .getElem (sortedNumbers?_closed h hsorted) _
    · exact .steady (steady_meanOf _ _)

omit [Strictness] in
theorem steady_deviation (vs : List Value) : (deviation vs).Steady := by
  unfold deviation
  split
  · exact .null
  · extract_lets xs n mean variance
    split
    · exact .null
    · exact steady_ofFloat _

theorem modes_closed (h : ∀ v ∈ vs, v.Closed) : (modes vs).Closed := by
  unfold modes
  split
  · exact .null
  · next sorted hsorted =>
    refine .list fun w hw => sortedNumbers?_closed h hsorted w ?_
    obtain ⟨r, hr, rfl⟩ := List.mem_map.mp hw
    have hmem := (List.mem_filter.mp hr).1
    cases sorted with
    | nil => cases hmem
    | cons v vs => rcases mem_of_runs_go hmem with h | h <;> simp [h]

theorem absolute_closed (h : v.Closed) : (absolute v).Closed := by
  cases v with
  | number n =>
    by_cases hstrict : strict
    · have hself := h.same_self hstrict
      rw [Datum.same] at hself
      refine .steady (.number ?_)
      cases n with
      | integer i => exact Number.equal_self_of_kind (Number.kind_ofInt _)
      | long l => exact Number.equal_self_of_kind (Number.kind_ofIntLong _)
      | double x =>
        refine Number.equal_self_double.mpr (Binary64.beq_self_abs ?_)
        exact Number.equal_self_double.mp hself
      | decimal d => exact Number.equal_self_of_kind fun h => by cases h
    · exact .plain hstrict (.number _)
  | yearMonthDuration months =>
    rw [absolute_yearMonthDuration]
    exact .steady (.yearMonthDuration _)
  | dayTimeDuration nanos => exact .steady (.dayTimeDuration _)
  | _ => exact .null

/-- **Built-in functions only hand on functions that they are given.** -/
theorem value_closed (f : Builtin) (h : ∀ v ∈ args, v.Closed) (precision : Nat) :
    (f.value args precision).Closed := by
  cases f with
  | abs => exact absolute_closed (get_closed h 0)
  | duration =>
    show (onText args _).Closed
    unfold onText
    split
    · exact .getD fun v hv => .steady (.of_parseDuration? hv)
    · exact .null
  | min => exact extreme_closed _ (items_closed h)
  | max => exact extreme_closed _ (items_closed h)
  | sublist => exact onList_closed h fun vs hvs => sublist?_closed .wraps hvs _ _
  | append =>
    refine onList_closed h fun vs hvs => .list (List.forall_mem_append.mpr ⟨hvs, ?_⟩)
    exact fun v hv => h v (List.mem_of_mem_tail hv)
  | concatenate =>
    refine .getD fun v hv => ?_
    obtain ⟨vs, hvs, rfl⟩ := Option.map_eq_some_iff.mp hv
    exact .list (joined?_closed h hvs)
  | insertBefore =>
    exact onList_closed h fun vs hvs => insertBeforeValue_closed hvs _ (get_closed h 2)
  | remove => exact onList_closed h fun vs hvs => removeValue_closed hvs _
  | reverse =>
    exact onList_closed h fun vs hvs => .list fun v hv => hvs v (List.mem_reverse.mp hv)
  | union =>
    refine .getD fun v hv => ?_
    obtain ⟨vs, hvs, rfl⟩ := Option.map_eq_some_iff.mp hv
    exact closed_of_subset (joined?_closed h hvs) (distinct_subset vs)
  | distinctValues => exact onList_closed h fun vs hvs => closed_of_subset hvs (distinct_subset vs)
  | flatten => exact onList_closed h fun vs hvs => .list (flatAll_closed hvs)
  | sort =>
    refine onList_closed h fun vs hvs => ?_
    split
    · exact sortNatural_closed hvs
    · exact .null
  | getValue =>
    show (entryOf _ _).Closed
    unfold entryOf
    split
    · exact (get_closed h 0).get? _
    · exact .null
  | getEntries => exact entriesOf_closed (get_closed h 0)
  | number => exact .steady (steady_numberOf? args)
  | stringLength =>
    show (onText args _).Closed
    unfold onText
    split
    · exact .steady (.count _)
    · exact .null
  | count => exact onList_closed h fun vs _ => .steady (.count _)
  | dayOfYear | weekOfYear =>
    show (onDate args _).Closed
    unfold onDate
    repeat' split
    all_goals first | exact .null | exact .steady (.count _)
  | sum => exact total_closed .add (items_closed h)
  | product => exact total_closed .mul (items_closed h)
  | mean => exact .steady (steady_meanOf _ _)
  | median => exact medianOf_closed (items_closed h) precision
  | stddev => exact .steady (steady_deviation _)
  | mode => exact modes_closed (items_closed h)
  | indexOf =>
    refine onList_closed h fun vs _ => .list fun v hv => ?_
    exact .steady (steady_indexesOf _ _ _ v hv)
  | decimal | floor | ceiling =>
    show (round args _ _).Closed
    unfold round
    extract_lets scale?
    split
    · exact .steady (steady_ofDecimal _)
    · exact .null
  | modulo =>
    show (remainder _ _).Closed
    unfold remainder
    repeat' split
    all_goals first | exact .null | exact .steady (steady_ofDecimal _)
  | sqrt =>
    show (squareRoot _).Closed
    unfold squareRoot
    repeat' split
    all_goals first | exact .null | exact .steady (steady_ofDecimal _)
  | log =>
    show (logarithm _).Closed
    unfold logarithm
    repeat' split
    all_goals first | exact .null | exact .steady (steady_ofFloat _)
  | exp =>
    show (exponential _).Closed
    unfold exponential
    split
    · exact .steady (steady_ofFloat _)
    · exact .null
  | _ => exact .steady ((value_fits (by decide) args precision).steady rfl)

end Builtin

end Feel
