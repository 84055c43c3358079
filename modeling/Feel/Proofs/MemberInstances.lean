import Feel.Proofs.OperatorFamilies
import Feel.Proofs.Conversions

/-!
# Members of instances

The type of a member is said of the type alone, the member is taken of a value. For an instance
of a type the member is null or an instance of the type of the member; where lists pass a member
on to their elements, that holds of each element in turn, at any depth.

* `Datum.Inside`: a value, or one that is an element of it through lists.
* `Ty.Instance`: the shapes that instances have.
* `Ty.NullableInstance`: null, or an instance, with the same asked of the elements of lists.
* `Ty.member_nullableInstance`: the members of instances.
-/

namespace Feel

/-- A value is another one, or an element of it through lists. -/
inductive Datum.Inside : Value → Value → Prop
  | self (v : Value) : Inside v v
  | item {w v : Value} {items : List Value} (hv : v ∈ items) (h : Inside w v) :
      Inside w (.list items)

namespace Ty

/-- A value is null or an instance of the type; elements of lists may be null in turn. -/
inductive NullableInstance : Ty → Value → Prop
  | null (t : Ty) : NullableInstance t .null
  | instance {t : Ty} {v : Value} (h : t.isInstance v = true) : NullableInstance t v
  | list {t : Ty} {items : List Value} (h : ∀ v ∈ items, NullableInstance t v) :
      NullableInstance (list t) (.list items)

/-! ### The shapes of instances -/

/-- The shape of an instance, at the level of its family, with what is asked of its parts. -/
inductive Instance : Ty → Value → Prop
  | any (v : Value) : Instance any v
  | null : Instance null .null
  | boolean (b : Bool) : Instance boolean (.boolean b)
  | number (n : Number) (k : NumberKind) : Instance (number k) (.number n)
  | string (s : String) : Instance string (.string s)
  | date (d : Date) : Instance date (.date d)
  | time (t : Time) : Instance time (.time t)
  | dateTime (t : DateTime) : Instance dateTime (.dateTime t)
  | dayTimeDuration (n : Int) : Instance dayTimeDuration (.dayTimeDuration n)
  | yearMonthDuration (m : Int64) : Instance yearMonthDuration (.yearMonthDuration m)
  | list {e : Ty} {items : List Value} (h : ∀ v ∈ items, e.isInstance v = true) :
      Instance (list e) (.list items)
  | context {fields : List (String × Ty)} {entries : List (String × Value)}
      (h : areInstances fields entries = true) : Instance (context fields) (.context entries)
  | range {e : Ty} {si ei : Option Bool} {start finish : Option Value} {bi ci : Bool}
      (hs : start.all e.isInstance = true) (he : finish.all e.isInstance = true) :
      Instance (range e si ei) (.range start finish bi ci)
  | function (f : FunctionValue) (ps : List Ty) (ns : Option (List String)) (r : Ty) :
      Instance (function ps ns r) (.function f)

/-- An instance has the shape of its type, if a function carries a function type. -/
theorem instance_of_isInstance {t : Ty} {v : Value} (h : t.isInstance v = true)
    (hv : v.CarriesFunctionType) : Instance t v := by
  cases v with
  | list items =>
    cases t with
    | any => exact .any _
    | list e => exact .list (List.all_eq_true.mp h)
    | _ => simp [isInstance, Datum.type_list, conformsTo, compat, compatTo, Compat.isConforming,
        Datum.isNull] at h
  | context entries =>
    cases t with
    | any => exact .any _
    | context fields => exact .context h
    | _ => simp [isInstance, Datum.type, conformsTo, compat, compatTo, Compat.isConforming,
        Datum.isNull] at h
  | range start finish bi ci =>
    cases t with
    | any => exact .any _
    | range e si ei =>
      rw [isInstance, Bool.and_eq_true] at h
      exact .range h.1 h.2
    | _ => simp [isInstance, Datum.type, conformsTo, compat, compatTo, Compat.isConforming,
        Datum.isNull] at h
  | function f =>
    obtain ⟨qs, ms, q, hf⟩ := hv f rfl
    cases t with
    | any => exact .any _
    | function ps ns r => exact .function f ps ns r
    | _ => simp [isInstance, Datum.type, hf, conformsTo, compat, compatTo, Compat.isConforming,
        Datum.isNull] at h
  | _ =>
    cases t <;> first
      | constructor
      | simp [isInstance, Datum.type, conformsTo, compat, compatTo, Compat.isConforming,
          Datum.isNull] at h

/-! ### Members of each family -/

theorem isInstance_count {n : Nat} (hn : n < 0x80000000) :
    (number .integer).isInstance (Datum.count n : Value) = true := by
  have hfits : Number.int32? (n : Int) = some (Int32.ofInt n) := by
    unfold Number.int32?
    rw [if_pos (by omega)]
  have hcount : (Datum.count n : Value) = .number (.integer (Int32.ofInt n)) := by
    show Datum.number (Number.ofInt n) = _
    rw [Number.ofInt, hfits]
  rw [hcount]
  rfl

theorem isInstance_strings (ss : List String) :
    (list string).isInstance (.list (ss.map .string) : Value) = true := by
  rw [isInstance, List.all_map, List.all_eq_true]
  intro s _
  rfl

theorem isInstance_stringMember {s name : String} {u : Ty} (hu : stringMember? name = some u)
    (hs : s.length < 0x80000000) : u.isInstance (Datum.stringMember s name : Value) = true := by
  unfold stringMember? at hu
  split at hu <;> cases hu
  · exact isInstance_count hs
  all_goals rfl

theorem isInstance_dateMember {d : Date} {name : String} {u : Ty}
    (hu : dateMember? name = some u) :
    u.isInstance (Datum.dateMember d name : Value) = true := by
  unfold dateMember? at hu
  split at hu <;> cases hu <;> rfl

theorem isInstance_timeMember {t : Time} {name : String} {u : Ty}
    (hu : timeMember? name = some u) :
    u.isInstance (Datum.timeMember t name : Value) = true := by
  unfold timeMember? at hu
  split at hu <;> cases hu <;> rfl

theorem isInstance_dateTimeMember {t : DateTime} {name : String} {u : Ty}
    (hu : dateTimeMember? name = some u) :
    u.isInstance (Datum.dateTimeMember t name : Value) = true := by
  unfold dateTimeMember? at hu
  split at hu <;> cases hu <;> rfl

/-- The members of a function that carries a function type. -/
theorem isInstance_functionMember {f : FunctionValue} {name : String} {u : Ty}
    (hu : functionMember? name = some u) (hf : (Datum.function f).CarriesFunctionType) :
    u.isInstance (Datum.functionMember f name : Value) = true := by
  obtain ⟨ps, ns, r, ht⟩ := hf f rfl
  unfold functionMember? at hu
  split at hu <;> cases hu
  · simp only [Datum.functionMember, ht]
    rfl
  · have hlist := isInstance_strings (ps.map text)
    rw [List.map_map] at hlist
    simp only [Datum.functionMember, ht]
    exact hlist
  · exact isInstance_strings f.paramNames

theorem isInstance_dayTimeMember (nanos : Int) {name : String}
    (hname : ["days", "hours", "minutes", "seconds", "value"].contains name = true) :
    (number .long).isInstance (Datum.dayTimeMember nanos name : Value) = true := by
  simp only [List.contains_iff_mem, List.mem_cons, List.not_mem_nil, or_false] at hname
  rcases hname with rfl | rfl | rfl | rfl | rfl <;> rfl

theorem isInstance_yearMonthMember (months : Int) {name : String}
    (hname : ["years", "months", "value"].contains name = true) :
    (number .long).isInstance (Datum.yearMonthMember months name : Value) = true := by
  simp only [List.contains_iff_mem, List.mem_cons, List.not_mem_nil, or_false] at hname
  rcases hname with rfl | rfl | rfl <;> rfl

/-- A bound of a range, null where it is absent. -/
theorem nullableInstance_bound {e : Ty} {bound : Option Value}
    (h : bound.all e.isInstance = true) : NullableInstance e (bound.getD .null) := by
  cases bound with
  | none => exact .null e
  | some v => exact .instance h

/-- **Members of instances.** The member of an instance of a type is null or an instance of the
type of the member; where lists pass it on, the elements of the result are so in turn. -/
theorem member_nullableInstance {t u : Ty} {name : String} {v : Value}
    (hu : t.member? name = some u) (hv : t.isInstance v = true)
    (hfunctions : ∀ w, Datum.Inside w v → w.CarriesFunctionType)
    (hstrings : ∀ s, Datum.Inside (.string s) v → s.length < 0x80000000)
    (hlists : ∀ items, Datum.Inside (.list items) v → items.length < 0x80000000) :
    NullableInstance u (v.member name) := by
  have hshape := instance_of_isInstance hv (hfunctions v (.self v))
  cases hshape with
  | any v =>
    cases hu
    exact .instance rfl
  | null => exact .null u
  | boolean | number => cases hu
  | string s => exact .instance (isInstance_stringMember hu (hstrings s (.self _)))
  | date d => exact .instance (isInstance_dateMember hu)
  | time t => exact .instance (isInstance_timeMember hu)
  | dateTime t => exact .instance (isInstance_dateTimeMember hu)
  | dayTimeDuration nanos =>
    rw [member?] at hu
    split at hu <;> cases hu
    next hname => exact .instance (isInstance_dayTimeMember nanos hname)
  | yearMonthDuration months =>
    rw [member?] at hu
    split at hu <;> cases hu
    next hname => exact .instance (isInstance_yearMonthMember months.toInt hname)
  | @list e items h =>
    rcases member?_list hu with ⟨rfl, rfl⟩ | ⟨rfl | rfl, rfl⟩ | ⟨h₁, h₂, h₃, w, hw, rfl⟩
    · exact .instance (isInstance_count (hlists items (.self _)))
    · exact .instance rfl
    · exact .instance rfl
    · rw [Datum.member_list h₁ h₂ h₃]
      apply NullableInstance.list
      intro x hx
      obtain ⟨y, hy, rfl⟩ := List.mem_map.mp hx
      exact member_nullableInstance hw (h y hy) (fun z hz => hfunctions z (.item hy hz))
        (fun s hs => hstrings s (.item hy hs)) (fun zs hzs => hlists zs (.item hy hzs))
  | @context fields entries h =>
    obtain ⟨w, hw, hinstance⟩ := areInstances_iff.mp h (name, u) (mem_of_lookup hu)
    rw [Datum.member, hw]
    exact .instance hinstance
  | range hs he =>
    simp only [member?, beq_iff_eq, Bool.or_eq_true] at hu
    split at hu
    · next hname =>
      cases hu
      rcases hname with rfl | rfl
      · exact nullableInstance_bound hs
      · exact nullableInstance_bound he
    · split at hu
      · next hname =>
        cases hu
        rcases hname with rfl | rfl <;> exact .instance rfl
      · contradiction
  | function f ps ns r =>
    exact .instance (isInstance_functionMember hu (hfunctions _ (.self _)))
termination_by sizeOf t

/-- The lengths of texts in a list of lists, one of them empty. -/
theorem member_nullableInstance_lengths :
    (list (list string)).member? "length" = some (list (list (number .integer))) ∧
    (list (list string)).isInstance (.list [.list [.string "a"], .list []] : Value) = true ∧
    NullableInstance (list (list (number .integer)))
      ((.list [.list [.string "a"], .list []] : Value).member "length") := by
  have hinside : ∀ w, Datum.Inside w (.list [.list [.string "a"], .list []] : Value) →
      w = .list [.list [.string "a"], .list []] ∨ w = .list [.string "a"] ∨ w = .string "a" ∨
        w = .list [] := by
    intro w hw
    cases hw with
    | self => exact .inl rfl
    | item hv hw =>
      simp only [List.mem_cons, List.not_mem_nil, or_false] at hv
      rcases hv with rfl | rfl
      · cases hw with
        | self => exact .inr (.inl rfl)
        | item hv hw =>
          rw [List.mem_singleton] at hv
          subst hv
          cases hw
          exact .inr (.inr (.inl rfl))
      · cases hw with
        | self => exact .inr (.inr (.inr rfl))
        | item hv hw => cases hv
  have hu : (list (list string)).member? "length" = some (list (list (number .integer))) := by
    decide
  have hv : (list (list string)).isInstance
      (.list [.list [.string "a"], .list []] : Value) = true := by
    decide
  refine ⟨hu, hv, member_nullableInstance hu hv ?_ ?_ ?_⟩
  · intro w hw f hf
    rcases hinside w hw with rfl | rfl | rfl | rfl <;> cases hf
  · intro s hs
    rcases hinside _ hs with h | h | h | h <;> cases h
    decide
  · intro items hitems
    rcases hinside _ hitems with h | h | h | h <;> cases h <;> decide

end Ty

end Feel
