import Mathlib.Data.List.Forall2
import Feel.Builtin.Lists
import Feel.Code.Basic
import Feel.Eval.Iteration
import Feel.Value.Convert

/-!
# Values that fit types, and types found twice

What a static type says of a value, at the level of families: a number fits every number type,
null fits every type, and the parts of lists, contexts and ranges fit in turn. A date and time
fits the types of dates and of times too, since these are what joins make of them.

An expression gets its type from its parts as they are written, and once more as it is lowered,
when parts may already be known to be null. The two types can differ, but only where the value
does not tell: it is null, or any value will do, or the types are those of lists with such an
element. Operators whose result depends on the types of their operands then give the same type
on both ways, or null.

* `Fits`: a value fits a type.
* `Fits.join_left`, `Fits.join_right`: what fits a type fits its joins.
* `Fits.of_same`: values that share a place in the pool fit the same types.
* `Fits.elements`, `Fits.member`: the elements and the members of a value that fits.
* `Agree`: the two types of a value.
* `Meets`: a value fits both of its types, and they agree.
* `Agree.join`, `Covers`: joins over several values.
* `Agree.member`, `Agree.extreme`, `Agree.of_same`: what keeps types in agreement.
-/

namespace Feel

/-! ## Values that fit types -/

/-- A value fits a type. -/
inductive Fits : Value → Ty → Prop
  | null (t : Ty) : Fits .null t
  | any (v : Value) : Fits v .any
  | boolean (b : Bool) : Fits (.boolean b) .boolean
  | number (n : Number) (k : NumberKind) : Fits (.number n) (.number k)
  | string (s : String) : Fits (.string s) .string
  | date (d : Date) : Fits (.date d) .date
  | time (t : Time) : Fits (.time t) .time
  | dateTime (t : DateTime) : Fits (.dateTime t) .dateTime
  /-- An instant where instants were joined with dates. -/
  | dateTimeAsDate (t : DateTime) : Fits (.dateTime t) .date
  /-- An instant where instants were joined with times. -/
  | dateTimeAsTime (t : DateTime) : Fits (.dateTime t) .time
  | dayTimeDuration (n : Int) : Fits (.dayTimeDuration n) .dayTimeDuration
  | yearMonthDuration (m : Int64) : Fits (.yearMonthDuration m) .yearMonthDuration
  | list {items : List Value} {t : Ty} (h : ∀ v ∈ items, Fits v t) : Fits (.list items) (.list t)
  /-- An entry that a field asks for may be missing. -/
  | context {entries : List (String × Value)} {fields : List (String × Ty)}
      (h : ∀ name t, (name, t) ∈ fields → ∀ v, entries.lookup name = some v → Fits v t) :
      Fits (.context entries) (.context fields)
  | range {s e : Option Value} {si ei : Bool} {t : Ty} {ts te : Option Bool}
      (hs : ∀ v, s = some v → Fits v t) (he : ∀ v, e = some v → Fits v t) :
      Fits (.range s e si ei) (.range t ts te)
  | function (f : FunctionValue) (ps : List Ty) (ns : Option (List String)) (r : Ty) :
      Fits (.function f) (.function ps ns r)

/-! ### Joins -/

namespace Ty

@[simp] theorem null_join (t : Ty) : null.join t = t := by
  by_cases h : null = t
  · rw [← h, join_self]
  · rw [join, if_neg h]

@[simp] theorem join_null (t : Ty) : t.join null = t := by
  cases t <;> simp [join]

@[simp] theorem any_join (t : Ty) : any.join t = any := by
  cases t <;> simp [join]

@[simp] theorem join_any (t : Ty) : t.join any = any := by
  cases t <;> simp [join]

@[simp] theorem list_join_list (a b : Ty) : (list a).join (list b) = list (a.join b) := by
  by_cases h : a = b
  · rw [h, join_self, join_self]
  · have h' : list a ≠ list b := fun e => h (list.inj e)
    simp [join, h']

/-- What a name is looked up to is an entry under the name. -/
theorem mem_of_lookup {α : Type} {entries : List (String × α)} {name : String} {a : α}
    (h : entries.lookup name = some a) : (name, a) ∈ entries := by
  obtain ⟨before, after, rfl, -⟩ := List.lookup_eq_some_iff.mp h
  simp

/-- A field of a join is a field of both sides. -/
theorem mem_joinFields {a b : List (String × Ty)} {name : String} {t : Ty}
    (h : (name, t) ∈ joinFields a b) :
    ∃ l r, (name, l) ∈ a ∧ (name, r) ∈ b ∧ t = l.join r := by
  induction a with
  | nil => simp [joinFields] at h
  | cons field fields ih =>
    obtain ⟨other, l⟩ := field
    rw [joinFields] at h
    split at h
    · next r hr =>
      rcases List.mem_cons.mp h with heq | hmem
      · rw [Prod.mk.injEq] at heq
        obtain ⟨rfl, rfl⟩ := heq
        exact ⟨l, r, List.mem_cons_self, mem_of_lookup hr, rfl⟩
      · obtain ⟨l', r', hl, hr', heq⟩ := ih hmem
        exact ⟨l', r', List.mem_cons_of_mem _ hl, hr', heq⟩
    · obtain ⟨l', r', hl, hr', heq⟩ := ih h
      exact ⟨l', r', List.mem_cons_of_mem _ hl, hr', heq⟩

theorem mem_sortFields {fields : List (String × Ty)} {field : String × Ty} :
    field ∈ sortFields fields ↔ field ∈ fields :=
  List.mem_mergeSort

end Ty

namespace Fits

/-- What fits one side of a join fits the join, on whichever side it stands. -/
theorem joins {v : Value} {a : Ty} (h : Fits v a) (b : Ty) :
    Fits v (a.join b) ∧ Fits v (b.join a) := by
  induction h generalizing b with
  | null t => exact ⟨.null _, .null _⟩
  | any v =>
    rw [Ty.any_join, Ty.join_any]
    exact ⟨.any v, .any v⟩
  | boolean x => constructor <;> cases b <;> simp [Ty.join] <;> constructor
  | number n k => constructor <;> cases b <;> simp [Ty.join] <;> (try split) <;> constructor
  | string s => constructor <;> cases b <;> simp [Ty.join] <;> constructor
  | date d => constructor <;> cases b <;> simp [Ty.join] <;> constructor
  | time t => constructor <;> cases b <;> simp [Ty.join] <;> constructor
  | dateTime t => constructor <;> cases b <;> simp [Ty.join] <;> constructor
  | dateTimeAsDate t => constructor <;> cases b <;> simp [Ty.join] <;> constructor
  | dateTimeAsTime t => constructor <;> cases b <;> simp [Ty.join] <;> constructor
  | dayTimeDuration n => constructor <;> cases b <;> simp [Ty.join] <;> constructor
  | yearMonthDuration m => constructor <;> cases b <;> simp [Ty.join] <;> constructor
  | @list items t h ih =>
    cases b with
    | list u =>
      rw [Ty.list_join_list, Ty.list_join_list]
      exact ⟨.list fun v hv => (ih v hv u).1, .list fun v hv => (ih v hv u).2⟩
    | null =>
      rw [Ty.join_null, Ty.null_join]
      exact ⟨.list h, .list h⟩
    | _ =>
      simp only [Ty.join]
      exact ⟨.any _, .any _⟩
  | @context entries fields h ih =>
    cases b with
    | context others =>
      by_cases heq : fields = others
      · rw [← heq, Ty.join_self]
        exact ⟨.context h, .context h⟩
      · have hne : Ty.context fields ≠ Ty.context others := fun e => heq (Ty.context.inj e)
        simp only [Ty.join, if_neg hne, if_neg hne.symm]
        constructor
        · refine .context fun name t ht v hv => ?_
          obtain ⟨l, r, hl, -, rfl⟩ := Ty.mem_joinFields (Ty.mem_sortFields.mp ht)
          exact (ih name l hl v hv r).1
        · refine .context fun name t ht v hv => ?_
          obtain ⟨l, r, -, hr, rfl⟩ := Ty.mem_joinFields (Ty.mem_sortFields.mp ht)
          exact (ih name r hr v hv l).2
    | null =>
      rw [Ty.join_null, Ty.null_join]
      exact ⟨.context h, .context h⟩
    | _ =>
      simp only [Ty.join]
      exact ⟨.any _, .any _⟩
  | @range s e si ei t ts te hs he ihs ihe =>
    cases b with
    | range u us ue =>
      by_cases heq : Ty.range t ts te = Ty.range u us ue
      · rw [← heq, Ty.join_self]
        exact ⟨.range hs he, .range hs he⟩
      · simp only [Ty.join, if_neg heq, if_neg (Ne.symm heq)]
        exact ⟨.range (fun v hv => (ihs v hv u).1) (fun v hv => (ihe v hv u).1),
          .range (fun v hv => (ihs v hv u).2) (fun v hv => (ihe v hv u).2)⟩
    | null =>
      rw [Ty.join_null, Ty.null_join]
      exact ⟨.range hs he, .range hs he⟩
    | _ =>
      simp only [Ty.join]
      exact ⟨.any _, .any _⟩
  | function f ps ns r =>
    cases b with
    | function qs ms q =>
      constructor <;> simp only [Ty.join] <;> (repeat' split) <;> constructor
    | null =>
      rw [Ty.join_null, Ty.null_join]
      exact ⟨.function .., .function ..⟩
    | _ =>
      simp only [Ty.join]
      exact ⟨.any _, .any _⟩

theorem join_left {v : Value} {a : Ty} (h : Fits v a) (b : Ty) : Fits v (a.join b) := (h.joins b).1

theorem join_right {v : Value} {b : Ty} (h : Fits v b) (a : Ty) : Fits v (a.join b) := (h.joins a).2

/-- What fits one of several types fits the join of all from a first one on. -/
theorem foldl_join {v : Value} {t : Ty} {ts : List Ty} (h : Fits v t ∨ ∃ u ∈ ts, Fits v u) :
    Fits v (ts.foldl Ty.join t) := by
  induction ts generalizing t with
  | nil =>
    rcases h with h | ⟨u, hu, -⟩
    · exact h
    · simp at hu
  | cons u us ih =>
    apply ih
    rcases h with h | ⟨w, hw, h⟩
    · exact .inl (h.join_left u)
    · rcases List.mem_cons.mp hw with rfl | hw
      · exact .inl (h.join_right t)
      · exact .inr ⟨w, hw, h⟩

/-- What fits one of several types fits their join. -/
theorem joinAll {v : Value} {t : Ty} {ts : List Ty} (ht : t ∈ ts) (h : Fits v t) :
    Fits v (Ty.joinAll ts) := by
  cases ts with
  | nil => exact .any v
  | cons u us =>
    refine foldl_join ?_
    rcases List.mem_cons.mp ht with rfl | hmem
    · exact .inl h
    · exact .inr ⟨t, hmem, h⟩

end Fits

/-! ### Values that share a place -/

namespace Datum

/-- Each item of a list has a counterpart in a list that is the same. -/
theorem exists_of_sameList {as bs : List Value} (h : sameList as bs = true) {a : Value}
    (ha : a ∈ as) : ∃ b ∈ bs, a.same b = true := by
  induction as generalizing bs with
  | nil => simp at ha
  | cons x xs ih =>
    cases bs with
    | nil => simp [sameList] at h
    | cons y ys =>
      rw [sameList, Bool.and_eq_true] at h
      rcases List.mem_cons.mp ha with rfl | ha
      · exact ⟨y, List.mem_cons_self, h.1⟩
      · obtain ⟨b, hb, hab⟩ := ih h.2 ha
        exact ⟨b, List.mem_cons_of_mem _ hb, hab⟩

/-- And the other way round. -/
theorem exists_of_sameList_right {as bs : List Value} (h : sameList as bs = true) {b : Value}
    (hb : b ∈ bs) : ∃ a ∈ as, a.same b = true := by
  induction as generalizing bs with
  | nil =>
    cases bs with
    | nil => simp at hb
    | cons y ys => simp [sameList] at h
  | cons x xs ih =>
    cases bs with
    | nil => simp [sameList] at h
    | cons y ys =>
      rw [sameList, Bool.and_eq_true] at h
      rcases List.mem_cons.mp hb with rfl | hb
      · exact ⟨x, List.mem_cons_self, h.1⟩
      · obtain ⟨a, ha, hab⟩ := ih h.2 hb
        exact ⟨a, List.mem_cons_of_mem _ ha, hab⟩

/-- Each entry of a context has a counterpart in a context that is the same. -/
theorem exists_of_sameEntries {as bs : List (String × Value)} (h : sameEntries as bs = true)
    {name : String} {a : Value} (ha : (name, a) ∈ as) :
    ∃ b, bs.lookup name = some b ∧ a.same b = true := by
  induction as with
  | nil => simp at ha
  | cons x xs ih =>
    obtain ⟨other, v⟩ := x
    rw [sameEntries, Bool.and_eq_true] at h
    rcases List.mem_cons.mp ha with heq | ha
    · rw [Prod.mk.injEq] at heq
      obtain ⟨rfl, rfl⟩ := heq
      split at h
      · next b hb => exact ⟨b, hb, h.1⟩
      · simp at h
    · exact ih h.2 ha

/-- A bound that is the same as a present one. -/
theorem exists_of_sameBound {a b : Option Value} (h : sameBound a b = true) {v : Value}
    (hv : a = some v) : ∃ w, b = some w ∧ v.same w = true := by
  subst hv
  cases b with
  | none => simp [sameBound] at h
  | some w => exact ⟨w, rfl, by simpa [sameBound] using h⟩

end Datum

namespace Fits

/-- A value that is the same as one that fits fits too. -/
theorem of_same {v w : Value} {t : Ty} (h : Fits v t) (hsame : w.same v = true) : Fits w t := by
  induction h generalizing w with
  | any v => exact .any w
  | @list items t h ih =>
    cases w with
    | list ws =>
      rw [Datum.same] at hsame
      refine .list fun x hx => ?_
      obtain ⟨y, hy, hxy⟩ := Datum.exists_of_sameList hsame hx
      exact ih y hy hxy
    | _ => simp [Datum.same] at hsame
  | @context entries fields h ih =>
    cases w with
    | context ws =>
      rw [Datum.same, Bool.and_eq_true] at hsame
      refine .context fun name t ht x hx => ?_
      obtain ⟨y, hy, hxy⟩ := Datum.exists_of_sameEntries hsame.2 (Ty.mem_of_lookup hx)
      exact ih name t ht y hy hxy
    | _ => simp [Datum.same] at hsame
  | @range s e si ei t ts te hs he ihs ihe =>
    cases w with
    | range ws we wsi wei =>
      simp only [Datum.same, Bool.and_eq_true] at hsame
      refine .range (fun x hx => ?_) (fun x hx => ?_)
      · obtain ⟨y, hy, hxy⟩ := Datum.exists_of_sameBound hsame.1.1.1 hx
        exact ihs y hy hxy
      · obtain ⟨y, hy, hxy⟩ := Datum.exists_of_sameBound hsame.1.1.2 hx
        exact ihe y hy hxy
    | _ => simp [Datum.same] at hsame
  | _ => cases w <;> first | (simp [Datum.same] at hsame; done) | constructor

/-! ### Elements -/

/-- Where one number fits, every number does. -/
theorem number_of_number {a : Number} {t : Ty} (h : Fits (.number a) t) (n : Number) :
    Fits (.number n) t := by
  cases h with
  | any => exact .any _
  | number => exact .number _ _

/-- Where one date fits, every date does. -/
theorem date_of_date {a : Date} {t : Ty} (h : Fits (.date a) t) (d : Date) :
    Fits (.date d) t := by
  cases h with
  | any => exact .any _
  | date => exact .date _

/-- The elements of a range of whole numbers are numbers. -/
theorem exists_number_of_expandWhole {s e : Int} {si ei : Bool} {vs : List Value}
    (hvs : Domain.expandWhole s e si ei = .ok vs) {x : Value} (hx : x ∈ vs) :
    ∃ n, x = .number n := by
  unfold Domain.expandWhole at hvs
  extract_lets at hvs
  split at hvs
  · rw [Except.ok.injEq] at hvs
    simp [← hvs] at hx
  · split at hvs
    · simp at hvs
    · rw [Except.ok.injEq] at hvs
      rw [← hvs, Domain.wholes, List.mem_map] at hx
      obtain ⟨i, -, rfl⟩ := hx
      exact ⟨_, rfl⟩

/-- The elements of a range of dates are dates. -/
theorem exists_date_of_expandDates {s e : Date} {si ei : Bool} {vs : List Value}
    (hvs : Domain.expandDates s e si ei = .ok vs) {x : Value} (hx : x ∈ vs) :
    ∃ d, x = .date d := by
  unfold Domain.expandDates at hvs
  extract_lets at hvs
  split at hvs
  · simp at hvs
  · rw [Except.ok.injEq] at hvs
    rw [← hvs, List.mem_map] at hx
    obtain ⟨d, -, rfl⟩ := hx
    exact ⟨d, rfl⟩

/-- The elements of a range fit what its first bound fits. -/
theorem expand {s e : Option Value} {si ei : Bool} {vs : List Value} {t : Ty}
    (hvs : Domain.expand s e si ei = .ok vs) (hs : ∀ v, s = some v → Fits v t) {x : Value}
    (hx : x ∈ vs) : Fits x t := by
  unfold Domain.expand at hvs
  split at hvs
  · split at hvs
    · obtain ⟨n, rfl⟩ := exists_number_of_expandWhole hvs hx
      exact (hs _ rfl).number_of_number n
    · rw [Except.ok.injEq] at hvs
      simp [← hvs] at hx
  · obtain ⟨d, rfl⟩ := exists_date_of_expandDates hvs hx
    exact (hs _ rfl).date_of_date d
  · rw [Except.ok.injEq] at hvs
    simp [← hvs] at hx

/-- The elements that an iteration takes from a value fit the element type. -/
theorem elements {v : Value} {t : Ty} (h : Fits v t) {vs : List Value}
    (hvs : Domain.elements v = .ok vs) {x : Value} (hx : x ∈ vs) : Fits x t.elementType := by
  cases h with
  | null t =>
    rw [Domain.elements, Except.ok.injEq] at hvs
    simp [← hvs] at hx
  | any v => exact .any x
  | list h =>
    rw [Domain.elements, Except.ok.injEq] at hvs
    exact h x (hvs ▸ hx)
  | range hs he =>
    rw [Domain.elements] at hvs
    exact expand hvs hs hx
  | _ =>
    rw [Domain.elements, Except.ok.injEq] at hvs
    · rw [← hvs, List.mem_singleton] at hx
      rw [hx]
      constructor
      try assumption
    all_goals simp

end Fits

/-! ### Members -/

namespace Datum

theorem members_eq_map (name : String) (items : List Value) :
    members name items = items.map (member name) := by
  induction items with
  | nil => rfl
  | cons v vs ih => rw [members, ih, List.map_cons]

/-- A member that lists do not have themselves is that of the elements. -/
theorem member_list {name : String} (hsize : name ≠ "size") (hempty : name ≠ "isEmpty")
    (hnot : name ≠ "isNotEmpty") (items : List Value) :
    member name (.list items) = .list (items.map (member name)) := by
  rw [member, members_eq_map]
  · exact hsize
  · exact hempty
  · exact hnot

end Datum

/-- The members of lists: their own, or those of the elements. -/
theorem Ty.member?_list {name : String} {t u : Ty} (h : (Ty.list t).member? name = some u) :
    (name = "size" ∧ u = .number .integer) ∨
    ((name = "isEmpty" ∨ name = "isNotEmpty") ∧ u = .boolean) ∨
    (name ≠ "size" ∧ name ≠ "isEmpty" ∧ name ≠ "isNotEmpty" ∧
      ∃ w, t.member? name = some w ∧ u = .list w) := by
  simp only [member?, beq_iff_eq, Bool.or_eq_true] at h
  split at h
  · next hsize => exact .inl ⟨hsize, (Option.some.inj h).symm⟩
  · next hsize =>
    split at h
    · next hempty => exact .inr (.inl ⟨hempty, (Option.some.inj h).symm⟩)
    · next hempty =>
      rw [not_or] at hempty
      obtain ⟨w, hw, rfl⟩ := Option.map_eq_some_iff.mp h
      exact .inr (.inr ⟨hsize, hempty.1, hempty.2, w, hw, rfl⟩)

namespace Fits

theorem dayTimeMember (nanos : Int) (name : String) (k : NumberKind) :
    Fits (Datum.dayTimeMember nanos name) (.number k) := by
  unfold Datum.dayTimeMember
  split <;> constructor

theorem yearMonthMember (months : Int) (name : String) (k : NumberKind) :
    Fits (Datum.yearMonthMember months name) (.number k) := by
  unfold Datum.yearMonthMember
  split <;> constructor

theorem strings {α : Type} (f : α → String) (as : List α) :
    Fits (.list (as.map fun a => .string (f a))) (.list .string) := by
  refine .list fun v hv => ?_
  obtain ⟨a, -, rfl⟩ := List.mem_map.mp hv
  exact .string _

/-- The members of a function, where its type has them. -/
theorem functionMember (f : FunctionValue) {name : String} {u : Ty}
    (hu : Ty.functionMember? name = some u) : Fits (Datum.functionMember f name) u := by
  unfold Ty.functionMember? at hu
  split at hu
  · cases hu
    unfold Datum.functionMember
    split <;> first | contradiction | constructor
  · cases hu
    unfold Datum.functionMember
    split <;> first | contradiction | exact strings _ _ | constructor
  · cases hu
    exact strings id _
  · contradiction

/-- The members of a value fit the types of the members. -/
theorem member {v : Value} {t u : Ty} {name : String} (h : Fits v t)
    (hu : t.member? name = some u) : Fits (v.member name) u := by
  induction h generalizing u with
  | null t => exact .null u
  | any v =>
    rw [Ty.member?, Option.some.injEq] at hu
    rw [← hu]
    exact .any _
  | boolean | number => simp [Ty.member?] at hu
  | string s =>
    simp only [Ty.member?, Ty.stringMember?] at hu
    split at hu <;> cases hu <;> constructor
  | date d | dateTimeAsDate t =>
    simp only [Ty.member?, Ty.dateMember?] at hu
    split at hu <;> cases hu <;> constructor
  | time t | dateTimeAsTime t =>
    simp only [Ty.member?, Ty.timeMember?] at hu
    split at hu <;> cases hu <;> constructor
  | dateTime t =>
    simp only [Ty.member?, Ty.dateTimeMember?] at hu
    split at hu <;> cases hu <;> constructor
  | dayTimeDuration nanos =>
    simp only [Ty.member?] at hu
    split at hu <;> cases hu
    exact dayTimeMember nanos name .long
  | yearMonthDuration months =>
    simp only [Ty.member?] at hu
    split at hu <;> cases hu
    exact yearMonthMember months.toInt name .long
  | @list items t h ih =>
    rcases Ty.member?_list hu with ⟨rfl, rfl⟩ | ⟨rfl | rfl, rfl⟩ | ⟨h₁, h₂, h₃, w, hw, rfl⟩
    · exact .number _ _
    · exact .boolean _
    · exact .boolean _
    · rw [Datum.member_list h₁ h₂ h₃]
      refine .list fun x hx => ?_
      obtain ⟨y, hy, rfl⟩ := List.mem_map.mp hx
      exact ih y hy hw
  | @context entries fields h ih =>
    rw [Ty.member?] at hu
    rw [Datum.member]
    cases hv : entries.lookup name with
    | none => exact .null u
    | some v => exact h name u (Ty.mem_of_lookup hu) v hv
  | @range s e si ei t ts te hs he ihs ihe =>
    have hbound : ∀ b : Option Value, (∀ v, b = some v → Fits v t) → Fits (b.getD .null) t := by
      intro b hb
      cases b with
      | none => exact .null t
      | some v => exact hb v rfl
    simp only [Ty.member?, beq_iff_eq, Bool.or_eq_true] at hu
    split at hu
    · next hname =>
      cases hu
      rcases hname with rfl | rfl
      · exact hbound s hs
      · exact hbound e he
    · split at hu
      · next hname =>
        cases hu
        rcases hname with rfl | rfl <;> exact .boolean _
      · contradiction
  | function f ps ns r => exact functionMember f hu

end Fits

/-! ## Types found twice -/

/-- Two types of a value agree. -/
inductive Agree : Value → Ty → Ty → Prop
  | same (v : Value) (t : Ty) : Agree v t t
  | any (v : Value) (f : Ty) : Agree v f .any
  | null (f t : Ty) : Agree .null f t
  | listAny (v : Value) (a : Ty) : Agree v (.list a) (.list .any)
  | item {items : List Value} {v : Value} {a b : Ty} (hv : v ∈ items) (h : Agree v a b) :
      Agree (.list items) (.list a) (.list b)

/-- A value fits both of its types, and they agree. -/
structure Meets (v : Value) (f t : Ty) : Prop where
  lowered : Fits v f
  written : Fits v t
  agree : Agree v f t

/-- A value fits its type, which is the same both times. -/
theorem Meets.of_fits {v : Value} {t : Ty} (h : Fits v t) : Meets v t t := ⟨h, h, .same v t⟩

theorem Meets.null (f t : Ty) : Meets .null f t := ⟨.null f, .null t, .null f t⟩

/-- Values meet types pairwise. -/
inductive MeetsAll : List Value → List Ty → List Ty → Prop
  | nil : MeetsAll [] [] []
  | cons {v : Value} {f t : Ty} {vs : List Value} {fs ts : List Ty} (h : Meets v f t)
      (hs : MeetsAll vs fs ts) : MeetsAll (v :: vs) (f :: fs) (t :: ts)

namespace MeetsAll

theorem lowered {vs : List Value} {fs ts : List Ty} (h : MeetsAll vs fs ts) :
    List.Forall₂ Fits vs fs := by
  induction h with
  | nil => exact .nil
  | cons h _ ih => exact .cons h.lowered ih

theorem written {vs : List Value} {fs ts : List Ty} (h : MeetsAll vs fs ts) :
    List.Forall₂ Fits vs ts := by
  induction h with
  | nil => exact .nil
  | cons h _ ih => exact .cons h.written ih

end MeetsAll

/-! ### Joins -/

/-- What a list type gives when joined with other types: a list type, itself or any type. -/
theorem Ty.join_list_cases (t : Ty) :
    (∃ c, t = .list c) ∨ t = .null ∨
      ∀ a, t.join (.list a) = .any ∧ (Ty.list a).join t = .any := by
  cases t with
  | list c => exact .inl ⟨c, rfl⟩
  | null => exact .inr (.inl rfl)
  | _ => exact .inr (.inr fun a => by simp [Ty.join])

namespace Agree

/-- Joining both types with a third one on the left. -/
theorem join_same_left {w : Value} {g u : Ty} (h : Agree w g u) (t : Ty) :
    Agree w (t.join g) (t.join u) := by
  induction h generalizing t with
  | same w g => exact .same w _
  | any w g => rw [Ty.join_any]; exact .any w _
  | null g u => exact .null _ _
  | listAny w a =>
    rcases Ty.join_list_cases t with ⟨c, rfl⟩ | rfl | ht
    · rw [Ty.list_join_list, Ty.list_join_list, Ty.join_any]
      exact .listAny w _
    · rw [Ty.null_join, Ty.null_join]
      exact .listAny w a
    · rw [(ht a).1, (ht .any).1]
      exact .same w _
  | @item items v a b hv h ih =>
    rcases Ty.join_list_cases t with ⟨c, rfl⟩ | rfl | ht
    · rw [Ty.list_join_list, Ty.list_join_list]
      exact .item hv (ih c)
    · rw [Ty.null_join, Ty.null_join]
      exact .item hv h
    · rw [(ht a).1, (ht b).1]
      exact .same _ _

/-- Joining both types with a third one on the right. -/
theorem join_same_right {v : Value} {f t : Ty} (h : Agree v f t) (u : Ty) :
    Agree v (f.join u) (t.join u) := by
  induction h generalizing u with
  | same v f => exact .same v _
  | any v f => rw [Ty.any_join]; exact .any v _
  | null f t => exact .null _ _
  | listAny v a =>
    rcases Ty.join_list_cases u with ⟨c, rfl⟩ | rfl | hu
    · rw [Ty.list_join_list, Ty.list_join_list, Ty.any_join]
      exact .listAny v _
    · rw [Ty.join_null, Ty.join_null]
      exact .listAny v a
    · rw [(hu a).2, (hu .any).2]
      exact .same v _
  | @item items x a b hx h ih =>
    rcases Ty.join_list_cases u with ⟨c, rfl⟩ | rfl | hu
    · rw [Ty.list_join_list, Ty.list_join_list]
      exact .item hx (ih c)
    · rw [Ty.join_null, Ty.join_null]
      exact .item hx h
    · rw [(hu a).2, (hu b).2]
      exact .same _ _

/-- The joins of the types of two values agree for one of them. -/
theorem join {v w : Value} {f t g u : Ty} (h : Agree v f t) (h' : Agree w g u) :
    Agree v (f.join g) (t.join u) ∨ Agree w (f.join g) (t.join u) := by
  induction h generalizing w g u with
  | same v f => exact .inr (h'.join_same_left f)
  | any v f => rw [Ty.any_join]; exact .inl (.any v _)
  | null f t => exact .inl (.null _ _)
  | listAny v a =>
    cases h' with
    | same w g => exact .inl ((listAny v a).join_same_right g)
    | any w g => rw [Ty.join_any]; exact .inr (.any w _)
    | null g u => exact .inr (.null _ _)
    | listAny w b => 
      rw [Ty.list_join_list, Ty.list_join_list, Ty.any_join]
      exact .inl (.listAny v _)
    | item hw hwb =>
      rw [Ty.list_join_list, Ty.list_join_list, Ty.any_join]
      exact .inl (.listAny v _)
  | item hx hxa ih =>
    cases h' with
    | same w g => exact .inl ((item hx hxa).join_same_right g)
    | any w g => rw [Ty.join_any]; exact .inr (.any w _)
    | null g u => exact .inr (.null _ _)
    | listAny w b =>
      rw [Ty.list_join_list, Ty.list_join_list, Ty.join_any]
      exact .inr (.listAny w _)
    | item hy hyb =>
      rw [Ty.list_join_list, Ty.list_join_list]
      rcases ih hyb with hleft | hright
      · exact .inl (.item hx hleft)
      · exact .inr (.item hy hright)

end Agree

/-- Two types agree for one of some values, or whatever the values are. -/
def Covers (vs : List Value) (f t : Ty) : Prop := f = t ∨ t = .any ∨ ∃ v ∈ vs, Agree v f t

namespace Covers

theorem of_agree {vs : List Value} {v : Value} {f t : Ty} (hv : v ∈ vs) (h : Agree v f t) :
    Covers vs f t := .inr (.inr ⟨v, hv, h⟩)

/-- Another value, with its types joined to those before. -/
theorem join {vs : List Value} {w : Value} {f t g u : Ty} (h : Covers vs f t)
    (hw : Agree w g u) : Covers (vs ++ [w]) (f.join g) (t.join u) := by
  have hmem : w ∈ vs ++ [w] := by simp
  rcases h with rfl | rfl | ⟨v, hv, h⟩
  · exact of_agree hmem (hw.join_same_left f)
  · exact .inr (.inl (Ty.any_join u))
  · rcases h.join hw with h | h
    · exact of_agree (List.mem_append_left _ hv) h
    · exact of_agree hmem h

/-- Several more values. -/
theorem foldl_join {vs ws : List Value} {f t : Ty} {gs us : List Ty} (h : Covers vs f t)
    (hws : MeetsAll ws gs us) : Covers (vs ++ ws) (gs.foldl Ty.join f) (us.foldl Ty.join t) := by
  induction hws generalizing vs f t with
  | nil => rw [List.append_nil]; exact h
  | @cons w g u ws gs us hw hws ih =>
    rw [List.append_cons]
    exact ih (h.join hw.agree)

/-- The types of a list cover its items. -/
theorem items {items : List Value} {f t : Ty} (h : Agree (.list items) f t)
    (hf : Fits (.list items) f) : Covers items f.elementType t.elementType := by
  cases h with
  | same => exact .inl rfl
  | any => exact .inr (.inl rfl)
  | listAny => exact .inr (.inl rfl)
  | item hv h => exact of_agree hv h

/-- The types of lists with all the values as elements agree. -/
theorem list {vs : List Value} {f t : Ty} (h : Covers vs f t) :
    Agree (.list vs) (.list f) (.list t) := by
  rcases h with rfl | rfl | ⟨v, hv, h⟩
  · exact .same _ _
  · exact .listAny _ _
  · exact .item hv h

end Covers

/-! ### Equal values -/

namespace Agree

/-- The types of a value agree for one that is the same. -/
theorem of_same {v w : Value} {f t : Ty} (h : Agree v f t) (hsame : w.same v = true) :
    Agree w f t := by
  induction h generalizing w with
  | same v t => exact .same w t
  | any v f => exact .any w f
  | null f t =>
    cases w with
    | null => exact .null f t
    | _ => simp [Datum.same] at hsame
  | listAny v a => exact .listAny w a
  | item hv h ih =>
    cases w with
    | list ws =>
      rw [Datum.same] at hsame
      obtain ⟨x, hx, hxv⟩ := Datum.exists_of_sameList_right hsame hv
      exact .item hx (ih hxv)
    | _ => simp [Datum.same] at hsame

/-- The types of a value agree for one that equals it. -/
theorem of_equal {v w : Value} {f t : Ty} (h : Agree v f t) (hequal : w.equal v = true) :
    Agree w f t := by
  unfold Datum.equal at hequal
  split at hequal
  · cases h with
    | same => exact .same _ _
    | any => exact .any _ _
    | listAny => exact .listAny _ _
  · cases h with
    | same => exact .same _ _
    | any => exact .any _ _
    | listAny => exact .listAny _ _
  · exact h.of_same hequal

end Agree

/-! ### Members and items -/

/-- A member of two list types: their own, which has one type, or that of the elements. -/
theorem Ty.member?_lists {name : String} {a b f t : Ty}
    (hf : (Ty.list a).member? name = some f) (ht : (Ty.list b).member? name = some t) :
    f = t ∨ (name ≠ "size" ∧ name ≠ "isEmpty" ∧ name ≠ "isNotEmpty" ∧
      ∃ x y, a.member? name = some x ∧ b.member? name = some y ∧ f = .list x ∧ t = .list y) := by
  rcases Ty.member?_list hf with ⟨hn, rfl⟩ | ⟨hn, rfl⟩ | ⟨h₁, h₂, h₃, x, hx, rfl⟩ <;>
    rcases Ty.member?_list ht with ⟨hm, rfl⟩ | ⟨hm, rfl⟩ | ⟨h₁', h₂', h₃', y, hy, rfl⟩
  case inr.inr.inr.inr => exact .inr ⟨h₁, h₂, h₃, x, y, hx, hy, rfl, rfl⟩
  case inl.inl | inr.inl.inr.inl => exact .inl rfl
  all_goals simp_all

namespace Agree

/-- The types of a member agree. -/
theorem member {v : Value} {f t f' t' : Ty} {name : String} (h : Agree v f t)
    (hf : f.member? name = some f') (ht : t.member? name = some t') :
    Agree (v.member name) f' t' := by
  induction h generalizing f' t' with
  | same v t =>
    rw [hf, Option.some.injEq] at ht
    rw [ht]
    exact .same _ _
  | any v f =>
    rw [Ty.member?, Option.some.injEq] at ht
    rw [← ht]
    exact .any _ _
  | null f t => exact .null f' t'
  | listAny v a =>
    rcases Ty.member?_lists hf ht with rfl | ⟨-, -, -, x, y, -, hy, rfl, rfl⟩
    · exact .same _ _
    · rw [Ty.member?, Option.some.injEq] at hy
      rw [← hy]
      exact .listAny _ _
  | @item items w a b hw h ih =>
    rcases Ty.member?_lists hf ht with rfl | ⟨h₁, h₂, h₃, x, y, hx, hy, rfl, rfl⟩
    · exact .same _ _
    · rw [Datum.member_list h₁ h₂ h₃]
      exact .item (List.mem_map_of_mem hw) (ih hx hy)

end Agree

/-- A value that has no order to any other. -/
def Unordered (v : Value) : Prop := ∀ w, v.order? w = none ∧ w.order? v = none

theorem unordered_null : Unordered .null := fun w => by cases w <;> simp [Datum.order?]

theorem unordered_list (items : List Value) : Unordered (.list items) :=
  fun w => by cases w <;> simp [Datum.order?]

namespace Builtin

/-- Past an item without order there is no best one. -/
theorem extremeFrom_of_unordered {wanted : Ordering} {best v : Value} {vs : List Value}
    (hv : Unordered v) (hmem : v ∈ vs) : extremeFrom wanted best vs = .null := by
  induction vs generalizing best with
  | nil => simp at hmem
  | cons w ws ih =>
    rw [extremeFrom]
    split
    · next o ho =>
      rcases List.mem_cons.mp hmem with rfl | hmem
      · rw [(hv best).1] at ho
        contradiction
      · exact ih hmem
    · rfl

/-- The best of items one of which has no order is that item alone, or null. -/
theorem extreme_of_unordered {wanted : Ordering} {v : Value} {vs : List Value}
    (hv : Unordered v) (hmem : v ∈ vs) :
    extreme wanted vs = v ∨ extreme wanted vs = .null := by
  cases vs with
  | nil => simp at hmem
  | cons w ws =>
    rw [extreme]
    rcases List.mem_cons.mp hmem with rfl | hmem
    · cases ws with
      | nil => exact .inl rfl
      | cons x xs =>
        rw [extremeFrom, (hv x).2]
        exact .inr rfl
    · exact .inr (extremeFrom_of_unordered hv hmem)

/-- The best of some items is one of them, or null. -/
theorem extremeFrom_mem (wanted : Ordering) (best : Value) (vs : List Value) :
    extremeFrom wanted best vs = .null ∨ extremeFrom wanted best vs ∈ best :: vs := by
  induction vs generalizing best with
  | nil => exact .inr (List.mem_singleton_self best)
  | cons v vs ih =>
    rw [extremeFrom]
    split
    · next o ho =>
      rcases ih (if o = wanted then v else best) with h | h
      · exact .inl h
      · refine .inr ?_
        rcases List.mem_cons.mp h with h | h
        · rw [h]
          split <;> simp
        · exact List.mem_cons_of_mem _ (List.mem_cons_of_mem _ h)
    · exact .inl rfl

theorem extreme_mem (wanted : Ordering) (vs : List Value) :
    extreme wanted vs = .null ∨ extreme wanted vs ∈ vs := by
  cases vs with
  | nil => exact .inl rfl
  | cons v vs => exact extremeFrom_mem wanted v vs

/-- What is kept of equal items includes one that equals each item. -/
theorem exists_distinctFrom {kept vs : List Value} {v : Value}
    (h : v ∈ vs ∨ v ∈ kept ∨ ∃ w ∈ kept, w.equal v = true) :
    ∃ w ∈ distinctFrom kept vs, w = v ∨ w.equal v = true := by
  induction vs generalizing kept with
  | nil =>
    rcases h with h | h | ⟨w, hw, heq⟩
    · simp at h
    · exact ⟨v, h, .inl rfl⟩
    · exact ⟨w, hw, .inr heq⟩
  | cons x xs ih =>
    rw [distinctFrom]
    apply ih
    by_cases hany : kept.any (·.equal x) = true
    · rw [if_pos hany]
      rcases h with h | h
      · rcases List.mem_cons.mp h with rfl | h
        · obtain ⟨w, hw, heq⟩ := List.any_eq_true.mp hany
          exact .inr (.inr ⟨w, hw, heq⟩)
        · exact .inl h
      · exact .inr h
    · rw [if_neg hany]
      rcases h with h | h | ⟨w, hw, heq⟩
      · rcases List.mem_cons.mp h with rfl | h
        · exact .inr (.inl (by simp))
        · exact .inl h
      · exact .inr (.inl (by simp [h]))
      · exact .inr (.inr ⟨w, by simp [hw], heq⟩)

/-- What is kept of equal items are items. -/
theorem mem_of_mem_distinctFrom {kept vs : List Value} {v : Value}
    (h : v ∈ distinctFrom kept vs) : v ∈ kept ∨ v ∈ vs := by
  induction vs generalizing kept with
  | nil => exact .inl h
  | cons x xs ih =>
    rw [distinctFrom] at h
    rcases ih h with h | h
    · split at h
      · exact .inl h
      · rcases List.mem_append.mp h with h | h
        · exact .inl h
        · exact .inr (by simp [List.mem_singleton.mp h])
    · exact .inr (List.mem_cons_of_mem _ h)

theorem mem_of_mem_distinct {vs : List Value} {v : Value} (h : v ∈ distinct vs) : v ∈ vs := by
  rcases mem_of_mem_distinctFrom h with h | h
  · simp at h
  · exact h

end Builtin

/-- The types of items agree for the best of them. -/
theorem Covers.extreme {vs : List Value} {f t : Ty} (h : Covers vs f t) (wanted : Ordering) :
    Agree (Builtin.extreme wanted vs) f t := by
  rcases h with rfl | rfl | ⟨v, hv, h⟩
  · exact .same _ _
  · exact .any _ _
  · have hbest : Unordered v → Agree (Builtin.extreme wanted vs) f t := by
      intro hun
      rcases Builtin.extreme_of_unordered hun hv with heq | heq
      · rw [heq]; exact h
      · rw [heq]; exact .null f t
    cases h with
    | same => exact .same _ _
    | any => exact .any _ _
    | listAny => exact .listAny _ _
    | null => exact hbest unordered_null
    | item hx hxa => exact hbest (unordered_list _)

/-- The types of items agree for what is kept of them. -/
theorem Covers.distinct {vs : List Value} {f t : Ty} (h : Covers vs f t) :
    Covers (Builtin.distinct vs) f t := by
  rcases h with rfl | rfl | ⟨v, hv, h⟩
  · exact .inl rfl
  · exact .inr (.inl rfl)
  · obtain ⟨w, hw, heq⟩ := @Builtin.exists_distinctFrom [] vs v (.inl hv)
    rcases heq with rfl | heq
    · exact .of_agree hw h
    · exact .of_agree hw (h.of_equal heq)

end Feel
