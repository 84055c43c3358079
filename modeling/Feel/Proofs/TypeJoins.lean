import Mathlib.Data.List.Nodup
import Mathlib.Data.List.Perm.Basic
import Feel.Proofs.PlainValues

/-!
# Joins of types form a semilattice

Among types whose contexts have each field name once, the join is idempotent, commutative and
associative, and types stay of this kind. The fields of a join of two different contexts are
sorted by name, so that they are determined by what each name is looked up to; only a context
that is joined with itself keeps an order of its own. The type of a list does therefore not
depend on the order of its items.

* `Ty.Distinct`: each context in a type has each field name once.
* `Ty.Family`: types of different families join to any type.
* `Ty.Joined`: the fields of a join of contexts.
* `Ty.join_comm`, `Ty.join_assoc`: the laws of joins.
* `Datum.Keyed`: each context in a value has each name once.
* `Ty.join_semilattice`: the laws together, and the types of permuted lists.
-/

namespace Feel

namespace Ty

/-! ### Types with distinct field names -/

/-- Every context in a type has each field name once. -/
inductive Distinct : Ty → Prop
  | any : Distinct any
  | null : Distinct null
  | number (kind : NumberKind) : Distinct (number kind)
  | string : Distinct string
  | boolean : Distinct boolean
  | date : Distinct date
  | time : Distinct time
  | dateTime : Distinct dateTime
  | dayTimeDuration : Distinct dayTimeDuration
  | yearMonthDuration : Distinct yearMonthDuration
  | list {element : Ty} (h : Distinct element) : Distinct (list element)
  | context {fields : List (String × Ty)} (names : (fields.map (·.1)).Nodup)
      (h : ∀ field ∈ fields, Distinct field.2) : Distinct (context fields)
  | range {element : Ty} {si ei : Option Bool} (h : Distinct element) :
      Distinct (range element si ei)
  | function {params : List Ty} {names : Option (List String)} {result : Ty}
      (h : ∀ t ∈ params, Distinct t) (hresult : Distinct result) :
      Distinct (function params names result)

end Ty

/-! ### Entries with distinct names -/

namespace Entries

variable {α : Type} {entries others : List (String × α)} {name : String} {a : α}

theorem lookup_eq_some_iff_mem (h : (entries.map (·.1)).Nodup) :
    entries.lookup name = some a ↔ (name, a) ∈ entries := by
  refine ⟨Ty.mem_of_lookup, fun hmem => ?_⟩
  obtain ⟨before, after, rfl⟩ := List.append_of_mem hmem
  refine List.lookup_eq_some_iff.mpr ⟨before, after, rfl, fun p hp => ?_⟩
  rw [List.map_append, List.nodup_append] at h
  simpa using (h.2.2 p.1 (List.mem_map_of_mem hp) name (by simp)).symm

theorem nodup_of_names (h : (entries.map (·.1)).Nodup) : entries.Nodup :=
  List.Nodup.of_map _ h

/-- Entries in which every name is looked up to the same are the same up to their order. -/
theorem perm_of_lookup (h : (entries.map (·.1)).Nodup) (h' : (others.map (·.1)).Nodup)
    (hlookup : ∀ name, entries.lookup name = others.lookup name) : entries.Perm others := by
  refine (List.perm_ext_iff_of_nodup (nodup_of_names h) (nodup_of_names h')).mpr fun e => ?_
  rw [← lookup_eq_some_iff_mem h, ← lookup_eq_some_iff_mem h', hlookup]

theorem lookup_of_perm (h : (entries.map (·.1)).Nodup) (hperm : entries.Perm others) :
    entries.lookup name = others.lookup name := by
  have h' : (others.map (·.1)).Nodup := (hperm.map _).nodup_iff.mp h
  refine Option.ext fun a => ?_
  rw [lookup_eq_some_iff_mem h, lookup_eq_some_iff_mem h', hperm.mem_iff]

end Entries

namespace Ty

/-! ### Sorted fields -/

/-- Fields in the order of their names. -/
def Sorted (fields : List (String × Ty)) : Prop := fields.Pairwise fun a b => a.1 ≤ b.1

theorem sorted_sortFields (fields : List (String × Ty)) : Sorted (sortFields fields) := by
  have hle : ∀ a b : String × Ty, (!decide (b.1 < a.1)) = true ↔ a.1 ≤ b.1 := by
    intro a b
    rw [Bool.not_eq_true', decide_eq_false_iff_not, String.not_lt]
  have h : (sortFields fields).Pairwise fun a b => (!decide (b.1 < a.1)) = true := by
    refine List.pairwise_mergeSort (fun a b c hab hbc => ?_) (fun a b => ?_) fields
    · exact (hle a c).mpr (String.le_trans ((hle a b).mp hab) ((hle b c).mp hbc))
    · rw [Bool.or_eq_true, hle, hle]
      exact String.le_total a.1 b.1
  exact h.imp fun hab => (hle _ _).mp hab

/-- Sorted fields with distinct names are determined by what the names are looked up to. -/
theorem Sorted.eq_of_lookup {a b : List (String × Ty)} (ha : Sorted a) (hb : Sorted b)
    (hna : (a.map (·.1)).Nodup) (hnb : (b.map (·.1)).Nodup)
    (h : ∀ name, a.lookup name = b.lookup name) : a = b := by
  have hperm := Entries.perm_of_lookup hna hnb h
  refine hperm.eq_of_pairwise (fun x y hx hy hxy hyx => ?_) ha hb
  have hname : x.1 = y.1 := String.le_antisymm hxy hyx
  have hx' := (Entries.lookup_eq_some_iff_mem hna).mpr hx
  rw [hname, (Entries.lookup_eq_some_iff_mem hna).mpr (hperm.mem_iff.mpr hy)] at hx'
  exact Prod.ext hname (Option.some.inj hx').symm

/-! ### Common fields -/

/-- The fields that two contexts have in common, with their types combined. -/
def commonFields (f : Ty → Ty → Ty) (a b : List (String × Ty)) : List (String × Ty) :=
  a.filterMap fun field => (b.lookup field.1).map fun u => (field.1, f field.2 u)

/-- What a name is looked up to in the common fields. -/
def commonField (f : Ty → Ty → Ty) (a b : Option Ty) : Option Ty := a.bind fun t => b.map (f t)

theorem commonField_eq_some {f : Ty → Ty → Ty} {a b : Option Ty} {v : Ty}
    (h : commonField f a b = some v) : ∃ t u, a = some t ∧ b = some u ∧ f t u = v := by
  obtain ⟨t, ht, h⟩ := Option.bind_eq_some_iff.mp h
  obtain ⟨u, hu, h⟩ := Option.map_eq_some_iff.mp h
  exact ⟨t, u, ht, hu, h⟩

theorem lookup_commonFields (f : Ty → Ty → Ty) (a b : List (String × Ty)) (name : String) :
    (commonFields f a b).lookup name = commonField f (a.lookup name) (b.lookup name) := by
  induction a with
  | nil => rfl
  | cons field fields ih =>
    obtain ⟨other, t⟩ := field
    rw [commonFields, List.filterMap_cons, ← commonFields, List.lookup_cons]
    by_cases hname : name = other
    · subst hname
      cases hb : b.lookup name with
      | none => simp [ih, hb, commonField]
      | some u => simp [commonField]
    · have hbeq : (name == other) = false := by simpa using hname
      rw [hbeq, ← ih]
      cases b.lookup other with
      | none => rfl
      | some u => simp [List.lookup_cons, hbeq]

theorem names_commonFields_sublist (f : Ty → Ty → Ty) (a b : List (String × Ty)) :
    ((commonFields f a b).map (·.1)).Sublist (a.map (·.1)) := by
  induction a with
  | nil => exact .slnil
  | cons field fields ih =>
    rw [commonFields, List.filterMap_cons, ← commonFields]
    cases b.lookup field.1 with
    | none => exact ih.cons _
    | some u => exact ih.cons_cons _

theorem joinFields_eq (a b : List (String × Ty)) : joinFields a b = commonFields join a b := by
  induction a with
  | nil => rfl
  | cons field fields ih =>
    obtain ⟨name, t⟩ := field
    rw [joinFields, commonFields, List.filterMap_cons, ← commonFields, ih]
    cases b.lookup name with
    | none => rfl
    | some u => rfl

/-- The fields of a join of contexts: the common ones, sorted unless nothing was to be joined. -/
structure Joined (a b c : List (String × Ty)) : Prop where
  names : (c.map (·.1)).Nodup
  lookup : ∀ name, c.lookup name = commonField join (a.lookup name) (b.lookup name)
  order : Sorted c ∨ a = b ∧ c = a

theorem exists_joined {a b : List (String × Ty)} (ha : (a.map (·.1)).Nodup) :
    ∃ c, (context a).join (context b) = context c ∧ Joined a b c := by
  by_cases h : a = b
  · subst h
    refine ⟨a, join_self _, ha, fun name => ?_, .inr ⟨rfl, rfl⟩⟩
    cases a.lookup name with
    | none => rfl
    | some t => simp [commonField]
  · have hne : context a ≠ context b := fun e => h (context.inj e)
    have hnames := (joinFields_eq a b ▸ names_commonFields_sublist join a b).nodup ha
    have hperm : (sortFields (joinFields a b)).Perm (joinFields a b) := List.mergeSort_perm ..
    have hsorted := (hperm.map (·.1)).nodup_iff.mpr hnames
    refine ⟨sortFields (joinFields a b), by simp only [join, if_neg hne], hsorted,
      fun name => ?_, .inl (sorted_sortFields _)⟩
    rw [Entries.lookup_of_perm hsorted hperm, joinFields_eq, lookup_commonFields]

/-! ### Joins of other structures -/

/-- What two optional settings have in common. -/
def agreed {α : Type} [DecidableEq α] (a b : Option α) : Option α := if a = b then a else none

theorem agreed_comm {α : Type} [DecidableEq α] (a b : Option α) : agreed a b = agreed b a := by
  unfold agreed
  split_ifs <;> simp_all

theorem agreed_assoc {α : Type} [DecidableEq α] (a b c : Option α) :
    agreed (agreed a b) c = agreed a (agreed b c) := by
  unfold agreed
  split_ifs <;> simp_all

theorem range_join_range (a b : Ty) (sa ea sb eb : Option Bool) :
    (range a sa ea).join (range b sb eb) = range (a.join b) (agreed sa sb) (agreed ea eb) := by
  by_cases h : range a sa ea = range b sb eb
  · cases h
    simp [agreed]
  · simp only [join, if_neg h, agreed]

theorem joinParams_eq (ps qs : List Ty) : joinParams ps qs = ps.zipWith join qs := by
  induction ps generalizing qs with
  | nil => rfl
  | cons p ps ih =>
    cases qs with
    | nil => rfl
    | cons q qs => rw [joinParams, ih, List.zipWith_cons_cons]

theorem zipWith_join_self (ps : List Ty) : ps.zipWith join ps = ps := by
  induction ps with
  | nil => rfl
  | cons p ps ih => rw [List.zipWith_cons_cons, ih, join_self]

theorem function_join_function {ps qs : List Ty} (h : ps.length = qs.length)
    (ns ms : Option (List String)) (r s : Ty) :
    (function ps ns r).join (function qs ms s) =
      function (ps.zipWith join qs) (agreed ns ms) (r.join s) := by
  by_cases heq : function ps ns r = function qs ms s
  · cases heq
    rw [join_self, zipWith_join_self, join_self]
    simp [agreed]
  · simp only [join, if_neg heq, if_pos h, joinParams_eq, agreed]

theorem function_join_function_of_ne {ps qs : List Ty} (h : ps.length ≠ qs.length)
    (ns ms : Option (List String)) (r s : Ty) :
    (function ps ns r).join (function qs ms s) = any := by
  have hne : function ps ns r ≠ function qs ms s := by
    intro heq
    cases heq
    exact h rfl
  simp only [join, if_neg hne, if_neg h]

/-! ### Families -/

/-- The families that types are joined in; dates, times and instants are one of them. -/
inductive Family where
  | any | null | number | string | boolean | instant | dayTimeDuration | yearMonthDuration
  | list | context | range | function
  deriving DecidableEq

/-- The family of a type. -/
def family : Ty → Family
  | any => .any
  | null => .null
  | number _ => .number
  | string => .string
  | boolean => .boolean
  | date | time | dateTime => .instant
  | dayTimeDuration => .dayTimeDuration
  | yearMonthDuration => .yearMonthDuration
  | list _ => .list
  | context _ => .context
  | range _ _ _ => .range
  | function _ _ _ => .function

variable {s t u : Ty}

theorem join_of_family_ne (hs : s ≠ null) (ht : t ≠ null) (h : s.family ≠ t.family) :
    s.join t = any := by
  have hne : s ≠ t := fun e => h (congrArg family e)
  unfold join
  rw [if_neg hne]
  split <;> simp_all [family]

/-- A join stays in the family of a side that is not null, or is any type. -/
theorem family_join (hs : s ≠ null) : (s.join t).family = s.family ∨ s.join t = any := by
  unfold join
  split
  · exact .inl rfl
  · split
    · exact absurd rfl hs
    all_goals try first | exact .inl rfl | exact .inr rfl
    split
    · exact .inl rfl
    · exact .inr rfl

theorem join_ne_null (hs : s ≠ null) : s.join t ≠ null := by
  rcases family_join (t := t) hs with h | h
  · intro e
    rw [e] at h
    cases s <;> simp_all [family]
  · simp [h]

/-! ### Commutativity -/

/-- Joins of two types commute if they do so within a family. -/
theorem join_comm_of_family
    (h : s ≠ null → t ≠ null → s.family = t.family → s.join t = t.join s) :
    s.join t = t.join s := by
  by_cases hs : s = null
  · rw [hs, null_join, join_null]
  by_cases ht : t = null
  · rw [ht, null_join, join_null]
  by_cases hst : s.family = t.family
  · exact h hs ht hst
  · rw [join_of_family_ne hs ht hst, join_of_family_ne ht hs (Ne.symm hst)]

theorem zipWith_join_comm {ps qs : List Ty} (hqs : ∀ q ∈ qs, q.Distinct)
    (h : ∀ p ∈ ps, ∀ q : Ty, q.Distinct → p.join q = q.join p) :
    ps.zipWith join qs = qs.zipWith join ps := by
  induction ps generalizing qs with
  | nil => simp
  | cons p ps ih =>
    cases qs with
    | nil => simp
    | cons q qs =>
      rw [List.forall_mem_cons] at h hqs
      rw [List.zipWith_cons_cons, List.zipWith_cons_cons, h.1 q hqs.1, ih hqs.2 h.2]

/-- Joins of contexts commute if those of the types of their common fields do. -/
theorem context_join_comm {a b : List (String × Ty)} (hna : (a.map (·.1)).Nodup)
    (hnb : (b.map (·.1)).Nodup)
    (h : ∀ n x y, a.lookup n = some x → b.lookup n = some y → x.join y = y.join x) :
    (context a).join (context b) = (context b).join (context a) := by
  obtain ⟨c, hc, joined⟩ := exists_joined (b := b) hna
  obtain ⟨d, hd, joined'⟩ := exists_joined (b := a) hnb
  rw [hc, hd]
  rcases joined.order with hsorted | ⟨rfl, rfl⟩
  · rcases joined'.order with hsorted' | ⟨rfl, rfl⟩
    · refine congrArg _ (hsorted.eq_of_lookup hsorted' joined.names joined'.names fun n => ?_)
      rw [joined.lookup, joined'.lookup]
      cases hx : a.lookup n with
      | none => cases b.lookup n <;> rfl
      | some x =>
        cases hy : b.lookup n with
        | none => rfl
        | some y => simp only [commonField, Option.bind_some, Option.map_some, h n x y hx hy]
    · rw [← hc, join_self]
  · rw [← hd, join_self]

/-- **Joins commute.** -/
theorem join_comm (hs : s.Distinct) (ht : t.Distinct) : s.join t = t.join s := by
  induction hs generalizing t with
  | list _ ih =>
    refine join_comm_of_family fun _ _ hfamily => ?_
    cases ht with
    | list ht => rw [list_join_list, list_join_list, ih ht]
    | _ => simp [family] at hfamily
  | @context a hna ha ih =>
    refine join_comm_of_family fun _ _ hfamily => ?_
    cases ht with
    | @context b hnb hb =>
      exact context_join_comm hna hnb fun n x y hx hy =>
        ih (n, x) (mem_of_lookup hx) (hb (n, y) (mem_of_lookup hy))
    | _ => simp [family] at hfamily
  | @range a sa ea _ ih =>
    refine join_comm_of_family fun _ _ hfamily => ?_
    cases ht with
    | range ht => rw [range_join_range, range_join_range, ih ht, agreed_comm sa, agreed_comm ea]
    | _ => simp [family] at hfamily
  | @function ps ns r _ _ ihps ihr =>
    refine join_comm_of_family fun _ _ hfamily => ?_
    cases ht with
    | @function qs ms q hqs hq =>
      by_cases hlength : ps.length = qs.length
      · rw [function_join_function hlength, function_join_function hlength.symm, ihr hq,
          agreed_comm ns, zipWith_join_comm hqs fun p hp q hq => ihps p hp hq]
      · rw [function_join_function_of_ne hlength, function_join_function_of_ne (Ne.symm hlength)]
    | _ => simp [family] at hfamily
  | number j =>
    refine join_comm_of_family fun _ _ hfamily => ?_
    cases t with
    | number k =>
      by_cases h : j = k
      · rw [h]
      · simp [join, h, Ne.symm h]
    | _ => simp [family] at hfamily
  | _ =>
    refine join_comm_of_family fun _ _ hfamily => ?_
    cases t <;> simp_all [family, join]

/-! ### Associativity -/

/-- Joins of three types associate if they do so within a family: between families all joins
are any type, and so is what they are joined with. -/
theorem join_assoc_of_family (h : s ≠ null → t ≠ null → u ≠ null → s.family = t.family →
    t.family = u.family → (s.join t).join u = s.join (t.join u)) :
    (s.join t).join u = s.join (t.join u) := by
  by_cases hs : s = null
  · rw [hs, null_join, null_join]
  by_cases ht : t = null
  · rw [ht, join_null, null_join]
  by_cases hu : u = null
  · rw [hu, join_null, join_null]
  by_cases hst : s.family = t.family
  · by_cases htu : t.family = u.family
    · exact h hs ht hu hst htu
    · rw [join_of_family_ne ht hu htu, join_any]
      rcases family_join (t := t) hs with h | h
      · exact join_of_family_ne (join_ne_null hs) hu (h ▸ hst ▸ htu)
      · rw [h, any_join]
  · rw [join_of_family_ne hs ht hst, any_join]
    rcases family_join (t := u) ht with h | h
    · exact (join_of_family_ne hs (join_ne_null ht) (h ▸ hst)).symm
    · rw [h, join_any]

theorem zipWith_join_assoc {ps qs rs : List Ty} (hqs : ∀ q ∈ qs, q.Distinct)
    (hrs : ∀ r ∈ rs, r.Distinct)
    (h : ∀ p ∈ ps, ∀ q r : Ty, q.Distinct → r.Distinct → (p.join q).join r = p.join (q.join r)) :
    (ps.zipWith join qs).zipWith join rs = ps.zipWith join (qs.zipWith join rs) := by
  induction ps generalizing qs rs with
  | nil => simp
  | cons p ps ih =>
    cases qs with
    | nil => simp
    | cons q qs =>
      cases rs with
      | nil => simp
      | cons r rs =>
        rw [List.forall_mem_cons] at h hqs hrs
        simp only [List.zipWith_cons_cons, h.1 q r hqs.1 hrs.1, ih hqs.2 hrs.2 h.2]

theorem commonField_assoc {a b c : Option Ty} (h : ∀ t u v, a = some t → b = some u → c = some v →
    (t.join u).join v = t.join (u.join v)) :
    commonField join (commonField join a b) c = commonField join a (commonField join b c) := by
  cases a with
  | none => rfl
  | some t =>
    cases b with
    | none => rfl
    | some u =>
      cases c with
      | none => rfl
      | some v => simp [commonField, h t u v rfl rfl rfl]

/-- Joins of contexts associate if those of the types of their common fields do. -/
theorem context_join_assoc {a b c : List (String × Ty)} (hna : (a.map (·.1)).Nodup)
    (hnb : (b.map (·.1)).Nodup) (h : ∀ n x y z, a.lookup n = some x → b.lookup n = some y →
      c.lookup n = some z → (x.join y).join z = x.join (y.join z)) :
    ((context a).join (context b)).join (context c) =
      (context a).join ((context b).join (context c)) := by
  obtain ⟨ab, hab, jab⟩ := exists_joined (b := b) hna
  obtain ⟨bc, hbc, jbc⟩ := exists_joined (b := c) hnb
  obtain ⟨l, hl, jl⟩ := exists_joined (b := c) jab.names
  obtain ⟨r, hr, jr⟩ := exists_joined (b := bc) hna
  rw [hab, hbc, hl, hr]
  by_cases hall : a = b ∧ b = c
  · obtain ⟨rfl, rfl⟩ := hall
    rw [← hl, ← hr, ← hab, ← hbc, join_self]
  · -- one of the joins has two different sides, and what it sorts stays sorted
    have hsl : Sorted l := by
      rcases jl.order with h | ⟨rfl, rfl⟩
      · exact h
      · rcases jab.order with h | ⟨rfl, rfl⟩
        · exact h
        · exact absurd ⟨rfl, rfl⟩ hall
    have hsr : Sorted r := by
      rcases jr.order with h | ⟨rfl, rfl⟩
      · exact h
      · rcases jbc.order with h | ⟨rfl, rfl⟩
        · exact h
        · exact absurd ⟨rfl, rfl⟩ hall
    refine congrArg _ (hsl.eq_of_lookup hsr jl.names jr.names fun n => ?_)
    rw [jl.lookup, jr.lookup, jab.lookup, jbc.lookup]
    exact commonField_assoc (h n)

/-- Joins of functions associate if those of their parameters and of their results do. -/
theorem function_join_assoc {ps qs os : List Ty} {ns ms ls : Option (List String)} {r q o : Ty}
    (hparams : (ps.zipWith join qs).zipWith join os = ps.zipWith join (qs.zipWith join os))
    (hresult : (r.join q).join o = r.join (q.join o)) :
    ((function ps ns r).join (function qs ms q)).join (function os ls o) =
      (function ps ns r).join ((function qs ms q).join (function os ls o)) := by
  by_cases hpq : ps.length = qs.length
  · have hlength : (ps.zipWith join qs).length = qs.length := by simp [hpq]
    rw [function_join_function hpq]
    by_cases hqo : qs.length = os.length
    · have hlength' : (qs.zipWith join os).length = qs.length := by simp [hqo]
      rw [function_join_function hqo, function_join_function (hlength.trans hqo),
        function_join_function (hpq.trans hlength'.symm), hresult, agreed_assoc, hparams]
    · rw [function_join_function_of_ne hqo, join_any,
        function_join_function_of_ne (hlength ▸ hqo)]
  · rw [function_join_function_of_ne hpq, any_join]
    by_cases hqo : qs.length = os.length
    · have hlength' : (qs.zipWith join os).length = qs.length := by simp [hqo]
      rw [function_join_function hqo, function_join_function_of_ne (hlength' ▸ hpq)]
    · rw [function_join_function_of_ne hqo, join_any]

/-- **Joins associate.** -/
theorem join_assoc (hs : s.Distinct) (ht : t.Distinct) (hu : u.Distinct) :
    (s.join t).join u = s.join (t.join u) := by
  induction hs generalizing t u with
  | list _ ih =>
    refine join_assoc_of_family fun _ _ _ hst htu => ?_
    cases ht with
    | list ht =>
      cases hu with
      | list hu => simp only [list_join_list, ih ht hu]
      | _ => simp [family] at htu
    | _ => simp [family] at hst
  | @context a hna ha ih =>
    refine join_assoc_of_family fun _ _ _ hst htu => ?_
    cases ht with
    | @context b hnb hb =>
      cases hu with
      | @context c hnc hc =>
        refine context_join_assoc hna hnb fun n x y z hx hy hz => ?_
        exact ih (n, x) (mem_of_lookup hx) (hb (n, y) (mem_of_lookup hy))
          (hc (n, z) (mem_of_lookup hz))
      | _ => simp [family] at htu
    | _ => simp [family] at hst
  | @range a sa ea _ ih =>
    refine join_assoc_of_family fun _ _ _ hst htu => ?_
    cases ht with
    | range ht =>
      cases hu with
      | range hu => simp only [range_join_range, ih ht hu, agreed_assoc]
      | _ => simp [family] at htu
    | _ => simp [family] at hst
  | @function ps ns r _ _ ihps ihr =>
    refine join_assoc_of_family fun _ _ _ hst htu => ?_
    cases ht with
    | @function qs ms q hqs hq =>
      cases hu with
      | @function os ls o hos ho =>
        exact function_join_assoc
          (zipWith_join_assoc hqs hos fun p hp q r hq hr => ihps p hp hq hr) (ihr hq ho)
      | _ => simp [family] at htu
    | _ => simp [family] at hst
  | number j =>
    refine join_assoc_of_family fun _ _ _ hst htu => ?_
    cases ht with
    | number k =>
      cases hu with
      | number l => by_cases hjk : j = k <;> by_cases hkl : k = l <;> simp_all [join]
      | _ => simp [family] at htu
    | _ => simp [family] at hst
  | _ =>
    refine join_assoc_of_family fun _ _ _ hst htu => ?_
    cases t <;> simp only [family, reduceCtorEq] at hst <;>
      (cases u <;> simp only [family, reduceCtorEq] at htu <;> simp [join])

/-! ### Types of lists -/

theorem distinct_zipWith_join {ps qs : List Ty} (hqs : ∀ q ∈ qs, q.Distinct)
    (h : ∀ p ∈ ps, ∀ q : Ty, q.Distinct → (p.join q).Distinct) :
    ∀ t ∈ ps.zipWith join qs, t.Distinct := by
  induction ps generalizing qs with
  | nil => simp
  | cons p ps ih =>
    cases qs with
    | nil => simp
    | cons q qs =>
      rw [List.forall_mem_cons] at h hqs
      rw [List.zipWith_cons_cons, List.forall_mem_cons]
      exact ⟨h.1 q hqs.1, ih hqs.2 h.2⟩

theorem distinct_join_of_family (hs : s.Distinct) (ht : t.Distinct)
    (h : s.family = t.family → (s.join t).Distinct) : (s.join t).Distinct := by
  by_cases hs' : s = null
  · rw [hs', null_join]
    exact ht
  by_cases ht' : t = null
  · rw [ht', join_null]
    exact hs
  by_cases hst : s.family = t.family
  · exact h hst
  · rw [join_of_family_ne hs' ht' hst]
    exact .any

/-- Joins have distinct field names where both sides do. -/
theorem Distinct.join (hs : s.Distinct) (ht : t.Distinct) : (s.join t).Distinct := by
  induction hs generalizing t with
  | @list a ha ih =>
    refine distinct_join_of_family (.list ha) ht fun hfamily => ?_
    cases ht with
    | list ht =>
      rw [list_join_list]
      exact .list (ih ht)
    | _ => simp [family] at hfamily
  | @context a hna ha ih =>
    refine distinct_join_of_family (.context hna ha) ht fun hfamily => ?_
    cases ht with
    | @context b hnb hb =>
      obtain ⟨c, hc, joined⟩ := exists_joined (b := b) hna
      rw [hc]
      refine .context joined.names fun ⟨n, v⟩ hv => ?_
      rw [← Entries.lookup_eq_some_iff_mem joined.names, joined.lookup] at hv
      obtain ⟨x, y, hx, hy, rfl⟩ := commonField_eq_some hv
      exact ih (n, x) (mem_of_lookup hx) (hb (n, y) (mem_of_lookup hy))
    | _ => simp [family] at hfamily
  | @range a sa ea ha ih =>
    refine distinct_join_of_family (.range ha) ht fun hfamily => ?_
    cases ht with
    | range ht =>
      rw [range_join_range]
      exact .range (ih ht)
    | _ => simp [family] at hfamily
  | @function ps ns r hps hr ihps ihr =>
    refine distinct_join_of_family (.function hps hr) ht fun hfamily => ?_
    cases ht with
    | @function qs ms q hqs hq =>
      by_cases hlength : ps.length = qs.length
      · rw [function_join_function hlength]
        exact .function (distinct_zipWith_join hqs fun p hp q hq => ihps p hp hq) (ihr hq)
      · rw [function_join_function_of_ne hlength]
        exact .any
    | _ => simp [family] at hfamily
  | number j =>
    refine distinct_join_of_family (.number j) ht fun hfamily => ?_
    cases ht with
    | number k =>
      simp only [Ty.join]
      split
      · exact .number j
      · exact .number .number
    | _ => simp [family] at hfamily
  | _ =>
    refine distinct_join_of_family (by constructor) ht fun hfamily => ?_
    cases t <;> simp only [family, reduceCtorEq] at hfamily <;> simp [Ty.join] <;> constructor

/-- Types are joined to the same, in whatever order they come. -/
theorem foldl_join_perm {ts us : List Ty} (hperm : ts.Perm us) (hts : ∀ t ∈ ts, t.Distinct)
    {acc : Ty} (hacc : acc.Distinct) : ts.foldl join acc = us.foldl join acc := by
  induction hperm generalizing acc with
  | nil => rfl
  | cons t _ ih =>
    rw [List.forall_mem_cons] at hts
    exact ih hts.2 (hacc.join hts.1)
  | swap t u ts =>
    rw [List.forall_mem_cons, List.forall_mem_cons] at hts
    obtain ⟨hu, ht, -⟩ := hts
    rw [List.foldl_cons, List.foldl_cons, List.foldl_cons, List.foldl_cons, join_assoc hacc hu ht,
      join_comm hu ht, ← join_assoc hacc ht hu]
  | trans hperm _ ih ih' =>
    exact (ih hts hacc).trans (ih' (fun t ht => hts t (hperm.mem_iff.mpr ht)) hacc)

theorem joinAll_eq_foldl {ts : List Ty} (h : ts ≠ []) : joinAll ts = ts.foldl join null := by
  cases ts with
  | nil => exact absurd rfl h
  | cons t ts => rw [joinAll, List.foldl_cons, null_join]

theorem joinAll_perm {ts us : List Ty} (hperm : ts.Perm us) (hts : ∀ t ∈ ts, t.Distinct) :
    joinAll ts = joinAll us := by
  by_cases h : ts = []
  · subst h
    rw [hperm.nil_eq]
  · have h' : us ≠ [] := fun e => h (List.Perm.eq_nil (e ▸ hperm))
    rw [joinAll_eq_foldl h, joinAll_eq_foldl h', foldl_join_perm hperm hts .null]

end Ty

/-! ### Types of values -/

namespace Datum

variable {κ : Type}

/-- Each context in a value has each name once. -/
inductive Keyed : Datum κ → Prop
  | null : Keyed .null
  | boolean (b : Bool) : Keyed (.boolean b)
  | number (n : Number) : Keyed (.number n)
  | string (s : String) : Keyed (.string s)
  | date (d : Date) : Keyed (.date d)
  | time (t : Time) : Keyed (.time t)
  | dateTime (t : DateTime) : Keyed (.dateTime t)
  | dayTimeDuration (n : Int) : Keyed (.dayTimeDuration n)
  | yearMonthDuration (m : Int64) : Keyed (.yearMonthDuration m)
  | list {items : List (Datum κ)} (h : ∀ v ∈ items, Keyed v) : Keyed (.list items)
  | context {entries : List (String × Datum κ)} (names : (entries.map (·.1)).Nodup)
      (h : ∀ e ∈ entries, Keyed e.2) : Keyed (.context entries)
  | range {s e : Option (Datum κ)} {si ei : Bool} (hs : ∀ v, s = some v → Keyed v)
      (he : ∀ v, e = some v → Keyed v) : Keyed (.range s e si ei)
  | function (f : Function κ) : Keyed (.function f)

theorem types_eq (vs : List (Datum κ)) : types vs = vs.map type := by
  induction vs with
  | nil => rfl
  | cons v vs ih => rw [types, ih, List.map_cons]

theorem entryTypes_eq (entries : List (String × Datum κ)) :
    entryTypes entries = entries.map fun e => (e.1, e.2.type) := by
  induction entries with
  | nil => rfl
  | cons e entries ih => rw [entryTypes, ih, List.map_cons]

theorem type_list (vs : List (Datum κ)) : (list vs).type = .list (Ty.joinAll (vs.map type)) := by
  rw [type, types_eq]
  cases vs with
  | nil => rfl
  | cons v vs => rfl

/-- The types of values have distinct field names. -/
theorem type_distinct {v : Datum κ} (hplain : v.Plain) (hkeyed : v.Keyed) : v.type.Distinct := by
  induction hplain with
  | @list items _ ih =>
    cases hkeyed with
    | list hkeyed =>
      rw [type_list]
      refine .list ?_
      by_cases h : items.map type = []
      · rw [h]
        exact .any
      · have hitems : ∀ t ∈ items.map type, t.Distinct := by
          intro t ht
          obtain ⟨v, hv, rfl⟩ := List.mem_map.mp ht
          exact ih v hv (hkeyed v hv)
        rw [Ty.joinAll_eq_foldl h]
        refine List.foldlRecOn _ _ Ty.Distinct.null fun acc hacc t ht => hacc.join (hitems t ht)
  | @context entries _ ih =>
    cases hkeyed with
    | context names hkeyed =>
      rw [type, entryTypes_eq]
      refine .context (by rwa [List.map_map]) fun field hfield => ?_
      obtain ⟨e, he, rfl⟩ := List.mem_map.mp hfield
      exact ih e he (hkeyed e he)
  | @range s e si ei _ _ ihs ihe =>
    cases hkeyed with
    | range hs he =>
      rw [type]
      refine .range ?_
      cases s with
      | some v => exact ihs v rfl (hs v rfl)
      | none =>
        cases e with
        | some v => exact ihe v rfl (he v rfl)
        | none => exact .any
  | _ => constructor

/-- The type of a list does not depend on the order of its items. -/
theorem type_list_perm {vs ws : List (Datum κ)} (hplain : ∀ v ∈ vs, v.Plain)
    (hkeyed : ∀ v ∈ vs, v.Keyed) (hperm : vs.Perm ws) : (list vs).type = (list ws).type := by
  rw [type_list, type_list, Ty.joinAll_perm (hperm.map type)]
  intro t ht
  obtain ⟨v, hv, rfl⟩ := List.mem_map.mp ht
  exact type_distinct (hplain v hv) (hkeyed v hv)

end Datum

namespace Ty

/-- **Types with distinct field names form a semilattice under joins**: joins are idempotent,
commutative and associative as plain equations between types. So the type of a list of values
without functions stays the same when its items are permuted. -/
theorem join_semilattice {s t u : Ty} (hs : s.Distinct) (ht : t.Distinct) (hu : u.Distinct)
    {κ : Type} {vs ws : List (Datum κ)} (hplain : ∀ v ∈ vs, v.Plain)
    (hkeyed : ∀ v ∈ vs, v.Keyed) (hperm : vs.Perm ws) :
    s.join s = s ∧ s.join t = t.join s ∧ (s.join t).join u = s.join (t.join u) ∧
      (Datum.list vs).type = (Datum.list ws).type :=
  ⟨join_self s, join_comm hs ht, join_assoc hs ht hu, Datum.type_list_perm hplain hkeyed hperm⟩

/-- The laws at contexts with fields in different orders, in which an instant joins with a date
and with a time, but these do not join with each other. -/
theorem join_semilattice_instants :
    let s := context [("b", date), ("a", number .integer)]
    let t := context [("a", number .integer), ("b", dateTime)]
    let u := context [("c", string), ("b", time), ("a", number .double)]
    let v : Value := .context [("b", .string "x"), ("a", .int 1)]
    let w : Value := .context [("a", .long 2)]
    (s.Distinct ∧ t.Distinct ∧ u.Distinct) ∧
      ((∀ x ∈ [v, w], x.Plain) ∧ (∀ x ∈ [v, w], x.Keyed) ∧ [v, w].Perm [w, v]) ∧
      s.join s = s ∧ s.join t = t.join s ∧ (s.join t).join u = s.join (t.join u) ∧
      (Datum.list [v, w]).type = (Datum.list [w, v]).type := by
  intro s t u v w
  have hs : s.Distinct := .context (by decide) (by simp [Distinct.date, Distinct.number])
  have ht : t.Distinct := .context (by decide) (by simp [Distinct.dateTime, Distinct.number])
  have hu : u.Distinct :=
    .context (by decide) (by simp [Distinct.time, Distinct.string, Distinct.number])
  have hplain : ∀ x ∈ [v, w], x.Plain := by
    rw [List.forall_mem_cons, List.forall_mem_singleton]
    exact ⟨.context (by simp [Datum.Plain.string, Datum.int, Datum.Plain.number]),
      .context (by simp [Datum.long, Datum.Plain.number])⟩
  have hkeyed : ∀ x ∈ [v, w], x.Keyed := by
    rw [List.forall_mem_cons, List.forall_mem_singleton]
    exact ⟨.context (by decide) (by simp [Datum.Keyed.string, Datum.int, Datum.Keyed.number]),
      .context (by decide) (by simp [Datum.long, Datum.Keyed.number])⟩
  have hperm : [v, w].Perm [w, v] := .swap w v []
  exact ⟨⟨hs, ht, hu⟩, ⟨hplain, hkeyed, hperm⟩, join_semilattice hs ht hu hplain hkeyed hperm⟩

end Ty

end Feel
