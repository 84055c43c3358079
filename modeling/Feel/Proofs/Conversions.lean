import Feel.Value.Convert
import Feel.Proofs.PlainValues
import Feel.Proofs.TypeDistances

/-!
# Conversion without loss

A distance of `convertible` promises that values reach the target without loss. Numbers reach
decimals, instants reach dates and lists reach lists of any element. Three kinds of values do
not: an instant that becomes a time, and a context or a range with a part that would have to be
converted itself. These become null.

* `Ty.Lossless`: the forms that a type and a target have at that distance.
* `Datum.Dropped`: the values that conversion has no case for.
* `Datum.convert_eq_null_iff`: conversion gives null for these values and no others.
-/

namespace Feel

/-! ### The types -/

namespace Ty

/-- The forms of a type and of a target that it converts to without loss. -/
inductive Lossless : Ty → Ty → Prop
  | decimal (kind : NumberKind) : Lossless (number kind) (number .decimal)
  | date : Lossless dateTime date
  | time : Lossless dateTime time
  | list (a b : Ty) : Lossless (list a) (list b)
  | context (a b : List (String × Ty)) : Lossless (context a) (context b)
  | range (a b : Ty) (sa ea sb eb : Option Bool) : Lossless (range a sa ea) (range b sb eb)
  | function (ps qs : List Ty) (ns ms : Option (List String)) (r q : Ty) :
      Lossless (function ps ns r) (function qs ms q)

/-- Among number kinds only decimals are reached by a conversion that loses nothing. -/
theorem lossless_number {i j : NumberKind} (h : i.compat j = .convertible) :
    Lossless (number i) (number j) := by
  obtain rfl : j = .decimal := by
    cases i <;> cases j <;> first | rfl | cases h
  exact .decimal i

theorem lossless_of_compat {s t : Ty} (h : s.compat t = .convertible) : Lossless s t := by
  cases t with
  | any =>
    rw [compat, compatTo] at h
    split at h <;> cases h
  | number j =>
    cases s with
    | number i => exact lossless_number h
    | _ => cases h
  | date =>
    cases s with
    | dateTime => exact .date
    | _ => cases h
  | time =>
    cases s with
    | dateTime => exact .time
    | _ => cases h
  | dateTime => cases s <;> cases h
  | list b =>
    cases s with
    | list a => exact .list a b
    | _ => cases h
  | context b =>
    cases s with
    | context a => exact .context a b
    | _ => cases h
  | range b sb eb =>
    cases s with
    | range a sa ea => exact .range a b sa ea sb eb
    | _ => cases h
  | function qs ms q =>
    cases s with
    | function ps ns r => exact .function ps qs ns ms r q
    | _ => cases h
  | _ => cases s <;> cases h

end Ty

/-! ### Instances -/

namespace Ty

variable {κ : Type}

theorem areInstances_iff {fields : List (String × Ty)} {entries : List (String × Datum κ)} :
    areInstances fields entries = true ↔
      ∀ field ∈ fields, ∃ v, entries.lookup field.1 = some v ∧ field.2.isInstance v = true := by
  induction fields with
  | nil => simp [areInstances]
  | cons field fields ih =>
    obtain ⟨name, t⟩ := field
    rw [areInstances, Bool.and_eq_true, ih, List.forall_mem_cons]
    refine and_congr_left fun _ => ?_
    cases entries.lookup name <;> simp

end Ty

namespace Datum

variable {κ : Type}

theorem lookup_entryTypes (entries : List (String × Datum κ)) (name : String) :
    (entryTypes entries).lookup name = (entries.lookup name).map type := by
  induction entries with
  | nil => rfl
  | cons e entries ih =>
    obtain ⟨other, v⟩ := e
    rw [entryTypes, List.lookup_cons, List.lookup_cons, ih]
    cases name == other <;> rfl

/-- The entries of a context that some conversion leads to fields: each field has one. -/
theorem exists_entry {entries : List (String × Datum κ)} {fields : List (String × Ty)}
    (h : ((context entries).type.compat (.context fields)).rank ≤ 4) {field : String × Ty}
    (hfield : field ∈ fields) : ∃ v, entries.lookup field.1 = some v := by
  rw [type] at h
  obtain ⟨t, ht, -⟩ := ((Ty.rank_compat_context (by decide) _ _).mp h).2 field hfield
  rw [lookup_entryTypes, Option.map_eq_some_iff] at ht
  obtain ⟨v, hv, -⟩ := ht
  exact ⟨v, hv⟩

/-! ### Values -/

/-- The values that conversion has no case for: an instant as a time, a context with an entry
that is not yet an instance of its field, and a range with a bound that is not yet one of its
element type. -/
inductive Dropped : Datum κ → Ty → Prop
  | instant (t : DateTime) : Dropped (dateTime t) .time
  | entry {entries : List (String × Datum κ)} {fields : List (String × Ty)}
      {field : String × Ty} {v : Datum κ} (hfield : field ∈ fields)
      (hentry : entries.lookup field.1 = some v) (h : field.2.isInstance v = false) :
      Dropped (context entries) (.context fields)
  | start {v : Datum κ} {finish : Option (Datum κ)} {si ei : Bool} {element : Ty}
      {sb eb : Option Bool} (h : element.isInstance v = false) :
      Dropped (range (some v) finish si ei) (.range element sb eb)
  | finish {start : Option (Datum κ)} {v : Datum κ} {si ei : Bool} {element : Ty}
      {sb eb : Option Bool} (h : element.isInstance v = false) :
      Dropped (range start (some v) si ei) (.range element sb eb)

/-- Contexts with an entry for each field are dropped when they are no instances. -/
theorem dropped_context_iff {entries : List (String × Datum κ)} {fields : List (String × Ty)}
    (hentries : ∀ field ∈ fields, ∃ v, entries.lookup field.1 = some v) :
    Dropped (context entries) (.context fields) ↔ Ty.areInstances fields entries = false := by
  rw [← Bool.not_eq_true, Ty.areInstances_iff]
  constructor
  · rintro (_ | ⟨hfield, hentry, h⟩) hall
    obtain ⟨w, hw, hinstance⟩ := hall _ hfield
    obtain rfl : _ = w := Option.some.inj (hentry.symm.trans hw)
    exact Bool.noConfusion (h.symm.trans hinstance)
  · intro h
    by_contra hdropped
    refine h fun field hfield => ?_
    obtain ⟨v, hv⟩ := hentries field hfield
    refine ⟨v, hv, ?_⟩
    by_contra hinstance
    exact hdropped (.entry hfield hv (Bool.not_eq_true _ ▸ hinstance))

/-- Ranges are dropped when they are no instances. -/
theorem dropped_range_iff {start finish : Option (Datum κ)} {si ei : Bool} {element : Ty}
    {sb eb : Option Bool} :
    Dropped (range start finish si ei) (.range element sb eb) ↔
      (Ty.range element sb eb).isInstance (range start finish si ei) = false := by
  rw [Ty.isInstance, Bool.and_eq_false_iff]
  constructor
  · rintro (_ | _ | h | h)
    · exact .inl h
    · exact .inr h
  · rintro (h | h)
    · cases start with
      | some v => exact .start h
      | none => cases h
    · cases finish with
      | some v => exact .finish h
      | none => cases h

theorem convert_list_ne_null {v : Datum κ} (hv : v ≠ .null) (element : Ty) :
    v.convert (.list element) ≠ .null := by
  cases v <;> simp [convert] at hv ⊢

/-- What is converted to a form of its own becomes null unless it is an instance. -/
theorem ite_null_eq_null_iff {v : Datum κ} (hv : v ≠ .null) (b : Bool) :
    (if b = true then v else .null) = .null ↔ b = false := by
  cases b <;> simp [hv]

/-- **Conversion without loss.** A value that is not null, at a type that its own type converts to
without loss, becomes null for exactly the values that conversion drops. -/
theorem convert_eq_null_iff {v : Datum κ} {T : Ty} (hv : v.Plain) (hnull : v ≠ .null)
    (h : v.type.compat T = .convertible) : v.convert T = .null ↔ v.Dropped T := by
  have hrank : (v.type.compat T).rank ≤ 4 := by
    rw [h]
    decide
  have hform := Ty.lossless_of_compat h
  cases hv with
  | null => exact absurd rfl hnull
  | number n =>
    cases hform with
    | decimal =>
      refine iff_of_false (fun hconvert => ?_) nofun
      simp [convert, convertSingle, unwrap, convertNumber, Number.convert?, ofNumber?] at hconvert
  | dateTime t =>
    cases hform with
    | date => exact iff_of_false nofun nofun
    | time => exact iff_of_true rfl (.instant t)
  | list _ =>
    rw [type_list] at hform
    cases hform with
    | list => exact iff_of_false (convert_list_ne_null hnull _) nofun
  | context _ =>
    rw [type] at hform
    cases hform with
    | context _ fields =>
      rw [dropped_context_iff fun field hfield => exists_entry hrank hfield]
      exact ite_null_eq_null_iff hnull _
  | range _ _ =>
    rw [type] at hform
    cases hform with
    | range =>
      rw [dropped_range_iff]
      exact ite_null_eq_null_iff hnull _
  | _ => cases hform

/-- An instant converts to its date but becomes null as a time, and an integer in a context becomes
null with it where the field is a decimal. -/
theorem convert_eq_null_iff_instant :
    let t : DateTime := ⟨⟨2020, 1, 2, by decide⟩, ⟨11045, 0, by decide⟩⟩
    let v : Value := dateTime t
    let c : Value := context [("a", int 1)]
    let T : Ty := .context [("a", .number .decimal)]
    (v.Plain ∧ v ≠ .null ∧ v.type.compat .date = .convertible ∧
        v.type.compat .time = .convertible) ∧
      (c.Plain ∧ c ≠ .null ∧ c.type.compat T = .convertible) ∧
      v.convert .date ≠ .null ∧ v.convert .time = .null ∧ c.convert T = .null := by
  intro t v c T
  have hv : v.Plain := .dateTime t
  have hc : c.Plain := .context fun e he => by
    rw [List.mem_singleton.mp he]
    exact .number _
  have hdropped : c.Dropped T := .entry (List.mem_singleton.mpr rfl) rfl rfl
  refine ⟨⟨hv, nofun, rfl, rfl⟩, ⟨hc, nofun, rfl⟩, ?_, ?_, ?_⟩
  · have hkept : ¬ (dateTime t : Value).Dropped .date := nofun
    exact mt (convert_eq_null_iff hv nofun rfl).mp hkept
  · exact (convert_eq_null_iff hv nofun rfl).mpr (.instant t)
  · exact (convert_eq_null_iff hc nofun rfl).mpr hdropped

end Datum

end Feel
