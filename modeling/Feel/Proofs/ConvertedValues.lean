import Feel.Proofs.ExactArithmetic
import Feel.Proofs.MemberInstances

/-!
# Converted values

Conversion gives null or an instance of the target, where the elements of lists may be null in
turn, and leaves what it gave as it is. A number that has reached a representation, in one step
or in two, stays there; a list of one is unwrapped until there is nothing left to unwrap; what is
wrapped is an element of a list from then on.

* `Number.kind_of_convert?`, `Number.convert?_again`: the number that a conversion gives.
* `Datum.Settled`: an instance, or null, that conversion leaves as it is.
* `Datum.convert_nullableInstance_idempotent`: converted values are settled.
-/

namespace Feel

/-! ### Numbers -/

namespace Number

variable {n m : Number} {k : NumberKind}

/-- A converted number has the representation that was asked for. -/
theorem kind_of_convert? (h : n.convert? k = some m) : k = .number ∨ m.kind = k := by
  cases k with
  | number => exact .inl rfl
  | integer =>
    obtain ⟨l, -, hl⟩ := Option.bind_eq_some_iff.mp h
    obtain ⟨i, -, rfl⟩ := Option.map_eq_some_iff.mp hl
    exact .inr rfl
  | long =>
    cases n with
    | decimal d =>
      obtain ⟨l, -, rfl⟩ := Option.map_eq_some_iff.mp h
      exact .inr rfl
    | _ =>
      cases h
      exact .inr rfl
  | double | decimal =>
    cases h
    exact .inr rfl

/-- A number stays as it is in its own representation. -/
theorem convert?_kind (n : Number) : n.convert? n.kind = some n := by
  cases n with
  | integer i =>
    have hfits : int32? i.toInt64.toInt = some i := by
      have hlow := i.le_toInt
      have hhigh := i.toInt_lt
      rw [Int32.toInt_toInt64, int32?, if_pos (by omega), Int32.ofInt_toInt]
    show (some i.toInt64).bind (fun l => (int32? l.toInt).map integer) = _
    rw [Option.bind_some, hfits, Option.map_some]
  | _ => rfl

/-- A converted number is converted to itself. -/
theorem convert?_again (h : n.convert? k = some m) : m.convert? k = some m := by
  rcases kind_of_convert? h with rfl | rfl
  · rfl
  · exact convert?_kind m

end Number

/-! ### Values -/

namespace Datum

variable {v : Value} {T : Ty}

theorem unwrap_unwrap : ∀ v : Value, v.unwrap.unwrap = v.unwrap
  | list [v] => unwrap_unwrap v
  | list [] | list (_ :: _ :: _) => rfl
  | null | boolean _ | number _ | string _ | date _ | time _ | dateTime _ | dayTimeDuration _
  | yearMonthDuration _ | context _ | range _ _ _ _ | function _ => rfl

theorem convert_eq_convertSingle (hany : T ≠ .any) (hlist : ∀ e, T ≠ .list e) (v : Value) :
    v.convert T = v.unwrap.convertSingle T := by
  cases T with
  | any => exact absurd rfl hany
  | list e => exact absurd rfl (hlist e)
  | _ => rfl

/-- Null or an instance of a type, where elements may be null in turn, that conversion to the type
leaves as it is. -/
structure Settled (T : Ty) (v : Value) : Prop where
  nullableInstance : T.NullableInstance v
  convert_self : v.convert T = v

namespace Settled

theorem null (T : Ty) : Settled T .null := by
  refine ⟨.null T, ?_⟩
  cases T <;> rfl

theorem list {e : Ty} {items : List Value} (h : ∀ v ∈ items, Settled e v) :
    Settled (.list e) (.list items) := by
  refine ⟨.list fun v hv => (h v hv).nullableInstance, ?_⟩
  have hitems : items.map (Datum.convert e) = items :=
    (List.map_congr_left fun v hv => (h v hv).convert_self).trans (List.map_id items)
  exact congrArg Datum.list hitems

theorem number {n : Number} {k : NumberKind} (h : n.convert? k = some n) :
    Settled (.number k) (.number n) := by
  refine ⟨.instance ?_, ?_⟩
  · show (Ty.number n.kind).conformsTo (.number k) = true
    rcases Number.kind_of_convert? h with rfl | rfl
    · cases n <;> rfl
    · rw [Ty.conformsTo, Ty.compat, Ty.compatTo, NumberKind.compat, if_pos rfl]
      rfl
  · show ofNumber? ((n.convert? k).or _) = _
    rw [h, Option.some_or]
    rfl

/-- A number reaches the representation at once or by way of an integer. -/
theorem convertNumber (n : Number) (k : NumberKind) : Settled (.number k) (convertNumber n k) := by
  unfold Datum.convertNumber
  cases hm : (n.convert? k).or ((n.convert? .long).bind (·.convert? k)) with
  | none => exact null _
  | some m =>
    rcases Option.or_eq_some_iff.mp hm with h | ⟨-, h⟩
    · exact number (Number.convert?_again h)
    · obtain ⟨l, -, hl⟩ := Option.bind_eq_some_iff.mp h
      exact number (Number.convert?_again hl)

/-- What has nothing to unwrap, at a type that is no list. -/
theorem convertSingle (hany : T ≠ .any) (hlist : ∀ e, T ≠ .list e) (hv : v.unwrap = v) :
    Settled T (v.convertSingle T) := by
  have hconvert : v.convert T = v.convertSingle T := by
    rw [convert_eq_convertSingle hany hlist, hv]
  generalize hw : v.convertSingle T = w at hconvert ⊢
  unfold Datum.convertSingle at hw
  split at hw
  · cases hw
    exact null T
  · next n k =>
    cases hw
    exact convertNumber n k
  · cases hw
    exact ⟨.instance rfl, rfl⟩
  · cases hw
    exact ⟨.instance rfl, rfl⟩
  · split at hw
    · next hinstance =>
      cases hw
      exact ⟨.instance hinstance, hconvert⟩
    · cases hw
      exact null T

end Settled

/-- Converted values are settled. -/
theorem settled_convert (T : Ty) (v : Value) : Settled T (v.convert T) := by
  cases T with
  | any => exact ⟨.instance rfl, rfl⟩
  | list e =>
    have hwrapped : Settled (.list e) (.list [v.convert e]) :=
      .list (List.forall_mem_singleton.mpr (settled_convert e v))
    cases v with
    | null => exact .null _
    | list items =>
      refine .list fun w hw => ?_
      obtain ⟨x, -, rfl⟩ := List.mem_map.mp hw
      exact settled_convert e x
    | _ => exact hwrapped
  | _ => exact .convertSingle nofun nofun (unwrap_unwrap v)
termination_by sizeOf T

/-- **Conversion is sound and idempotent.** A converted value is null or an instance of the target,
where the elements of lists may be null in turn, and it is converted to itself. -/
theorem convert_nullableInstance_idempotent (v : Value) (T : Ty) :
    T.NullableInstance (v.convert T) ∧ (v.convert T).convert T = v.convert T :=
  ⟨(settled_convert T v).nullableInstance, (settled_convert T v).convert_self⟩

end Datum

end Feel
