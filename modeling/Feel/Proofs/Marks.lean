import Feel.Proofs.TypedTerms

/-!
# Families of values

A type with the values that it stands for where they are not null: what an operator on values of
such families gives, when it gives anything, and when it does.

* `Ty.holds`: a value of the family of a type, and not null.
* `Ty.holds_join_left`, `Ty.holds_join_right`: values of either of two types are of their join.
* `Ty.holds_negate`, `Ty.holds_arith`, `Ty.holds_of_temporalResult?`: one for each operator.
-/

namespace Feel

/-! ### Families -/

namespace Ty

/-- Whether a value is of the family of a type, and not null. Numbers of the exact types may have
any representation, others are not binary64 numbers. -/
def holds : Ty → Value → Bool
  | any, v => !v.isNull
  | number k, .number n => Fragment.isExact (number k) || n.kind != .double
  | string, .string _ | boolean, .boolean _ | date, .date _ | date, .dateTime _
  | time, .time _ | time, .dateTime _ | dateTime, .dateTime _
  | dayTimeDuration, .dayTimeDuration _ | yearMonthDuration, .yearMonthDuration _
  | list _, .list _ | context _, .context _ | range _ _ _, .range _ _ _ _
  | function _ _ _, .function _ => true
  | _, _ => false

theorem ne_null_of_holds {t : Ty} {v : Value} (h : t.holds v = true) : v ≠ .null := by
  rintro rfl
  cases t <;> cases h

theorem isNull_of_holds {t : Ty} {v : Value} (h : t.holds v = true) : v.isNull = false := by
  cases v with
  | null => exact absurd rfl (ne_null_of_holds h)
  | _ => rfl

/-- What is not null is of the family of every type. -/
theorem holds_any {v : Value} (h : v ≠ .null) : any.holds v = true := by
  cases v with
  | null => exact absurd rfl h
  | _ => rfl

theorem holds_boolean {v : Value} (h : boolean.holds v = true) : ∃ b, v = .boolean b := by
  cases v <;> first | exact ⟨_, rfl⟩ | cases h

theorem holds_number {k : NumberKind} {v : Value} (h : (number k).holds v = true) :
    ∃ n : Number, v = .number n ∧ (Fragment.isExact (number k) = true ∨ n.kind ≠ .double) := by
  cases v with
  | number n => exact ⟨n, rfl, by simpa [holds] using h⟩
  | _ => cases h

theorem holds_join_left {t : Ty} {v : Value} (h : t.holds v = true) (u : Ty) :
    (t.join u).holds v = true := by
  have hany := holds_any (ne_null_of_holds h)
  unfold join
  split
  · exact h
  · split
    case h_1 => cases h
    case h_2 => exact h
    case h_3 =>
      obtain ⟨n, rfl, -⟩ := holds_number h
      rfl
    case h_11 =>
      split
      · cases v <;> first | rfl | cases h
      · exact hany
    all_goals first | exact hany | (cases v <;> first | rfl | cases h)

theorem holds_join_right {u : Ty} {v : Value} (h : u.holds v = true) (t : Ty) :
    (t.join u).holds v = true := by
  have hany := holds_any (ne_null_of_holds h)
  unfold join
  split
  · next heq => exact heq ▸ h
  · split
    case h_1 => exact h
    case h_2 => cases h
    case h_3 =>
      obtain ⟨n, rfl, -⟩ := holds_number h
      rfl
    case h_11 =>
      split
      · cases v <;> first | rfl | cases h
      · exact hany
    all_goals first | exact hany | (cases v <;> first | rfl | cases h)

/-- Values that share a place are of the same families. -/
theorem holds_of_sharesPlace {t : Ty} {v w : Value} (h : t.holds v = true)
    (hw : w = v ∨ Draft.sharesPlace w v = true) : t.holds w = true := by
  rcases hw with rfl | hw
  · exact h
  rw [Draft.sharesPlace, Bool.and_eq_true, beq_iff_eq] at hw
  obtain ⟨hsame, htype⟩ := hw
  cases w with
  | number m =>
    cases v with
    | number n =>
      have hkind : m.kind = n.kind := by simpa [Datum.type] using htype
      cases t with
      | any => rfl
      | number k => simpa [holds, hkind] using h
      | _ => cases h
    | _ => simp [Datum.same] at hsame
  | _ => cases v <;> first | simp [Datum.same] at hsame; done | (cases t <;> first | rfl | cases h)

end Ty

/-! ### Operators on values -/

namespace Number

theorem kind_ofIntLong (n : Int) : (ofIntLong n).kind ≠ .double := by
  unfold ofIntLong
  split <;> exact nofun

theorem kind_ofInt (n : Int) : (ofInt n).kind ≠ .double := by
  unfold ofInt
  split
  · exact nofun
  · exact kind_ofIntLong n

theorem kind_neg {n : Number} (h : n.kind ≠ .double) : n.neg.kind ≠ .double := by
  cases n with
  | integer n => exact kind_ofInt _
  | long n => exact kind_ofIntLong _
  | double x => exact absurd rfl h
  | decimal d => exact nofun

/-- Sums, differences and products of numbers that are not binary64 are there. -/
theorem native_of_kind (op : RingOp) {m n : Number} (hm : m.kind ≠ .double)
    (hn : n.kind ≠ .double) : ∃ r, op.native m n = some r ∧ r.kind ≠ .double := by
  cases m with
  | double x => exact absurd rfl hm
  | decimal d => exact ⟨_, rfl, nofun⟩
  | integer a =>
    cases n with
    | double x => exact absurd rfl hn
    | decimal d => exact ⟨_, rfl, nofun⟩
    | integer b => exact ⟨_, rfl, kind_ofInt _⟩
    | long b => exact ⟨_, rfl, kind_ofIntLong _⟩
  | long a =>
    cases n with
    | double x => exact absurd rfl hn
    | decimal d => exact ⟨_, rfl, nofun⟩
    | integer b => exact ⟨_, rfl, kind_ofIntLong _⟩
    | long b => exact ⟨_, rfl, kind_ofIntLong _⟩

/-- A literal is no binary64 number. -/
theorem kind_of_parse? {text : String} {n : Number} (h : parse? text = some n) :
    n.kind ≠ .double := by
  unfold parse? at h
  extract_lets cs whole at h
  rcases Option.or_eq_some_iff.mp h with h | ⟨-, h⟩
  · simp only [whole] at h
    split at h
    · obtain ⟨i, -, h⟩ := Option.bind_eq_some_iff.mp h
      rcases Option.or_eq_some_iff.mp h with h | ⟨-, h⟩
      · obtain ⟨_, -, rfl⟩ := Option.map_eq_some_iff.mp h
        exact nofun
      · obtain ⟨_, -, rfl⟩ := Option.map_eq_some_iff.mp h
        exact nofun
    · cases h
  · obtain ⟨d, -, rfl⟩ := Option.map_eq_some_iff.mp h
    exact nofun

end Number

namespace Ty

/-- The types whose values have an opposite. -/
def isNegatable : Ty → Bool
  | number _ | dayTimeDuration | yearMonthDuration => true
  | _ => false

/-- The opposite of a value, where there is one, is of the family of the negated type. -/
theorem holds_negate {t : Ty} {v : Value} (h : t.holds v = true) :
    (Elaboration.negationType t).holds v.negate = true ∨
      v.negate = .null ∧ t.isNegatable = false := by
  cases t with
  | any =>
    by_cases hnull : v.negate = .null
    · exact .inr ⟨hnull, rfl⟩
    · exact .inl (holds_any hnull)
  | number k =>
    obtain ⟨n, rfl, hk⟩ := holds_number h
    refine .inl ?_
    rcases hk with hk | hk
    · simp [Elaboration.negationType, holds, hk]
    · simp [Elaboration.negationType, holds, Number.kind_neg hk]
  | dayTimeDuration => cases v <;> first | exact .inl rfl | cases h
  | yearMonthDuration => cases v <;> first | exact .inl rfl | cases h
  | _ => cases v <;> first | exact .inr ⟨rfl, rfl⟩ | cases h

/-- Arithmetic on numbers of their types gives a number of the result's type, if it gives any;
sums, differences and products are always there. -/
theorem holds_arith {op : Operator} {a b k : NumberKind} {x y : Value}
    (hx : (number a).holds x = true) (hy : (number b).holds y = true)
    (hk : numberResult op a b = number k) {mode : NumericMode}
    (hmode : mode = .native → Fragment.isExact (number k) = false) (precision : Nat) :
    (number k).holds (x.arith op y mode precision) = true ∨
      x.arith op y mode precision = .null ∧ op ≠ .add ∧ op ≠ .sub ∧ op ≠ .mul := by
  obtain ⟨m, rfl, hm⟩ := holds_number hx
  obtain ⟨n, rfl, hn⟩ := holds_number hy
  have hdecimal : ∀ d, (number k).holds (.number (.decimal d)) = true := fun d => by
    simp [holds, Number.kind]
  have hring : ∀ r : Number.RingOp, number (a.max b) = number k →
      (number k).holds (Datum.ofNumber? (if (mode == .decimal) = true then some (r.exact m n)
        else r.native m n)) = true := by
    intro r hmax
    cases mode with
    | decimal => exact hdecimal _
    | native =>
      -- the wider type is not exact, so neither operand is a binary64 number
      have hexact := hmode rfl
      rw [← hmax] at hexact
      have hkinds : m.kind ≠ .double ∧ n.kind ≠ .double := by
        cases a <;> cases b <;> simp_all [Fragment.isExact, NumberKind.max, NumberKind.width]
      obtain ⟨s, hs, hkind⟩ := Number.native_of_kind r hkinds.1 hkinds.2
      simp [hs, Datum.ofNumber?, holds, hkind]
  cases op with
  | add => exact .inl (hring .add hk)
  | sub => exact .inl (hring .sub hk)
  | mul => exact .inl (hring .mul hk)
  | div =>
    change (number k).holds (Datum.ofNumber? (m.divide? n precision)) = true ∨
      Datum.ofNumber? (m.divide? n precision) = (Datum.null : Value) ∧ _
    unfold Number.divide?
    split
    · exact .inr ⟨rfl, by decide⟩
    · exact .inl (hdecimal _)
  | pow =>
    cases hk
    change (number .number).holds (Datum.ofNumber? (m.pow? n)) = true ∨
      Datum.ofNumber? (m.pow? n) = (Datum.null : Value) ∧ _
    cases m.pow? n with
    | none => exact .inr ⟨rfl, by decide⟩
    | some r => exact .inl rfl
  | _ => exact .inr ⟨rfl, by decide⟩

/-- Texts are put together of what is not null. -/
theorem holds_concat {x y : Value} (hx : x ≠ .null) (hy : y ≠ .null) :
    string.holds (x.concat y) = true := by
  cases x <;> cases y <;> first | rfl | exact absurd rfl hx | exact absurd rfl hy

/-- What arithmetic on dates, times and durations gives, if it is not null, is of the family of
its type. -/
theorem holds_of_temporalResult? {op : Operator} {f g t : Ty}
    (ht : temporalResult? op f g = some t) {v : Value} (h : Fits v t) (hv : v ≠ .null) :
    t.holds v = true := by
  unfold temporalResult? at ht
  split at ht <;> cases ht <;> cases h <;> first | rfl | exact absurd rfl hv

/-- Operands of arithmetic on dates, times and durations fit their types. -/
theorem fits_of_temporalResult? {op : Operator} {f g t : Ty}
    (ht : temporalResult? op f g = some t) {x y : Value} (hx : f.holds x = true)
    (hy : g.holds y = true) : Fits x f ∧ Fits y g := by
  have hfits : ∀ {t : Ty} {v : Value}, t.holds v = true → (∀ e, t ≠ .list e) →
      (∀ fs, t ≠ .context fs) → (∀ e a b, t ≠ .range e a b) → (∀ p n r, t ≠ .function p n r) →
      Fits v t := by
    intro t v h hlist hcontext hrange hfunction
    cases t with
    | list e => exact absurd rfl (hlist e)
    | context fs => exact absurd rfl (hcontext fs)
    | range e a b => exact absurd rfl (hrange e a b)
    | function p n r => exact absurd rfl (hfunction p n r)
    | _ => cases v <;> first | constructor | cases h
  unfold temporalResult? at ht
  split at ht <;> cases ht <;>
    exact ⟨hfits hx nofun nofun nofun nofun, hfits hy nofun nofun nofun nofun⟩

end Ty

end Feel
