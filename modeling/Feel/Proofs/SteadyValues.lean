import Mathlib.Data.List.Induction
import Feel.Proofs.Equality
import Feel.Proofs.IntegerRounding
import Feel.Proofs.Marks

/-!
# Values that are the same as themselves

Only what is no number fails to be equal to itself, and no operator gives it: arithmetic refuses
results that are not finite. What operators make of values that are the same as themselves, and
hold no functions, is such a value again, and so are the literals of expressions.

* `Datum.Steady`: a value without functions that is the same as itself.
* `Number.equal_self_of_arith?`: results of arithmetic equal themselves.
* `Fits.steady`: types whose values are all such.
* `Datum.Steady.arith`, `Datum.Steady.temporal` and the laws beside them: one for each operator.
* `Datum.Steady.member`: members of values without parts.
-/

namespace Feel

/-! ### Numbers -/

namespace Binary64

open Float.Model Float.Model.UnpackedFloat

theorem compare_self {f : UnpackedFloat} (h : f ≠ .notANumber) : f.compare f = some .eq := by
  have hself : ∀ (e : Int) (m : Nat), (compare e e).then (compare m m) = .eq := fun e m => by
    rw [compare_eq_iff_eq.mpr rfl, compare_eq_iff_eq.mpr rfl]
    rfl
  cases f with
  | notANumber => exact absurd rfl h
  | infinity sign => cases sign <;> rfl
  | zero sign => cases sign <;> rfl
  | finite sign m e hm =>
    cases sign with
    | positive => exact congrArg some (hself e m)
    | negative => exact congrArg (some ·.swap) (hself e m)

theorem unpack_ne {b : BitVec Format.binary64.numBits}
    (h : unpackExponent b = -1#11 → unpackMantissa b = 0#52) :
    UnpackedFloat.unpack .binary64 b ≠ .notANumber := by
  unfold UnpackedFloat.unpack
  extract_lets mantissa exponent number signBit sign
  split
  · next hexponent =>
    rw [if_pos (h hexponent)]
    exact UnpackedFloat.noConfusion
  · split
    · split <;> exact UnpackedFloat.noConfusion
    · exact UnpackedFloat.noConfusion

/-- What is packed is a number again, if it was one. -/
theorem unpack_pack_ne {f : UnpackedFloat} (h : f ≠ .notANumber) :
    UnpackedFloat.unpack .binary64 (UnpackedFloat.pack .binary64 f) ≠ .notANumber := by
  have hinfinity : ∀ sign, UnpackedFloat.unpack .binary64 (packedInfinity .binary64 sign) ≠
      .notANumber := fun sign => unpack_ne fun _ => by
    rw [packedInfinity, unpackMantissa_packComponents]
    rfl
  cases f with
  | notANumber => exact absurd rfl h
  | infinity sign => exact hinfinity sign
  | zero sign =>
    refine unpack_ne fun hexponent => ?_
    rw [UnpackedFloat.pack, packedZero, unpackExponent_packComponents] at hexponent
    cases hexponent
  | finite sign m e hm =>
    rw [UnpackedFloat.pack]
    generalize (e + Format.binary64.exponentBias +
      Format.binary64.mantissaBitsWithoutImplicit).toNat = exponent
    split
    · exact hinfinity sign
    · next hsmall =>
      have hsmall : exponent + 1 < 2 ^ 11 := Nat.lt_of_not_le hsmall
      split
      · refine unpack_ne fun hexponent => ?_
        -- the exponent of a finite number is not the one of infinities
        rw [unpackExponent_packComponents] at hexponent
        have htoNat := congrArg BitVec.toNat hexponent
        rw [BitVec.toNat_ofNat, Nat.mod_eq_of_lt (by omega)] at htoNat
        have hones : (-1#11).toNat = 2 ^ 11 - 1 := rfl
        omega
      · refine unpack_ne fun hexponent => ?_
        rw [unpackExponent_packComponents] at hexponent
        cases hexponent

theorem beq_self_iff {x : Float} : (x == x) = true ↔ x.toModel.unpack ≠ .notANumber := by
  rw [beq_iff]
  refine ⟨fun h hnan => ?_, compare_self⟩
  rw [hnan] at h
  cases h

theorem beq_self_neg {x : Float} (h : (x == x) = true) : (-x == -x) = true := by
  rw [beq_self_iff] at h ⊢
  have hneg : x.toModel.unpack.neg ≠ .notANumber := by
    cases hx : x.toModel.unpack with
    | notANumber => exact absurd hx h
    | _ => simp [UnpackedFloat.neg]
  exact unpack_pack_ne hneg

theorem beq_self_abs {x : Float} (h : (x == x) = true) : (x.abs == x.abs) = true := by
  rw [beq_self_iff] at h ⊢
  have habs : x.toModel.unpack.abs ≠ .notANumber := by
    cases hx : x.toModel.unpack with
    | notANumber => exact absurd hx h
    | _ => simp [UnpackedFloat.abs]
  exact unpack_pack_ne habs

theorem beq_self_of_isFinite {x : Float} (h : x.isFinite = true) : (x == x) = true := by
  rw [beq_self_iff]
  intro hnan
  have hfinite : x.toModel.unpack.isFinite = true := h
  rw [hnan] at hfinite
  cases hfinite

theorem order?_self {x : Float} (h : (x == x) = true) : order? x x = some .eq := by
  have hlt : ¬ x < x := by
    rw [lt_iff, (beq_iff x x).mp h]
    simp
  rw [order?, if_neg hlt, if_pos h]

end Binary64

namespace Number

variable {a b n : Number}

theorem equal_self_of_kind (h : n.kind ≠ .double) : n.equal n = true := by
  obtain ⟨x, hx⟩ := exists_value h
  exact equal_of_value hx hx

theorem equal_self_double {x : Float} : (double x).equal (double x) = true ↔ (x == x) = true := by
  rw [equal, beq_iff_eq]
  show Binary64.order? x x = some .eq ↔ _
  refine ⟨fun h => ?_, Binary64.order?_self⟩
  unfold Binary64.order? at h
  split at h
  · cases h
  · split at h
    · assumption
    · simp at h

theorem equal_self_neg (h : n.equal n = true) : n.neg.equal n.neg = true := by
  cases n with
  | double x => exact equal_self_double.mpr (Binary64.beq_self_neg (equal_self_double.mp h))
  | integer i => exact equal_self_of_kind (kind_ofInt _)
  | long l => exact equal_self_of_kind (kind_ofIntLong _)
  | decimal d => exact equal_self_of_kind (by simp [neg, kind])

theorem equal_self_of_finite? {x : Float} (h : finite? x = some n) : n.equal n = true := by
  unfold finite? at h
  split at h
  · next hfinite =>
    cases h
    exact equal_self_double.mpr (Binary64.beq_self_of_isFinite hfinite)
  · cases h

theorem equal_self_of_native {op : RingOp} (h : op.native a b = some n) : n.equal n = true := by
  unfold RingOp.native at h
  split at h
  · cases h
    exact equal_self_of_kind (kind_ofInt _)
  · cases h
    exact equal_self_of_kind (kind_ofIntLong _)
  · cases h
    exact equal_self_of_kind (kind_ofIntLong _)
  · cases h
    exact equal_self_of_kind (kind_ofIntLong _)
  · cases h
    exact equal_self_of_kind (by simp [kind])
  · cases h
    exact equal_self_of_kind (by simp [kind])
  · exact equal_self_of_finite? h

theorem equal_self_of_divide? {p : Nat} (h : a.divide? b p = some n) : n.equal n = true := by
  unfold divide? at h
  split at h
  · cases h
  · cases h
    exact equal_self_of_kind (by simp [kind])

theorem kind_narrowed (d : Decimal) : (narrowed d).kind ≠ .double := by
  unfold narrowed
  split
  · split
    · exact kind_ofInt _
    · simp [kind]
  · simp [kind]

theorem equal_self_of_pow? (h : a.pow? b = some n) : n.equal n = true := by
  unfold pow? at h
  split at h
  · obtain ⟨e, -, h⟩ := Option.bind_eq_some_iff.mp h
    exact equal_self_of_finite? h
  · extract_lets e base r r' r'' at h
    split at h
    · split at h
      · cases h
      · split at h
        · cases h
          exact equal_self_of_kind (kind_narrowed _)
        · cases h
          exact equal_self_of_kind (kind_narrowed _)
        · cases h
          exact equal_self_of_kind (by simp [kind])
    · exact equal_self_of_finite? h
  · exact equal_self_of_finite? h

/-- **Results of arithmetic equal themselves**: no operator gives what is no number. -/
theorem equal_self_of_arith? {op : Operator} {isExact : Bool} (h : a.arith? op b isExact = some n) :
    n.equal n = true := by
  have hring : ∀ r : RingOp, (if isExact then some (r.exact a b) else r.native a b) = some n →
      n.equal n = true := by
    intro r hr
    split at hr
    · cases hr
      exact equal_self_of_kind (by simp [RingOp.exact, kind])
    · exact equal_self_of_native hr
  cases op with
  | add => exact hring .add h
  | sub => exact hring .sub h
  | mul => exact hring .mul h
  | div => exact equal_self_of_divide? h
  | pow => exact equal_self_of_pow? h
  | _ => cases h

theorem equal_self_of_literal? {text : String} (h : Elaboration.literal? text = some n) :
    n.equal n = true := by
  unfold Elaboration.literal? at h
  split at h
  · obtain ⟨m, hm, rfl⟩ := Option.map_eq_some_iff.mp h
    exact equal_self_neg (equal_self_of_kind (kind_of_parse? hm))
  · exact equal_self_of_kind (kind_of_parse? h)

end Number

/-! ### Entries -/

namespace Entries

variable {α : Type} {P : α → Prop} {entries : List (String × α)}

theorem forall_insert (h : ∀ e ∈ entries, P e.2) (name : String) {a : α} (ha : P a) :
    ∀ e ∈ insert entries name a, P e.2 := by
  induction entries with
  | nil => exact List.forall_mem_singleton.mpr ha
  | cons entry entries ih =>
    obtain ⟨n, b⟩ := entry
    rw [List.forall_mem_cons] at h
    rw [insert]
    split
    · exact List.forall_mem_cons.mpr ⟨ha, h.2⟩
    · exact List.forall_mem_cons.mpr ⟨h.1, ih h.2⟩

theorem forall_ofList (h : ∀ e ∈ entries, P e.2) : ∀ e ∈ ofList entries, P e.2 := by
  refine List.foldlRecOn entries _ (motive := fun acc : List (String × α) => ∀ e ∈ acc, P e.2)
    (fun _ he => absurd he List.not_mem_nil) fun acc hacc e he => ?_
  exact forall_insert hacc e.1 (h e he)

theorem ofList_concat (entries : List (String × α)) (e : String × α) :
    ofList (entries ++ [e]) = insert (ofList entries) e.1 e.2 := by
  rw [ofList, List.foldl_append]
  rfl

theorem nodup_insert (h : (entries.map (·.1)).Nodup) (name : String) (a : α) :
    ((insert entries name a).map (·.1)).Nodup := by
  rw [map_fst_insert]
  split
  · exact h
  · next hnew =>
    have hone : [name].Nodup := List.nodup_cons.mpr ⟨List.not_mem_nil, List.nodup_nil⟩
    refine List.nodup_append.mpr ⟨h, hone, fun n hn m hm => ?_⟩
    rw [List.mem_singleton.mp hm]
    exact ne_of_mem_of_not_mem hn hnew

/-- Names that are written are different. -/
theorem nodup_ofList (entries : List (String × α)) : ((ofList entries).map (·.1)).Nodup := by
  induction entries using List.reverseRecOn with
  | nil => exact List.nodup_nil
  | append_singleton es e ih =>
    rw [ofList_concat]
    exact nodup_insert ih e.1 e.2

end Entries

/-! ### Values -/

/-- A value without functions in which numbers equal themselves and entries have names of their
own, so that it is the same as itself. -/
inductive Datum.Steady : Value → Prop
  | null : Steady .null
  | boolean (b : Bool) : Steady (.boolean b)
  | number {n : Number} (h : n.equal n = true) : Steady (.number n)
  | string (s : String) : Steady (.string s)
  | date (d : Date) : Steady (.date d)
  | time (t : Time) : Steady (.time t)
  | dateTime (t : DateTime) : Steady (.dateTime t)
  | dayTimeDuration (n : Int) : Steady (.dayTimeDuration n)
  | yearMonthDuration (m : Int64) : Steady (.yearMonthDuration m)
  | list {items : List Value} (h : ∀ v ∈ items, Steady v) : Steady (.list items)
  | context {entries : List (String × Value)} (hnames : (entries.map (·.1)).Nodup)
      (h : ∀ e ∈ entries, Steady e.2) : Steady (.context entries)
  | range {s e : Option Value} {si ei : Bool} (hs : ∀ v, s = some v → Steady v)
      (he : ∀ v, e = some v → Steady v) : Steady (.range s e si ei)

namespace Datum.Steady

variable {v w : Value}

theorem plain (h : v.Steady) : v.Plain := by
  induction h with
  | list _ ih => exact .list ih
  | context _ _ ih => exact .context ih
  | range _ _ ihs ihe => exact .range ihs ihe
  | _ => constructor

theorem same_self (h : v.Steady) : v.same v = true := by
  have hbound : ∀ o : Option Value, (∀ v, o = some v → v.same v = true) →
      Option.Rel (fun a b : Value => a.same b = true) o o := by
    intro o ho
    cases o with
    | none => exact .none
    | some v => exact .some (ho v rfl)
  induction h with
  | number h => rw [same, h]
  | list _ ih => exact same_list_iff.mpr (List.forall₂_same.mpr ih)
  | context hnames _ ih =>
    refine (same_context_iff hnames hnames).mpr fun name => hbound _ fun v hv => ?_
    exact ih (name, v) (Ty.mem_of_lookup hv)
  | range _ _ ihs ihe => exact same_range_iff.mpr ⟨hbound _ ihs, hbound _ ihe, rfl, rfl⟩
  | _ => simp [same]

theorem ofList {es : List (String × Value)} (h : ∀ e ∈ es, e.2.Steady) :
    (Datum.context (Entries.ofList es)).Steady :=
  .context (Entries.nodup_ofList es) (Entries.forall_ofList h)

end Datum.Steady

/-- The types whose values have no parts and are no numbers, and lists of them. -/
def Ty.isSteady : Ty → Bool
  | any | number _ | context _ | range _ _ _ | function _ _ _ => false
  | list element => isSteady element
  | _ => true

theorem Fits.steady {v : Value} {t : Ty} (h : Fits v t) (ht : t.isSteady = true) : v.Steady := by
  induction h with
  | null => exact .null
  | boolean b => exact .boolean b
  | string s => exact .string s
  | date d => exact .date d
  | time t => exact .time t
  | dateTime t | dateTimeAsDate t | dateTimeAsTime t => exact .dateTime t
  | dayTimeDuration n => exact .dayTimeDuration n
  | yearMonthDuration m => exact .yearMonthDuration m
  | list _ ih => exact .list fun v hv => ih v hv ht
  | any | number | context | range | function => cases ht

namespace Datum.Steady

variable {v w : Value}

/-! ### Operators -/

theorem of_cases (h : (∃ b, v = .boolean b) ∨ v = .null) : v.Steady := by
  rcases h with ⟨b, rfl⟩ | rfl
  · exact boolean b
  · exact null

theorem ofBool? (b : Option Bool) : (Datum.ofBool? b : Value).Steady :=
  (Fits.ofBool? b).steady rfl

theorem compareAs (op : Operator) (mode : CompareMode) (l r : Value) :
    (Datum.compareAs op mode l r).Steady :=
  (Fits.compareAs op mode l r).steady rfl

theorem equality (l r : Value) (negated : Bool) : (l.equality r negated).Steady := boolean _

theorem and (l r : Value) : (l.and r).Steady := (Fits.and l r).steady rfl

theorem logic (op : Operator) (l r : Value) : (Datum.logic op l r).Steady :=
  (Fits.logic op l r).steady rfl

theorem not (v : Value) : v.not.Steady := (Fits.not v).steady rfl

theorem negate (h : v.Steady) : v.negate.Steady := by
  cases v with
  | number n =>
    cases h with
    | number h => exact number (Number.equal_self_neg h)
  | dayTimeDuration n => exact dayTimeDuration _
  | yearMonthDuration n => exact yearMonthDuration _
  | _ => exact null

theorem arith (v w : Value) (op : Operator) (mode : NumericMode) (precision : Nat) :
    (v.arith op w mode precision).Steady := by
  have hof : ∀ {o : Option Number}, (∀ n, o = some n → n.equal n = true) →
      (ofNumber? o : Value).Steady := by
    intro o ho
    cases o with
    | none => exact null
    | some n => exact number (ho n rfl)
  unfold Datum.arith
  split
  · refine hof fun n hn => ?_
    split at hn
    · exact Number.equal_self_of_divide? hn
    · exact Number.equal_self_of_arith? hn
  · exact null

theorem concat (v w : Value) : (v.concat w).Steady := by
  unfold Datum.concat
  split
  · exact null
  · exact string _

theorem getD {o : Option Value} (h : ∀ v, o = some v → v.Steady) : (o.getD .null).Steady := by
  cases o with
  | none => exact null
  | some v => exact h v rfl

theorem of_map {α : Type} {o : Option α} {f : α → Value} (hf : ∀ a, o = some a → (f a).Steady)
    (h : o.map f = some v) : v.Steady := by
  obtain ⟨a, ha, rfl⟩ := Option.map_eq_some_iff.mp h
  exact hf a ha

theorem of_shift? {nanos : Int} (h : v.shift? nanos = some w) : w.Steady := by
  unfold Datum.shift? at h
  split at h
  · exact of_map (fun _ _ => date _) h
  · exact of_map (fun _ _ => dateTime _) h
  · cases h
    exact time _
  · cases h

theorem of_shiftByMonths? {months : Int64} (h : v.shiftByMonths? months = some w) : w.Steady := by
  unfold Datum.shiftByMonths? at h
  split at h
  · exact of_map (fun _ _ => date _) h
  · exact of_map (fun _ _ => dateTime _) h
  · cases h

theorem of_scaleDuration? {op : Operator} {n : Number} (h : v.scaleDuration? op n = some w) :
    w.Steady := by
  unfold Datum.scaleDuration? at h
  split at h
  · obtain ⟨millis, -, h⟩ := Option.bind_eq_some_iff.mp h
    exact of_map (fun _ _ => dayTimeDuration _) h
  · exact of_map (fun _ _ => yearMonthDuration _) h
  · cases h

theorem of_temporalAdd? {a b : Value} (h : temporalAdd? a b = some v) : v.Steady := by
  unfold temporalAdd? at h
  split at h
  · exact of_map (fun _ _ => dayTimeDuration _) h
  · exact of_map (fun _ _ => yearMonthDuration _) h
  · exact of_shift? h
  · exact of_shift? h
  · exact of_shiftByMonths? h
  · exact of_shiftByMonths? h
  · cases h

theorem of_temporalSub? {a b : Value} (h : temporalSub? a b = some v) : v.Steady := by
  unfold temporalSub? subtract? at h
  split at h
  · cases h
    exact dayTimeDuration _
  · exact of_map (fun _ _ => dayTimeDuration _) h
  · exact of_map (fun _ _ => yearMonthDuration _) h
  · exact of_shift? h
  · exact of_shiftByMonths? (show (Datum.date _).shiftByMonths? (-_) = some v from h)
  · exact of_shiftByMonths? (show (Datum.dateTime _).shiftByMonths? (-_) = some v from h)
  · split at h
    · cases h
      exact dayTimeDuration _
    · cases h

theorem of_temporalDiv? {a b : Value} (h : temporalDiv? a b = some v) : v.Steady := by
  unfold temporalDiv? at h
  split at h
  · exact of_map (fun _ hn => number (Number.equal_self_of_divide? hn)) h
  · exact of_map (fun _ hn => number (Number.equal_self_of_divide? hn)) h
  · exact of_scaleDuration? h
  · cases h

theorem of_temporalMul? {a b : Value} (h : temporalMul? a b = some v) : v.Steady := by
  unfold temporalMul? at h
  split at h
  · exact of_scaleDuration? h
  · exact of_scaleDuration? h
  · cases h

theorem temporal (op : Operator) (v w : Value) : (Datum.temporal op v w).Steady := by
  refine getD fun u h => ?_
  split at h
  · exact of_temporalAdd? h
  · exact of_temporalSub? h
  · exact of_temporalMul? h
  · exact of_temporalDiv? h
  · cases h

theorem of_parseDuration? {s : String} (h : parseDuration? s = some v) : v.Steady := by
  obtain ⟨d, -, rfl⟩ := Option.map_eq_some_iff.mp h
  cases d with
  | dayTime nanos => exact dayTimeDuration nanos
  | yearMonth months => exact yearMonthDuration months

theorem of_parseTemporal? {s : String} (h : parseTemporal? s = some v) : v.Steady := by
  unfold parseTemporal? at h
  dsimp only at h
  split at h
  · exact of_parseDuration? h
  · exact of_parseDuration? h
  · split at h
    · exact of_map (fun _ _ => dateTime _) h
    · rcases Option.or_eq_some_iff.mp h with h | ⟨-, h⟩
      · exact of_map (fun _ _ => date _) h
      · exact of_map (fun _ _ => time _) h

theorem dynamic (op : Operator) (l r : Value) : (Datum.dynamic op l r).Steady := by
  unfold Datum.dynamic
  split
  · exact logic op l r
  split
  · exact equality l r _
  split
  · exact (Fits.compare op l r).steady rfl
  split
  · exact null
  split
  · exact arith ..
  · split
    · exact concat ..
    · exact temporal ..

/-! ### Members -/

theorem int (n : Int) : (Datum.int n : Value).Steady :=
  number (Number.equal_self_of_kind (by simp [Number.kind]))

theorem long (n : Int) : (Datum.long n : Value).Steady :=
  number (Number.equal_self_of_kind (by simp [Number.kind]))

theorem count (n : Nat) : (Datum.count n : Value).Steady :=
  number (Number.equal_self_of_kind (Number.kind_ofInt n))

theorem texts {α : Type} (f : α → String) (as : List α) :
    (.list (as.map fun a => .string (f a)) : Value).Steady := by
  refine list fun v hv => ?_
  obtain ⟨a, -, rfl⟩ := List.mem_map.mp hv
  exact string (f a)

theorem dateMember (d : Date) (name : String) : (Datum.dateMember d name : Value).Steady := by
  unfold Datum.dateMember
  split <;> first | exact int _ | exact long _ | exact boolean _ | exact null

/-- Members of values without parts are steady. -/
theorem member (name : String) (hlist : v.asList? = none) (hcontext : v.asContext? = none)
    (hrange : ∀ s e si ei, v ≠ .range s e si ei) : (v.member name).Steady := by
  rw [Datum.member.eq_def]
  split
  · cases hcontext
  · cases hlist
  · unfold Datum.stringMember
    split <;> first | exact count _ | exact string _ | exact boolean _ | exact null
  · exact dateMember _ _
  · unfold Datum.timeMember
    split <;> first | exact int _ | exact long _ | exact null
  · unfold Datum.dateTimeMember
    split <;>
      first | exact date _ | exact time _ | exact int _ | exact long _ | exact dateMember _ _
  · unfold Datum.dayTimeMember
    split <;> first | exact long _ | exact null
  · unfold Datum.yearMonthMember
    split <;> first | exact long _ | exact null
  · exact absurd rfl (hrange _ _ _ _)
  · unfold Datum.functionMember
    split
    · exact string _
    · exact texts Ty.text _
    · exact texts id _
    · exact null
  all_goals exact null

end Datum.Steady

end Feel
