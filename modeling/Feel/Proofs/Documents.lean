import Mathlib.Data.String.Basic
import Feel.Code.Basic
import Feel.Proofs.ExactArithmetic
import Feel.Proofs.TypeJoins
import Feel.Value.Json

/-!
# Values through documents

A host holds documents with the keys of every object in order, each once. A document of integers
becomes a value and the value the same document again, except for integers from `2 ^ 63` on: they
are decimals, and decimals are written as strings. The other way round, a value of plain data
comes back with every number in the form it had and its contexts sorted by name.

* `Json.Canonical`: documents as a host holds them.
* `Json.canonical_sorted`, `Json.Canonical.sorted_eq`: sorting makes a document canonical and keeps
  one that is.
* `Json.encoded`: a document with its large integers as strings.
* `Datum.toJson_ofSortedJson`: the document of the value of a document of integers.
* `Datum.SameData`: equality up to the order of entries.
* `Datum.sameData_ofSortedJson`: the value of the document of plain data.
-/

namespace Feel

namespace Json

/-! ### Canonical documents -/

/-- The keys of every object are in ascending order, each once. -/
inductive Canonical : Json → Prop
  | null : Canonical null
  | bool (b : Bool) : Canonical (bool b)
  | int (n : ℤ) : Canonical (int n)
  | double (x : Float) : Canonical (double x)
  | string (s : String) : Canonical (string s)
  | array {items : List Json} (h : ∀ j ∈ items, Canonical j) : Canonical (array items)
  | object {members : List (String × Json)} (hkeys : members.Pairwise fun a b => a.1 < b.1)
      (h : ∀ m ∈ members, Canonical m.2) : Canonical (object members)

theorem sortedAll_eq_map (items : List Json) : sortedAll items = items.map sorted := by
  induction items with
  | nil => rfl
  | cons j items ih => rw [sortedAll, ih, List.map_cons]

theorem sortedMembers_eq_map (members : List (String × Json)) :
    sortedMembers members = members.map fun m => (m.1, m.2.sorted) := by
  induction members with
  | nil => rfl
  | cons m members ih =>
    obtain ⟨key, j⟩ := m
    rw [sortedMembers, ih, List.map_cons]

section Members

variable {members : List (String × Json)}

/-- Members in ascending order, those with one key beside each other. -/
theorem pairwise_mergeSort (members : List (String × Json)) :
    (members.mergeSort fun a b => !decide (b.1 < a.1)).Pairwise fun a b => a.1 ≤ b.1 := by
  have hsorted : (members.mergeSort fun a b => !decide (b.1 < a.1)).Pairwise
      fun a b => (!decide (b.1 < a.1)) = true := List.pairwise_mergeSort
    (fun a b c hab hbc => by
      simp only [Bool.not_eq_true', decide_eq_false_iff_not, not_lt] at hab hbc ⊢
      exact le_trans hab hbc)
    (fun a b => by
      simp only [Bool.or_eq_true, Bool.not_eq_true', decide_eq_false_iff_not, not_lt]
      exact le_total a.1 b.1) members
  refine hsorted.imp fun h => ?_
  simpa only [Bool.not_eq_true', decide_eq_false_iff_not, not_lt] using h

theorem keepLast_sublist (members : List (String × Json)) :
    (sortMembers.keepLast members).Sublist members := by
  induction members with
  | nil => exact .slnil
  | cons m members ih =>
    rw [sortMembers.keepLast]
    split
    · exact ih.cons m
    · exact ih.cons_cons m

/-- Of members with one key the last is kept. -/
theorem pairwise_keepLast (h : members.Pairwise fun a b => a.1 ≤ b.1) :
    (sortMembers.keepLast members).Pairwise fun a b => a.1 < b.1 := by
  induction members with
  | nil => exact .nil
  | cons m members ih =>
    obtain ⟨hm, hmembers⟩ := List.pairwise_cons.mp h
    rw [sortMembers.keepLast]
    split
    · exact ih hmembers
    · next hhead =>
      refine List.pairwise_cons.mpr ⟨fun n hn => ?_, ih hmembers⟩
      have hn := (keepLast_sublist members).subset hn
      cases members with
      | nil => cases hn
      | cons first members =>
        have hfirst : m.1 < first.1 := by
          refine lt_of_le_of_ne (hm first List.mem_cons_self) fun heq => hhead ?_
          simp [heq]
        rcases List.mem_cons.mp hn with rfl | hn
        · exact hfirst
        · exact lt_of_lt_of_le hfirst ((List.pairwise_cons.mp hmembers).1 n hn)

theorem sortMembers_subset (members : List (String × Json)) : sortMembers members ⊆ members :=
  fun _ hm => (List.mergeSort_perm members _).subset ((keepLast_sublist _).subset hm)

theorem pairwise_sortMembers (members : List (String × Json)) :
    (sortMembers members).Pairwise fun a b => a.1 < b.1 :=
  pairwise_keepLast (pairwise_mergeSort members)

theorem keepLast_of_nodup (h : (members.map (·.1)).Nodup) :
    sortMembers.keepLast members = members := by
  induction members with
  | nil => rfl
  | cons m members ih =>
    obtain ⟨hm, hmembers⟩ := List.nodup_cons.mp h
    have hhead : ¬ (members.head?.map (·.1) == some m.1) = true := by
      cases members with
      | nil => exact Bool.false_ne_true
      | cons first members =>
        intro hfirst
        refine hm ?_
        simp_all
    rw [sortMembers.keepLast, if_neg hhead, ih hmembers]

theorem sortMembers_perm (h : (members.map (·.1)).Nodup) : (sortMembers members).Perm members := by
  have hperm := List.mergeSort_perm members fun a b => !decide (b.1 < a.1)
  rw [sortMembers, keepLast_of_nodup ((hperm.map (·.1)).nodup_iff.mpr h)]
  exact hperm

theorem lookup_sortMembers (h : (members.map (·.1)).Nodup) (key : String) :
    (sortMembers members).lookup key = members.lookup key :=
  (Entries.lookup_of_perm h (sortMembers_perm h).symm).symm

theorem sortMembers_of_pairwise (h : members.Pairwise fun a b => a.1 < b.1) :
    sortMembers members = members := by
  have hnodup : (members.map (·.1)).Nodup := List.pairwise_map.mpr (h.imp fun h => ne_of_lt h)
  have hsorted : members.Pairwise fun a b => (!decide (b.1 < a.1)) = true := by
    refine h.imp fun h => ?_
    simpa only [Bool.not_eq_true', decide_eq_false_iff_not, not_lt] using le_of_lt h
  rw [sortMembers, List.mergeSort_of_pairwise hsorted, keepLast_of_nodup hnodup]

end Members

mutual

/-- A sorted document is canonical. -/
theorem canonical_sorted : ∀ j : Json, j.sorted.Canonical
  | .null => .null
  | .bool b => .bool b
  | .int n => .int n
  | .double x => .double x
  | .string s => .string s
  | .array items => .array (canonical_sortedAll items)
  | .object members =>
    .object (pairwise_sortMembers _) fun m hm =>
      canonical_sortedMembers members m (sortMembers_subset _ hm)

theorem canonical_sortedAll : ∀ items : List Json, ∀ j ∈ sortedAll items, j.Canonical
  | [], _, hj => nomatch hj
  | j :: items, _, hj =>
    (List.mem_cons.mp hj).elim (fun heq => heq ▸ canonical_sorted j)
      (canonical_sortedAll items _)

theorem canonical_sortedMembers :
    ∀ members : List (String × Json), ∀ m ∈ sortedMembers members, m.2.Canonical
  | [], _, hm => nomatch hm
  | (_, j) :: members, _, hm =>
    (List.mem_cons.mp hm).elim (fun heq => heq ▸ canonical_sorted j)
      (canonical_sortedMembers members _)

end

/-- Sorting keeps a canonical document. -/
theorem Canonical.sorted_eq {j : Json} (h : j.Canonical) : j.sorted = j := by
  induction h with
  | null | bool | int | double | string => rfl
  | @array items _ ih =>
    rw [sorted, sortedAll_eq_map, List.map_congr_left ih, List.map_id']
  | @object members hkeys _ ih =>
    have hmembers : members.map (fun m => (m.1, m.2.sorted)) = members :=
      (List.map_congr_left fun m hm => by rw [ih m hm]).trans (List.map_id' members)
    rw [sorted, sortedMembers_eq_map, hmembers, sortMembers_of_pairwise hkeys]

theorem sorted_sorted (j : Json) : j.sorted.sorted = j.sorted := (canonical_sorted j).sorted_eq

/-! ### Documents of integers -/

/-- All numbers are integers that satisfy `P`. -/
inductive Integral (P : ℤ → Prop) : Json → Prop
  | null : Integral P null
  | bool (b : Bool) : Integral P (bool b)
  | int {n : ℤ} (h : P n) : Integral P (int n)
  | string (s : String) : Integral P (string s)
  | array {items : List Json} (h : ∀ j ∈ items, Integral P j) : Integral P (array items)
  | object {members : List (String × Json)} (h : ∀ m ∈ members, Integral P m.2) :
    Integral P (object members)

mutual

/-- The integers from `2 ^ 63` on as strings of their digits. -/
def encoded : Json → Json
  | int n => if n < 2 ^ 63 then int n else string (toString n)
  | array items => array (encodedAll items)
  | object members => object (encodedMembers members)
  | j => j

def encodedAll : List Json → List Json
  | [] => []
  | j :: items => encoded j :: encodedAll items

def encodedMembers : List (String × Json) → List (String × Json)
  | [] => []
  | (key, j) :: members => (key, encoded j) :: encodedMembers members

end

theorem encodedAll_eq_map (items : List Json) : encodedAll items = items.map encoded := by
  induction items with
  | nil => rfl
  | cons j items ih => rw [encodedAll, ih, List.map_cons]

theorem encodedMembers_eq_map (members : List (String × Json)) :
    encodedMembers members = members.map fun m => (m.1, m.2.encoded) := by
  induction members with
  | nil => rfl
  | cons m members ih =>
    obtain ⟨key, j⟩ := m
    rw [encodedMembers, ih, List.map_cons]

theorem Canonical.encoded {j : Json} (h : j.Canonical) : j.encoded.Canonical := by
  induction h with
  | null => exact .null
  | bool b => exact .bool b
  | double x => exact .double x
  | string s => exact .string s
  | int n =>
    rw [Json.encoded]
    split
    · exact .int n
    · exact .string _
  | array _ ih =>
    rw [Json.encoded, encodedAll_eq_map]
    exact .array (List.forall_mem_map.mpr ih)
  | object hkeys _ ih =>
    rw [Json.encoded, encodedMembers_eq_map]
    exact .object (List.pairwise_map.mpr hkeys) (List.forall_mem_map.mpr ih)

/-- Of the documents of integers those are kept whose integers are below `2 ^ 63`. -/
theorem Integral.encoded_eq_iff {j : Json} (h : j.Integral fun n => -2 ^ 63 ≤ n ∧ n < 2 ^ 64) :
    j.encoded = j ↔ j.Integral fun n => -2 ^ 63 ≤ n ∧ n < 2 ^ 63 := by
  induction h with
  | null => exact ⟨fun _ => .null, fun _ => rfl⟩
  | bool b => exact ⟨fun _ => .bool b, fun _ => rfl⟩
  | string s => exact ⟨fun _ => .string s, fun _ => rfl⟩
  | @int n hn =>
    rw [encoded]
    split
    · next hsmall => exact ⟨fun _ => .int ⟨hn.1, hsmall⟩, fun _ => rfl⟩
    · next hlarge =>
      refine ⟨fun h => (nomatch h), fun h => ?_⟩
      cases h with
      | int h => exact absurd h.2 hlarge
  | @array items _ ih =>
    have hitems : items.map encoded = items ↔ ∀ j ∈ items, j.encoded = j := by
      conv_lhs => rhs; rw [← List.map_id' items]
      exact List.map_inj_left
    rw [encoded, encodedAll_eq_map, array.injEq, hitems]
    refine ⟨fun h => .array fun j hj => (ih j hj).mp (h j hj), fun h j hj => ?_⟩
    cases h with
    | array h => exact (ih j hj).mpr (h j hj)
  | @object members _ ih =>
    have hmembers : members.map (fun m => (m.1, m.2.encoded)) = members ↔
        ∀ m ∈ members, m.2.encoded = m.2 := by
      conv_lhs => rhs; rw [← List.map_id' members]
      exact List.map_inj_left.trans (forall₂_congr fun m _ => by rw [Prod.ext_iff]; simp)
    rw [encoded, encodedMembers_eq_map, object.injEq, hmembers]
    refine ⟨fun h => .object fun m hm => (ih m hm).mp (h m hm), fun h m hm => ?_⟩
    cases h with
    | object h => exact (ih m hm).mpr (h m hm)

end Json

/-! ### The document of a document's value -/

/-- A decimal without places and without an exponent is written as its digits. -/
theorem Decimal.magnitudeText_zero (digits : String) : magnitudeText digits 0 = digits := by
  have hleading : layout.leadingZeros = 5 := rfl
  have htrailing : layout.trailingZeros = 15 := rfl
  rw [magnitudeText, if_neg (by omega), if_neg (by omega), if_pos le_rfl]
  exact String.append_empty

theorem Decimal.text_ofInt {n : ℤ} (h : 0 < n) : (ofInt n).text = toString n := by
  obtain ⟨m, rfl⟩ := Int.eq_ofNat_of_zero_le h.le
  rw [text, if_neg (show (ofInt m).digits ≠ 0 from h.ne'),
    if_neg (show ¬ (ofInt m).digits < 0 from h.le.not_gt)]
  exact magnitudeText_zero (toString m)

namespace Number

theorem ofInt_toInt32 (n : Int32) : ofInt n.toInt = integer n := by
  have hlow := n.le_toInt
  have hhigh := n.toInt_lt
  rw [ofInt, int32?, if_pos (by omega), Int32.ofInt_toInt]

theorem ofInt_toInt64 {n : Int64} (h : n.toInt < -2 ^ 31 ∨ 2 ^ 31 ≤ n.toInt) :
    ofInt n.toInt = long n := by
  have hlow := n.le_toInt
  have hhigh := n.toInt_lt
  rw [ofInt, int32?, if_neg (by omega)]
  show ofIntLong n.toInt = long n
  rw [ofIntLong, int64?, if_pos (by omega), Int64.ofInt_toInt]

end Number

/-- A name is looked up to the image of what it was looked up to. -/
theorem Entries.lookup_mapValues {α β : Type} (f : α → β) (entries : List (String × α))
    (name : String) :
    (entries.map fun e => (e.1, f e.2)).lookup name = (entries.lookup name).map f := by
  induction entries with
  | nil => rfl
  | cons e entries ih =>
    rw [List.map_cons, List.lookup_cons, List.lookup_cons, ih]
    cases name == e.1 <;> rfl

namespace Datum

variable {κ : Type}

theorem ofSortedItems_eq_map (items : List Json) :
    (ofSortedItems items : List (Datum κ)) = items.map ofSortedJson := by
  induction items with
  | nil => rfl
  | cons j items ih => rw [ofSortedItems, ih, List.map_cons]

theorem ofSortedMembers_eq_map (members : List (String × Json)) :
    (ofSortedMembers members : List (String × Datum κ)) =
      members.map fun m => (m.1, ofSortedJson m.2) := by
  induction members with
  | nil => rfl
  | cons m members ih =>
    obtain ⟨key, j⟩ := m
    rw [ofSortedMembers, ih, List.map_cons]

theorem toJsonItems_eq_map (items : List (Datum κ)) : toJsonItems items = items.map toJson := by
  induction items with
  | nil => rfl
  | cons v items ih => rw [toJsonItems, ih, List.map_cons]

theorem toJsonMembers_eq_map (entries : List (String × Datum κ)) :
    toJsonMembers entries = entries.map fun e => (e.1, toJson e.2) := by
  induction entries with
  | nil => rfl
  | cons e entries ih =>
    obtain ⟨name, v⟩ := e
    rw [toJsonMembers, ih, List.map_cons]

/-- An integer is written as it stands, or as a string where it is a decimal. -/
theorem toJson_ofInt {n : ℤ} (h : -2 ^ 63 ≤ n) :
    (number (.ofInt n) : Datum κ).toJson = (Json.int n).encoded := by
  rw [Json.encoded]
  unfold Number.ofInt
  split
  · next i hi =>
    have hsmall : n < 2 ^ 63 := by
      unfold Number.int32? at hi
      split at hi
      · omega
      · cases hi
    rw [toJson, Number.toInt_of_int32? hi, if_pos hsmall]
  · unfold Number.ofIntLong
    split
    · next l hl =>
      have hsmall : n < 2 ^ 63 := by
        unfold Number.int64? at hl
        split at hl
        · omega
        · cases hl
      rw [toJson, Number.toInt_of_int64? hl, if_pos hsmall]
    · next hl =>
      have hlarge : ¬ n < 2 ^ 63 := fun hsmall => by
        rw [Number.int64?, if_pos (by omega)] at hl
        cases hl
      rw [toJson, if_neg hlarge, Decimal.text_ofInt (by omega)]

theorem toJson_ofSortedJson {j : Json} (h : j.Integral fun n => -2 ^ 63 ≤ n ∧ n < 2 ^ 64) :
    (ofSortedJson j : Datum κ).toJson = j.encoded := by
  induction h with
  | null | bool | string => rfl
  | int h => exact toJson_ofInt h.1
  | array _ ih =>
    rw [ofSortedJson, toJson, Json.encoded, ofSortedItems_eq_map, toJsonItems_eq_map,
      Json.encodedAll_eq_map, List.map_map]
    exact congrArg Json.array (List.map_congr_left ih)
  | object _ ih =>
    rw [ofSortedJson, toJson, Json.encoded, ofSortedMembers_eq_map, toJsonMembers_eq_map,
      Json.encodedMembers_eq_map, List.map_map]
    exact congrArg Json.object (List.map_congr_left fun m hm => congrArg (m.1, ·) (ih m hm))

/-! ### The value of a value's document -/

/-- Null, booleans, strings and integers without decimals, and lists and contexts of these. An
integer has 64 bits only where it does not fit 32. -/
inductive IsData : Datum κ → Prop
  | null : IsData null
  | boolean (b : Bool) : IsData (boolean b)
  | integer (n : Int32) : IsData (number (.integer n))
  | long {n : Int64} (h : n.toInt < -2 ^ 31 ∨ 2 ^ 31 ≤ n.toInt) : IsData (number (.long n))
  | string (s : String) : IsData (string s)
  | list {items : List (Datum κ)} (h : ∀ v ∈ items, IsData v) : IsData (list items)
  | context {entries : List (String × Datum κ)} (hnames : (entries.map (·.1)).Nodup)
      (h : ∀ e ∈ entries, IsData e.2) : IsData (context entries)

/-- Equal, numbers in the same form, up to the order of the entries of contexts. -/
inductive SameData : Datum κ → Datum κ → Prop
  | refl (v : Datum κ) : SameData v v
  | list {items others : List (Datum κ)} (h : List.Forall₂ SameData items others) :
    SameData (list items) (list others)
  | context {entries others : List (String × Datum κ)}
      (h : ∀ name, Option.Rel SameData (entries.lookup name) (others.lookup name)) :
    SameData (context entries) (context others)

theorem sameData_ofSortedJson {v : Datum κ} (h : v.IsData) :
    SameData v (ofSortedJson v.toJson.sorted) := by
  induction h with
  | null | boolean | string => exact .refl _
  | integer n =>
    show SameData _ (number (.ofInt n.toInt))
    rw [Number.ofInt_toInt32]
    exact .refl _
  | @long n h =>
    show SameData _ (number (.ofInt n.toInt))
    rw [Number.ofInt_toInt64 h]
    exact .refl _
  | @list items _ ih =>
    rw [toJson, toJsonItems_eq_map, Json.sorted, Json.sortedAll_eq_map, ofSortedJson,
      ofSortedItems_eq_map, List.map_map, List.map_map]
    refine .list (List.forall₂_map_right_iff.mpr ?_)
    exact List.forall₂_same.mpr ih
  | @context entries hnames _ ih =>
    have hdocument : (context entries).toJson.sorted =
        .object (Json.sortMembers (entries.map fun e => (e.1, e.2.toJson.sorted))) := by
      rw [toJson, toJsonMembers_eq_map, Json.sorted, Json.sortedMembers_eq_map, List.map_map]
      rfl
    have hkeys : ((entries.map fun e => (e.1, e.2.toJson.sorted)).map (·.1)).Nodup := by
      rwa [List.map_map]
    rw [hdocument, ofSortedJson, ofSortedMembers_eq_map]
    refine .context fun name => ?_
    rw [Entries.lookup_mapValues (fun j => (ofSortedJson j : Datum κ)),
      Json.lookup_sortMembers hkeys,
      Entries.lookup_mapValues fun v : Datum κ => v.toJson.sorted]
    cases hname : entries.lookup name with
    | none => exact .none
    | some v => exact .some (ih (name, v) ((Entries.lookup_eq_some_iff_mem hnames).mp hname))

/-- A document of integers from `-2 ^ 63` to `2 ^ 64` comes back from its value with the integers
from `2 ^ 63` on as strings, so that the documents that come back as they were are those without
such integers. A value of plain data comes back from its document with every number in the form
it had. -/
theorem integers_and_data_kept :
    (∀ j : Json, j.Canonical → (j.Integral fun n => -2 ^ 63 ≤ n ∧ n < 2 ^ 64) →
      (ofJson j : Datum κ).toJson.sorted = j.encoded ∧
        ((ofJson j : Datum κ).toJson.sorted = j ↔
          j.Integral fun n => -2 ^ 63 ≤ n ∧ n < 2 ^ 63)) ∧
      ∀ v : Datum κ, v.IsData → SameData v (ofJson v.toJson.sorted) := by
  refine ⟨fun j hj hints => ?_, fun v hv => ?_⟩
  · have hencoded : (ofJson j : Datum κ).toJson.sorted = j.encoded := by
      rw [ofJson, hj.sorted_eq, toJson_ofSortedJson hints, hj.encoded.sorted_eq]
    exact ⟨hencoded, hencoded ▸ hints.encoded_eq_iff⟩
  · rw [ofJson, Json.sorted_sorted]
    exact sameData_ofSortedJson hv

/-- An object with integers on both sides of `2 ^ 63`, and a context with numbers of both forms. -/
theorem integers_and_data_kept_object :
    (ofJson (.object [("a", .array [.int 1, .int (-2 ^ 63)]), ("b", .int (2 ^ 63))]) :
      Value).toJson.sorted =
        .object [("a", .array [.int 1, .int (-2 ^ 63)]), ("b", .string "9223372036854775808")] ∧
    SameData (context [("b", number (.long Int64.minValue)), ("a", number (.integer 1))] : Value)
      (ofJson (context [("b", number (.long Int64.minValue)),
        ("a", number (.integer 1))] : Value).toJson.sorted) := by
  refine ⟨?_, integers_and_data_kept.2 _ (.context (by decide)
    (List.forall_mem_cons.mpr ⟨.long (by decide), List.forall_mem_singleton.mpr (.integer 1)⟩))⟩
  refine (integers_and_data_kept.1 _ (.object (by decide) ?_) (.object ?_)).1.trans rfl
  · exact List.forall_mem_cons.mpr ⟨.array (List.forall_mem_cons.mpr ⟨.int _,
      List.forall_mem_singleton.mpr (.int _)⟩), List.forall_mem_singleton.mpr (.int _)⟩
  · exact List.forall_mem_cons.mpr ⟨.array (List.forall_mem_cons.mpr ⟨.int (by decide),
      List.forall_mem_singleton.mpr (.int (by decide))⟩),
      List.forall_mem_singleton.mpr (.int (by decide))⟩

/-- An integer that fits 64 bits without a sign only does not come back. -/
theorem integer_not_kept :
    Json.Integral (fun n => -2 ^ 63 ≤ n ∧ n < 2 ^ 64) (.int (2 ^ 63)) ∧
      (ofJson (.int (2 ^ 63)) : Value).toJson.sorted ≠ .int (2 ^ 63) := by
  refine ⟨.int (by decide), ?_⟩
  have hstring : (number (.ofInt (2 ^ 63)) : Value).toJson = .string (toString (2 ^ 63 : ℤ)) :=
    toJson_ofInt (by decide)
  show (number (.ofInt (2 ^ 63)) : Value).toJson.sorted ≠ _
  rw [hstring]
  exact Json.noConfusion

end Datum

end Feel
