import Mathlib.Data.Int.Interval
import Feel.Eval.Iteration
import Feel.Proofs.WholeNumbers

/-!
# Elements of ranges of whole numbers

A range whose bounds are whole numbers in 64 bits stands for the integers between them, if there are
not too many. They are the integers that the range contains, except that a bound which is a binary64
number can be taken for an integer next to it.

* `Domain.between`: the integers in a range.
* `Domain.expandWhole_upward`: the elements of an upward range.
* `Datum.rangeContains?_iff`: containment of an integer.
* `Domain.expand_lists_contained`: the elements of a range are what it contains.
-/

namespace Feel

namespace Domain

/-! ### Elements -/

/-- The integers from one bound up to another; a bound that is not included is left out. -/
def between (start finish : Int) (startIncluded endIncluded : Bool) : Set Int :=
  {i | (start ≤ i ∧ i ≤ finish) ∧ (startIncluded = true ∨ i ≠ start) ∧
    (endIncluded = true ∨ i ≠ finish)}

variable {a b : Int} {si ei : Bool}

/-- The integers in a range are those from its first to its last element. -/
theorem between_eq_Icc :
    between a b si ei = Set.Icc (if si then a else a + 1) (if ei then b else b - 1) := by
  ext i
  show (a ≤ i ∧ i ≤ b) ∧ (si = true ∨ i ≠ a) ∧ (ei = true ∨ i ≠ b) ↔ _ ≤ i ∧ i ≤ _
  cases si <;> cases ei <;> simp <;> omega

theorem ncard_Icc (first last : Int) : (Set.Icc first last).ncard = (last + 1 - first).toNat := by
  rw [← Finset.coe_Icc, Set.ncard_coe_finset, Int.card_Icc]

/-- Whole numbers one after the other. -/
theorem wholes_one (first : Int) (count : Nat) : ∃ is : List Int,
    wholes first 1 count = is.map (fun i => .number (.ofInt i)) ∧ is.Pairwise (· < ·) ∧
      ∀ i, i ∈ is ↔ first ≤ i ∧ i < first + count := by
  refine ⟨(List.range count).map fun (k : Nat) => first + (k : Int), ?_, ?_, fun i => ?_⟩
  · rw [List.map_map]
    refine List.map_congr_left fun k _ => ?_
    rw [Int.mul_one]
    rfl
  · refine List.pairwise_map.mpr (List.pairwise_lt_range.imp fun {k l} hlt => ?_)
    omega
  · rw [List.mem_map]
    constructor
    · rintro ⟨k, hk, rfl⟩
      rw [List.mem_range] at hk
      omega
    · rintro ⟨hfirst, hlast⟩
      refine ⟨(i - first).toNat, List.mem_range.mpr ?_, ?_⟩ <;> omega

/-- The elements of a range of whole numbers in upward direction. -/
theorem expandWhole_upward (si ei : Bool) (hab : a ≤ b) :
    ((between a b si ei).ncard ≤ limit → ∃ is : List Int,
      expandWhole a b si ei = .ok (is.map fun i => .number (.ofInt i)) ∧ is.Pairwise (· < ·) ∧
        ∀ i, i ∈ is ↔ i ∈ between a b si ei) ∧
      (limit < (between a b si ei).ncard →
        expandWhole a b si ei = .error (.domainTooLarge limit)) := by
  rw [between_eq_Icc, ncard_Icc]
  simp only [expandWhole, if_pos hab, Int.mul_one, Set.mem_Icc]
  generalize (if si then a else a + 1) = first
  generalize (if ei then b else b - 1) = last
  constructor
  · intro hfew
    by_cases hempty : last - first + 1 ≤ 0
    · rw [if_pos hempty]
      refine ⟨[], rfl, .nil, fun i => ?_⟩
      simp only [List.not_mem_nil, false_iff]
      omega
    · obtain ⟨is, his, hascending, hmem⟩ := wholes_one first (last - first + 1).toNat
      rw [if_neg hempty, if_neg (by omega)]
      refine ⟨is, by rw [his], hascending, fun i => ?_⟩
      rw [hmem]
      omega
  · intro hmany
    rw [if_neg (by omega), if_pos (by omega)]

end Domain

namespace Datum

variable {κ : Type} {v s e : Datum κ} {a b i : Int} {si ei : Bool}

theorem above?_eq (h : v.order? s = some (Ord.compare i a)) :
    v.above? si (some s) = some (decide (a ≤ i ∧ (si = true ∨ i ≠ a))) := by
  rw [above?, h]
  rcases lt_trichotomy i a with hlt | rfl | hgt
  · rw [compare_lt_iff_lt.mpr hlt, decide_eq_false (by omega)]
    rfl
  · rw [compare_eq_iff_eq.mpr rfl]
    cases si <;> simp
  · rw [compare_gt_iff_gt.mpr hgt, decide_eq_true (by omega)]
    rfl

theorem below?_eq (h : v.order? e = some (Ord.compare i b)) :
    v.below? ei (some e) = some (decide (i ≤ b ∧ (ei = true ∨ i ≠ b))) := by
  rw [below?, h]
  rcases lt_trichotomy i b with hlt | rfl | hgt
  · rw [compare_lt_iff_lt.mpr hlt, decide_eq_true (by omega)]
    rfl
  · rw [compare_eq_iff_eq.mpr rfl]
    cases ei <;> simp
  · rw [compare_gt_iff_gt.mpr hgt, decide_eq_false (by omega)]
    rfl

/-- A range contains what is ordered to both bounds as an integer between them. -/
theorem rangeContains?_iff (hs : v.order? s = some (Ord.compare i a))
    (he : v.order? e = some (Ord.compare i b)) :
    rangeContains? (some s) (some e) si ei v = some true ↔ i ∈ Domain.between a b si ei := by
  show _ ↔ (a ≤ i ∧ i ≤ b) ∧ (si = true ∨ i ≠ a) ∧ (ei = true ∨ i ≠ b)
  rw [rangeContains?, above?_eq hs, below?_eq he]
  by_cases habove : a ≤ i ∧ (si = true ∨ i ≠ a)
  · rw [decide_eq_true habove]
    show some (decide _) = some true ↔ _
    rw [Option.some.injEq, decide_eq_true_eq]
    tauto
  · rw [decide_eq_false habove]
    show some false = some true ↔ _
    simp only [Option.some.injEq, Bool.false_eq_true, false_iff]
    tauto

end Datum

namespace Domain

/-- **The elements of a range are the integers that it contains.** Take bounds that are whole
numbers in 64 bits, the first one not above the second. If no more integers than the limit lie in the range,
its elements are these integers, each once and ascending, and an integer is among them exactly where
the range contains it, unless a bound of binary64 is taken for an integer that differs from it. If
more integers lie in the range it is refused. -/
theorem expand_lists_contained {s e : Number} {a b : Int} (si ei : Bool) (hs : s.IsWhole a)
    (he : e.IsWhole b) (ha : -2 ^ 63 ≤ a) (hb : b < 2 ^ 63) (hab : a ≤ b) :
    ((between a b si ei).ncard ≤ limit → ∃ is : List Int,
      expand (some (.number s)) (some (.number e)) si ei =
        .ok (is.map fun i => .number (.ofInt i)) ∧
      is.Pairwise (· < ·) ∧ (∀ i, i ∈ is ↔ i ∈ between a b si ei) ∧
      ∀ (x : Number) (i : Int), x.IsInteger i →
        (s.kind = .double → x.order? s = some .eq → i = a) →
        (e.kind = .double → x.order? e = some .eq → i = b) →
        (i ∈ is ↔ Datum.rangeContains? (some (.number s : Value)) (some (.number e)) si ei
          (.number x) = some true)) ∧
      (limit < (between a b si ei).ncard →
        expand (some (.number s)) (some (.number e)) si ei = .error (.domainTooLarge limit)) := by
  obtain ⟨l, hl, hla⟩ := hs.toInt64? ⟨ha, by omega⟩
  obtain ⟨k, hk, hkb⟩ := he.toInt64? ⟨by omega, hb⟩
  have hexpand : expand (some (.number s : Value)) (some (.number e)) si ei =
      expandWhole a b si ei := by
    rw [expand, hl, hk]
    show expandWhole l.toInt k.toInt si ei = _
    rw [hla, hkb]
  obtain ⟨hfew, hmany⟩ := expandWhole_upward si ei hab
  rw [hexpand]
  refine ⟨fun hcount => ?_, hmany⟩
  obtain ⟨is, his, hascending, hmem⟩ := hfew hcount
  refine ⟨is, his, hascending, hmem, fun x i hx hstart hfinish => ?_⟩
  rw [hmem]
  have hfirst : (Datum.number x : Value).order? (.number s) = some (compare i a) :=
    hs.order? hx hstart
  have hlast : (Datum.number x : Value).order? (.number e) = some (compare i b) :=
    he.order? hx hfinish
  exact (Datum.rangeContains?_iff hfirst hlast).symm

/-- Above one of binary64, and up to three of 32 bits, there are two integers. -/
theorem expand_lists_contained_above_one : ∃ is : List Int,
    expand (some (.number (.double (Binary64.ofInt 1)))) (some (.int 3)) false true =
      .ok (is.map fun i => .number (.ofInt i)) ∧
    is.Pairwise (· < ·) ∧ (∀ i, i ∈ is ↔ i ∈ between 1 3 false true) ∧
    (2 ∈ is ↔ Datum.rangeContains? (some (.number (.double (Binary64.ofInt 1)) : Value))
      (some (.int 3)) false true (.int 2) = some true) := by
  have hone : (Number.double (Binary64.ofInt 1)).IsWhole 1 := Number.isWhole_ofInt (by decide)
  have hthree : (Number.integer 3).IsWhole 3 := (Number.IsInteger.integer 3).isWhole
  have htwo : (Number.integer 2).IsInteger 2 := .integer 2
  obtain ⟨is, his, hascending, hmem, hcontains⟩ :=
    (expand_lists_contained false true hone hthree (by decide) (by decide) (by decide)).1 (by
      rw [between_eq_Icc, ncard_Icc]
      decide)
  refine ⟨is, his, hascending, hmem, hcontains (.integer 2) 2 htwo (fun _ h => ?_) nofun⟩
  rw [hone.order?_double rfl htwo] at h
  exact absurd h (by decide)

/-- A bound of binary64 that is left out is taken for the integer after it: the range does not
contain its first element. -/
theorem expand_first_not_contained :
    let s := Number.double (Binary64.ofInt 9007199254740992)
    let e := Number.double (Binary64.ofInt 9007199254740994)
    s.IsWhole 9007199254740992 ∧ e.IsWhole 9007199254740994 ∧
      expand (some (.number s)) (some (.number e)) false true =
        .ok [.long 9007199254740993, .long 9007199254740994] ∧
      Datum.rangeContains? (some (.number s : Value)) (some (.number e)) false true
        (.long 9007199254740993) = some false := by
  intro s e
  have hs : s.IsWhole 9007199254740992 := Number.isWhole_ofInt (by decide)
  have he : e.IsWhole 9007199254740994 := Number.isWhole_ofInt (by decide)
  refine ⟨hs, he, ?_, ?_⟩
  · obtain ⟨l, hl, hla⟩ := hs.toInt64? (by decide)
    obtain ⟨k, hk, hkb⟩ := he.toInt64? (by decide)
    rw [expand, hl, hk]
    show expandWhole l.toInt k.toInt false true = _
    rw [hla, hkb]
    rfl
  · have horder : (Datum.long 9007199254740993 : Value).order? (.number s) = some .eq :=
      hs.order?_double rfl (.long 9007199254740993)
    rw [Datum.rangeContains?, Datum.above?, horder]
    rfl

end Domain

end Feel
