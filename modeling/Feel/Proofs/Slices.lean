import Mathlib.Algebra.Ring.Int.Defs
import Mathlib.Algebra.Ring.Nat
import Feel.Eval.Denote

/-!
# Slices by position

Positions and sizes are integers of 64 bits, and so is the offset behind a slice, although it is a
sum of two of them. Where it exceeds 64 bits a program that checks its arithmetic stops, and one
that does not goes on with a negative offset, so that the slice is out of bounds. A list is not cut
before its first offset is known to be within it; of a text the sum is computed in any case, also
where the first offset is behind the end and nothing is left. Everywhere else the bounds of a slice
are those that integers of any size give, with and without checks.

* `Position.exactOffset`, `Position.exactStop`, `Position.between`: slices by integers of any size.
* `Position.Exceeds`, `Position.Overruns`: the offset behind the slice exceeds 64 bits.
* `Position.offset?_eq`, `Position.stop?_eq`: the offsets where it does not.
* `Builtin.exactSublist`, `Builtin.exactSubstring`: what the functions are to give.
* `Action.callBuiltin_slices`: what they give.
-/

namespace Feel

namespace Position

/-! ### Slices by integers of any size -/

/-- The offset of a position. -/
def exactOffset (length position : Int) : Int :=
  if 0 < position then position - 1 else length + position

/-- The offset behind `size` items, but no more than the end; without a size it is the end. -/
def exactStop (length start : Int) : Option Int → Int
  | none => length
  | some size => min (start + size) length

/-- The items from one offset up to another. -/
def between {α : Type} (items : List α) (start stop : Int) : List α :=
  (items.drop start.toNat).take (stop - start).toNat

/-- The offset behind the items exceeds 64 bits. -/
def Exceeds (start : Int) (size : Option Int) : Prop := ∃ n ∈ size, 2 ^ 63 ≤ start + n

/-- The offset behind the items exceeds 64 bits, for items that start within a sequence. -/
def Overruns (length start : Int) (size : Option Int) : Prop :=
  0 ≤ start ∧ start < length ∧ Exceeds start size

/-! ### Integers of 64 bits -/

variable {length start position : Int64} {size : Option Int64}

/-- Integers of 64 bits are added as integers where the sum has 64 bits. -/
theorem toInt_add_of_bounds {a b : Int64} (hlo : -2 ^ 63 ≤ a.toInt + b.toInt)
    (hhi : a.toInt + b.toInt < 2 ^ 63) : (a + b).toInt = a.toInt + b.toInt := by
  rw [Int64.toInt_add]
  exact Int.bmod_eq_of_le (by omega) (by omega)

/-- Beyond 64 bits the sum of two offsets wraps around. -/
theorem toInt_add_of_overflow {a b : Int64} (h : 2 ^ 63 ≤ a.toInt + b.toInt) :
    (a + b).toInt = a.toInt + b.toInt - 2 ^ 64 := by
  have ha := a.toInt_lt
  have hb := b.toInt_lt
  rw [Int64.toInt_add, Int.bmod_def]
  omega

theorem toInt_min (a b : Int64) : (min a b).toInt = min a.toInt b.toInt := by
  have h : min a b = if a ≤ b then a else b := rfl
  rw [h]
  split
  · next hle => exact (Int.min_eq_left (Int64.le_iff_toInt_le.mp hle)).symm
  · next hle =>
    rw [Int64.le_iff_toInt_le, Int.not_le] at hle
    exact (Int.min_eq_right (Int.le_of_lt hle)).symm

theorem toInt_max (a b : Int64) : (max a b).toInt = max a.toInt b.toInt := by
  have h : max a b = if a ≤ b then b else a := rfl
  rw [h]
  split
  · next hle => exact (Int.max_eq_right (Int64.le_iff_toInt_le.mp hle)).symm
  · next hle =>
    rw [Int64.le_iff_toInt_le, Int.not_le] at hle
    exact (Int.max_eq_left (Int.le_of_lt hle)).symm

/-- **The offset of a position** never exceeds 64 bits. -/
theorem offset?_eq (length position : Int64) (h : 0 ≤ length.toInt) : ∃ start : Int64,
    start.toInt = exactOffset length.toInt position.toInt ∧
      ∀ o, offset? o length position = some start := by
  have hlo := position.le_toInt
  have hhi := position.toInt_lt
  have hlength := length.toInt_lt
  simp only [offset?, exactOffset, Int64.lt_iff_toInt_lt, Int64.toInt_zero]
  split
  · have hsub : (position - 1).toInt = position.toInt - 1 := by
      rw [Int64.toInt_sub, Int64.toInt_one]
      exact Int.bmod_eq_of_le (by omega) (by omega)
    exact ⟨position - 1, hsub, fun o => o.result?_of_exact hsub⟩
  · have hadd := toInt_add_of_bounds (a := length) (b := position) (by omega) (by omega)
    exact ⟨length + position, hadd, fun o => o.result?_of_exact hadd⟩

/-- **The offset behind a slice** is exact where it does not exceed 64 bits. -/
theorem stop?_eq (length start : Int64) (hstart : 0 ≤ start.toInt)
    (hsize : ∀ n ∈ size, 0 ≤ n.toInt) (h : ¬ Exceeds start.toInt (size.map Int64.toInt)) : ∃ stop : Int64,
      stop.toInt = exactStop length.toInt start.toInt (size.map Int64.toInt) ∧
        ∀ o, stop? o length start size = some stop := by
  cases size with
  | none => exact ⟨length, rfl, fun o => rfl⟩
  | some n =>
    have hn : 0 ≤ n.toInt := hsize n rfl
    have hsum : (start + n).toInt = start.toInt + n.toInt :=
      toInt_add_of_bounds (by omega) (Int.not_le.mp fun hle => h ⟨n.toInt, rfl, hle⟩)
    refine ⟨min (start + n) length, ?_, fun o => ?_⟩
    · rw [toInt_min, hsum]
      rfl
    · rw [stop?, Overflow.add?, o.result?_of_exact hsum]
      rfl

/-- A program with checks stops where the offset behind a slice exceeds 64 bits, and one without
goes on with an offset before the slice. -/
theorem stop?_of_exceeds (length : Int64) (hsize : ∀ n ∈ size, 0 ≤ n.toInt)
    (h : Exceeds start.toInt (size.map Int64.toInt)) : stop? .stops length start size = none ∧
      ∃ stop : Int64, stop? .wraps length start size = some stop ∧ stop.toInt < start.toInt := by
  obtain ⟨_, hm, hover⟩ := h
  obtain ⟨n, rfl, rfl⟩ := Option.map_eq_some_iff.mp hm
  have hn : 0 ≤ n.toInt := hsize n rfl
  have hlt := n.toInt_lt
  have hsum := toInt_add_of_overflow hover
  constructor
  · rw [stop?, Overflow.add?, Overflow.result?_of_ne (by omega), Option.map_none]
  · refine ⟨min (start + n) length, rfl, ?_⟩
    rw [toInt_min, hsum]
    omega

end Position

open Position

variable {α : Type} {items : List α} {start stop : Int64}

theorem slice?_of_le (hstart : 0 ≤ start.toInt) (hle : start.toInt ≤ stop.toInt)
    (hstop : stop.toInt ≤ items.length) :
    slice? items start stop = some (between items start.toInt stop.toInt) :=
  if_pos ⟨hstart, hle, hstop⟩

theorem slice?_of_lt (h : stop.toInt < start.toInt) : slice? items start stop = none :=
  if_neg fun hbounds => absurd hbounds.2.1 (Int.not_le.mpr h)

namespace Builtin

/-! ### The functions -/

/-- The items of a list from a position on, at most `size` of them; null for the position zero, for
a position outside the list and for a negative size. -/
def exactSublist (vs : List Value) (position : Int) (size : Option Int) : Value :=
  let start := exactOffset vs.length position
  if position = 0 ∨ size.any (· < 0) then .null
  else if start < 0 ∨ vs.length ≤ start then .null
  else .list (between vs start (exactStop vs.length start size))

/-- The characters of a text from a position on, at most `size` of them; null for the position zero
and for a negative size. A position before the text stands for its start, and nothing is left from a
position behind it on. -/
def exactSubstring (s : String) (position : Int) (size : Option Int) : Value :=
  let length := s.toList.length
  let start := Max.max (exactOffset length position) 0
  if position = 0 ∨ size.any (· < 0) then .null
  else if length ≤ start then .string ""
  else .string (String.ofList (between s.toList start (exactStop length start size)))

variable {position size : Value} {p : Int64} {n : Option Int64}

/-- Whether a call gives null for its position or its size. -/
theorem exact_null_iff : (p.toInt = 0 ∨ (n.map Int64.toInt).any (· < 0) = true) ↔
    (p = 0 ∨ n.any (· < 0) = true) := by
  refine or_congr (by rw [← Int64.toInt_zero, Int64.toInt_inj]) ?_
  cases n with
  | none => exact Iff.rfl
  | some n => simp only [Option.map_some, Option.any_some, Int64.lt_iff_toInt_lt, Int64.toInt_zero]

/-- Sizes that are not negative. -/
theorem size_nonneg (h : ¬ (p = 0 ∨ n.any (· < 0) = true)) : ∀ m ∈ n, 0 ≤ m.toInt := by
  intro m hm
  rw [Option.mem_def.mp hm, Option.any_some, decide_eq_true_iff, Int64.lt_iff_toInt_lt,
    Int64.toInt_zero] at h
  omega

/-- Negative sizes exceed nothing. -/
theorem nonneg_of_exceeds {start : Int} {size : Option Int} (hstart : start < 2 ^ 63)
    (h : Exceeds start size) : size.any (· < 0) = false := by
  obtain ⟨m, hm, hover⟩ := h
  rw [Option.mem_def.mp hm, Option.any_some, decide_eq_false_iff_not]
  omega

/-- The stop of a slice within a sequence is between its start and the end. -/
theorem exactStop_bounds {length start : Int} (size : Option Int) (hstart : start ≤ length)
    (hsize : size.any (· < 0) = false) :
    start ≤ exactStop length start size ∧ exactStop length start size ≤ length := by
  cases size with
  | none => exact ⟨hstart, Int.le_refl _⟩
  | some n =>
    rw [Option.any_some, decide_eq_false_iff_not] at hsize
    dsimp only [exactStop]
    omega

theorem sublist?_eq (hp : Args.int64? position = some p) (hn : Args.optionalInt64? size = some n)
    {vs : List Value} (hlength : vs.length < 2 ^ 63) (o : Overflow) :
    (Overruns vs.length (exactOffset vs.length p.toInt) (n.map Int64.toInt) →
      sublist? o vs position size = none) ∧
    (¬ Overruns vs.length (exactOffset vs.length p.toInt) (n.map Int64.toInt) →
      sublist? o vs position size = some (exactSublist vs p.toInt (n.map Int64.toInt))) := by
  have hofNat : (Int64.ofNat vs.length).toInt = vs.length := Int64.toInt_ofNat_of_lt hlength
  obtain ⟨start, hstart, hoffset⟩ := offset?_eq (Int64.ofNat vs.length) p (by rw [hofNat]; omega)
  rw [hofNat] at hstart
  rw [← hstart]
  have hlt : start.toInt < 2 ^ 63 := start.toInt_lt
  simp only [sublist?, hp, hn, exactSublist, exact_null_iff, ← hstart]
  split
  · next hnull =>
    refine ⟨fun ⟨_, hinside, hover⟩ => ?_, fun _ => rfl⟩
    rcases exact_null_iff.mpr hnull with hzero | hneg
    · rw [hstart, hzero, exactOffset] at hinside
      omega
    · exact absurd (nonneg_of_exceeds hlt hover) (by rw [hneg]; decide)
  · next hvalid =>
    have hsize := size_nonneg hvalid
    simp only [sublistOf?, hoffset, Option.bind_eq_bind, Option.bind_some, Int64.lt_iff_toInt_lt,
      Int64.le_iff_toInt_le, Int64.toInt_zero, hofNat]
    split
    · next houtside => exact ⟨fun ⟨hlo, hhi, _⟩ => absurd houtside (by omega), fun _ => rfl⟩
    next hinside =>
    constructor
    · rintro ⟨-, -, hover⟩
      obtain ⟨hstops, stop, hwraps, hbefore⟩ :=
        stop?_of_exceeds (Int64.ofNat vs.length) hsize hover
      cases o with
      | stops => rw [hstops, Option.bind_none]
      | wraps => rw [hwraps, Option.bind_some, slice?_of_lt hbefore, Option.map_none]
    · intro hover
      obtain ⟨stop, hexact, hstop⟩ := stop?_eq (Int64.ofNat vs.length) start
        (by omega) hsize fun h => hover ⟨by omega, by omega, h⟩
      rw [hofNat] at hexact
      have hbounds := exactStop_bounds (n.map Int64.toInt)
        (show start.toInt ≤ vs.length by omega)
        (Bool.eq_false_iff.mpr fun h => hvalid (exact_null_iff.mp (.inr h)))
      rw [hstop, Option.bind_some, slice?_of_le (by omega) (by omega) (by omega), hexact,
        Option.map_some]

/-- The characters from a position on. Nothing is asked of the start before both offsets are known,
so that a program with checks stops also where the start is behind the end. -/
theorem substring?_eq {args : List Value} {s : String} (hs : Args.text? args 0 = some s)
    (hp : Args.int64? (Args.get args 1) = some p)
    (hn : Args.optionalInt64? (Args.get args 2) = some n) (hlength : s.toList.length < 2 ^ 63) :
    let start := Max.max (exactOffset s.toList.length p.toInt) 0
    (p ≠ 0 ∧ Exceeds start (n.map Int64.toInt) → substring? .stops args = none ∧
      (start < s.toList.length → substring? .wraps args = none) ∧
      (s.toList.length ≤ start →
        substring? .wraps args = some (exactSubstring s p.toInt (n.map Int64.toInt)))) ∧
    (¬ (p ≠ 0 ∧ Exceeds start (n.map Int64.toInt)) → ∀ o,
      substring? o args = some (exactSubstring s p.toInt (n.map Int64.toInt))) := by
  have hofNat : (Int64.ofNat s.toList.length).toInt = s.toList.length :=
    Int64.toInt_ofNat_of_lt hlength
  obtain ⟨offset, hexact, hoffset⟩ :=
    offset?_eq (Int64.ofNat s.toList.length) p (by rw [hofNat]; omega)
  obtain ⟨start, hstart⟩ : ∃ start : Int64, start = Max.max offset 0 := ⟨_, rfl⟩
  have htoInt : Max.max (exactOffset s.toList.length p.toInt) 0 = start.toInt := by
    rw [hstart, toInt_max, hexact, hofNat, Int64.toInt_zero]
  have hlt : start.toInt < 2 ^ 63 := start.toInt_lt
  have hnonneg : 0 ≤ start.toInt := by
    rw [← htoInt]
    exact Int.le_max_right ..
  simp only [substring?, hs, hp, hn, exactSubstring, exact_null_iff, htoInt]
  split
  · next hnull =>
    refine ⟨fun ⟨hzero, hover⟩ => ?_, fun _ o => rfl⟩
    rcases exact_null_iff.mpr hnull with h | hneg
    · exact absurd (Int64.toInt_inj.mp (h.trans Int64.toInt_zero.symm)) hzero
    · exact absurd (nonneg_of_exceeds hlt hover) (by rw [hneg]; decide)
  · next hvalid =>
    have hsize := size_nonneg hvalid
    have hzero : p ≠ 0 := fun h => hvalid (.inl h)
    simp only [substringOf?, hoffset, Option.bind_eq_bind, Option.bind_some,
      Int64.le_iff_toInt_le, hofNat, ← hstart]
    constructor
    · rintro ⟨-, hover⟩
      obtain ⟨hstops, stop, hwraps, hbefore⟩ :=
        stop?_of_exceeds (Int64.ofNat s.toList.length) hsize hover
      rw [hstops, hwraps, Option.bind_some]
      refine ⟨rfl, fun hinside => ?_, fun hbehind => ?_⟩
      · rw [if_neg (Int.not_le.mpr hinside), slice?_of_lt hbefore, Option.map_none, Option.map_none]
      · rw [if_pos hbehind, if_pos hbehind, Option.map_some]
    · intro hover o
      obtain ⟨stop, hexact, hstop⟩ := stop?_eq (Int64.ofNat s.toList.length) start
        hnonneg hsize fun h => hover ⟨hzero, h⟩
      rw [hofNat] at hexact
      rw [hstop, Option.bind_some]
      split
      · rfl
      · have hbounds := exactStop_bounds (n.map Int64.toInt)
          (show start.toInt ≤ s.toList.length by omega)
          (Bool.eq_false_iff.mpr fun h => hvalid (exact_null_iff.mp (.inr h)))
        rw [slice?_of_le hnonneg (by omega) (by omega), hexact, Option.map_some, Option.map_some]

end Builtin

namespace Action

/-- A call that takes a slice gives it, and fails where there is none. -/
theorem callBuiltin_of_slice {name : String} {f : Builtin} {args : List Value} {precision : Nat}
    {invoke : FunctionValue → List Value → Except EvalError Value} {slice : Option Value}
    (hname : Builtin.ofName? name = some f) (hbounds : f.inBounds args = slice.isSome)
    (happly : f.apply args precision invoke = .ok (slice.getD .null)) :
    (slice = none → callBuiltin name args precision invoke = .error .sliceOutOfBounds) ∧
    (∀ v, slice = some v → callBuiltin name args precision invoke = .ok v) := by
  have hcall : callBuiltin name args precision invoke =
      if slice.isSome then .ok (slice.getD .null) else .error .sliceOutOfBounds := by
    rw [callBuiltin, hname]
    dsimp only
    rw [hbounds, happly]
  refine ⟨fun h => ?_, fun v h => ?_⟩
  · rw [hcall, h]
    rfl
  · rw [hcall, h]
    rfl

/-- **Slices by position.** For positions and sizes of 64 bits, `sublist` and `substring` give what
integers of any size give, with and without checks, unless the offset behind the slice exceeds 64
bits. Then a program with checks stops, also for a text that ends before the slice, and without
checks a call fails whose slice would start within the sequence. -/
theorem callBuiltin_slices {args : List Value} {p : Int64} {n : Option Int64}
    (hp : Args.int64? (Args.get args 1) = some p)
    (hn : Args.optionalInt64? (Args.get args 2) = some n) (precision : Nat)
    (invoke : FunctionValue → List Value → Except EvalError Value) :
    (∀ vs, Args.get args 0 = .list vs → vs.length < 2 ^ 63 →
      (Overruns vs.length (exactOffset vs.length p.toInt) (n.map Int64.toInt) →
        callBuiltin "sublist" args precision invoke = .error .sliceOutOfBounds ∧
          ∀ o, Builtin.sublist? o vs (Args.get args 1) (Args.get args 2) = none) ∧
      (¬ Overruns vs.length (exactOffset vs.length p.toInt) (n.map Int64.toInt) →
        callBuiltin "sublist" args precision invoke =
            .ok (Builtin.exactSublist vs p.toInt (n.map Int64.toInt)) ∧
          ∀ o, Builtin.sublist? o vs (Args.get args 1) (Args.get args 2) =
            some (Builtin.exactSublist vs p.toInt (n.map Int64.toInt)))) ∧
    (∀ s, Args.get args 0 = .string s → s.toList.length < 2 ^ 63 →
      let start := max (exactOffset s.toList.length p.toInt) 0
      (p ≠ 0 ∧ Exceeds start (n.map Int64.toInt) →
        Builtin.substring? .stops args = none ∧
          (start < s.toList.length →
            callBuiltin "substring" args precision invoke = .error .sliceOutOfBounds) ∧
          (s.toList.length ≤ start → callBuiltin "substring" args precision invoke =
            .ok (Builtin.exactSubstring s p.toInt (n.map Int64.toInt)))) ∧
      (¬ (p ≠ 0 ∧ Exceeds start (n.map Int64.toInt)) →
        callBuiltin "substring" args precision invoke =
            .ok (Builtin.exactSubstring s p.toInt (n.map Int64.toInt)) ∧
          ∀ o, Builtin.substring? o args =
            some (Builtin.exactSubstring s p.toInt (n.map Int64.toInt)))) := by
  constructor
  · intro vs hvs hlength
    have hslice := Builtin.sublist?_eq hp hn hlength
    have hbounds : Builtin.sublist.inBounds args =
        (Builtin.sublist? .wraps vs (Args.get args 1) (Args.get args 2)).isSome := by
      simp only [Builtin.inBounds, hvs]
    have happly : Builtin.sublist.apply args precision invoke =
        .ok ((Builtin.sublist? .wraps vs (Args.get args 1) (Args.get args 2)).getD .null) := by
      simp only [Builtin.apply, Builtin.value, Builtin.onList, hvs]
    obtain ⟨hfail, hgive⟩ := callBuiltin_of_slice
      (rfl : Builtin.ofName? "sublist" = some .sublist) hbounds happly
    exact ⟨fun h => ⟨hfail ((hslice .wraps).1 h), fun o => (hslice o).1 h⟩,
      fun h => ⟨hgive _ ((hslice .wraps).2 h), fun o => (hslice o).2 h⟩⟩
  · intro s hs hlength start
    have htext : Args.text? args 0 = some s := by
      rw [Args.text?, hs]
      rfl
    obtain ⟨hexceeds, hfit⟩ := Builtin.substring?_eq htext hp hn hlength
    have hbounds : Builtin.substring.inBounds args =
        (Builtin.substring? .wraps args).isSome := by
      simp only [Builtin.inBounds]
    have happly : Builtin.substring.apply args precision invoke =
        .ok ((Builtin.substring? .wraps args).getD .null) := by
      simp only [Builtin.apply, Builtin.value]
    obtain ⟨hfail, hgive⟩ := callBuiltin_of_slice
      (rfl : Builtin.ofName? "substring" = some .substring) hbounds happly
    refine ⟨fun h => ?_, fun h => ⟨hgive _ (hfit h .wraps), hfit h⟩⟩
    obtain ⟨hstops, hinside, hbehind⟩ := hexceeds h
    exact ⟨hstops, fun h => hfail (hinside h), fun h => hgive _ (hbehind h)⟩

/-- From the second of three items on, the greatest size overruns, and the size two does not. The
same holds of a text, whose positions may also count from the end. From the fifth character on
nothing is left of three, and a program with checks stops all the same. -/
theorem callBuiltin_slices_second :
    let items : List Value := [.count 1, .count 2, .count 3]
    let greatest : Value := .number (.long 9223372036854775807)
    let invoke : FunctionValue → List Value → Except EvalError Value := fun _ _ => .ok .null
    callBuiltin "sublist" [.list items, .count 2, greatest] 34 invoke =
        .error .sliceOutOfBounds ∧
      callBuiltin "sublist" [.list items, .count 2, .count 2] 34 invoke =
        .ok (.list [.count 2, .count 3]) ∧
      callBuiltin "substring" [.string "abc", .count 2, greatest] 34 invoke =
        .error .sliceOutOfBounds ∧
      callBuiltin "substring" [.string "abc", .number (.integer (-2))] 34 invoke =
        .ok (.string "bc") ∧
      Builtin.substring? .stops [.string "abc", .count 5, greatest] = none ∧
      callBuiltin "substring" [.string "abc", .count 5, greatest] 34 invoke =
        .ok (.string "") := by
  intro items greatest invoke
  have hgreatest (s : Value) (i : Nat) :
      Args.optionalInt64? (Args.get [s, .count i, greatest] 2) =
        some (some 9223372036854775807) := by
    show Args.optionalInt64? (.number (.long 9223372036854775807)) = _
    decide +kernel
  refine ⟨?_, ?_, ?_, ?_, ?_⟩
  · have hp : Args.int64? (Args.get [.list items, .count 2, greatest] 1) = some 2 := by
      decide +kernel
    refine (((callBuiltin_slices hp (hgreatest _ 2) 34 invoke).1 items rfl (by decide)).1 ?_).1
    exact ⟨by decide, by decide, 9223372036854775807, rfl, by decide⟩
  · have hp : Args.int64? (Args.get [.list items, .count 2, .count 2] 1) = some 2 := by
      decide +kernel
    have hn : Args.optionalInt64? (Args.get [.list items, .count 2, .count 2] 2) =
        some (some 2) := by
      decide +kernel
    refine (((callBuiltin_slices hp hn 34 invoke).1 items rfl (by decide)).2 ?_).1
    rintro ⟨-, -, n, hn, hover⟩
    cases hn
    exact absurd hover (by decide)
  · have hp : Args.int64? (Args.get [.string "abc", .count 2, greatest] 1) = some 2 := by
      decide +kernel
    refine (((callBuiltin_slices hp (hgreatest _ 2) 34 invoke).2 "abc" rfl (by decide)).1 ?_).2.1
      (by decide)
    exact ⟨by decide, 9223372036854775807, rfl, by decide⟩
  · have hp : Args.int64? (Args.get [.string "abc", .number (.integer (-2))] 1) = some (-2) := by
      decide +kernel
    have hn : Args.optionalInt64? (Args.get [.string "abc", .number (.integer (-2))] 2) =
        some none := rfl
    refine (((callBuiltin_slices hp hn 34 invoke).2 "abc" rfl (by decide)).2 ?_).1
    rintro ⟨-, n, hn, -⟩
    cases hn
  · have hp : Args.int64? (Args.get [.string "abc", .count 5, greatest] 1) = some 5 := by
      decide +kernel
    obtain ⟨hstops, -, hbehind⟩ :=
      ((callBuiltin_slices hp (hgreatest _ 5) 34 invoke).2 "abc" rfl (by decide)).1
        ⟨by decide, 9223372036854775807, rfl, by decide⟩
    exact ⟨hstops, hbehind (by decide)⟩

end Action

end Feel
