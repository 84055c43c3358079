import Feel.Builtin.Sorting

/-!
# List functions

Aggregates take one list or the items themselves; positions count from one, and negative
positions count from the end.

* `Builtin.extreme`: the least or greatest item.
* `Builtin.total`: sums and products.
* `Builtin.distinct`: the first of equal items.
-/

namespace Feel

namespace Builtin

/-! ### Aggregates -/

/-- Replaces the best item so far by each one that is better. -/
def extremeFrom (wanted : Ordering) : Value → List Value → Value
  | best, [] => best
  | best, v :: vs =>
    match v.order? best with
    | some o => extremeFrom wanted (if o = wanted then v else best) vs
    | none => .null

/-- The least or greatest item; null where items have no order. -/
def extreme (wanted : Ordering) : List Value → Value
  | [] => .null
  | v :: vs => extremeFrom wanted v vs

/-- Combines items from the left. -/
def reduce (op : Operator) : List Value → Value
  | [] => .null
  | v :: vs => vs.foldl (fun acc v => acc.arith op v .native Number.defaultPrecision) v

/-- The sum or product of numbers. -/
def total (op : Operator) (vs : List Value) : Value :=
  if vs.all (·.asNumber?.isSome) then reduce op vs else .null

def meanOf (vs : List Value) (precision : Nat) : Value :=
  match total .add vs with
  | .null => .null
  | v => v.arith .div (.count vs.length) .decimal precision

def medianOf (vs : List Value) (precision : Nat) : Value :=
  match sortedNumbers? vs with
  | none => .null
  | some sorted =>
    let mid := sorted.length / 2
    if sorted.length % 2 = 1 then sorted.getD mid .null
    else meanOf ((sorted.drop (mid - 1)).take 2) precision

/-- The sample standard deviation in binary64. -/
def deviation (vs : List Value) : Value :=
  match sortedNumbers? vs with
  | none => .null
  | some sorted =>
    let xs := sorted.filterMap fun v => v.asNumber?.map (·.toFloat)
    if xs.length < 2 then .null
    else
      let n := xs.length.toFloat
      let mean := xs.foldl (· + ·) 0 / n
      let variance := (xs.map fun x => (x - mean) * (x - mean)).foldl (· + ·) 0 / (n - 1)
      ofFloat variance.sqrt

/-- Runs of equal items with their lengths. -/
def runs : List Value → List (Value × Nat)
  | [] => []
  | v :: vs => go v 1 vs
where
  go (v : Value) (n : Nat) : List Value → List (Value × Nat)
    | [] => [(v, n)]
    | w :: ws => if v.equal w then go v (n + 1) ws else (v, n) :: go w 1 ws

/-- The most frequent numbers in ascending order. -/
def modes (vs : List Value) : Value :=
  match sortedNumbers? vs with
  | none => .null
  | some sorted =>
    let rs := runs sorted
    let top := rs.foldl (fun m r => Nat.max m r.2) 0
    .list ((rs.filter fun r => r.2 == top).map (·.1))

/-- Three-valued conjunction or disjunction of items that are booleans or null. -/
def quantify (op : Value → Value → Value) : Value → List Value → Value
  | acc, [] => acc
  | acc, v :: vs =>
    if v.isNull || v.asBool?.isSome then quantify op (op acc v) vs else .null

/-! ### Positions -/

/-- The items from a position on, at most `size` of them where it is given; null for a
position outside the list. There is none where an offset exceeds 64 bits and that stops the
program, or where the slice is out of bounds. -/
def sublistOf? (o : Overflow) (vs : List Value) (position : Int64) (size : Option Int64) :
    Option Value := do
  let length := Int64.ofNat vs.length
  let start ← Position.offset? o length position
  if start < 0 ∨ length ≤ start then some .null
  else
    let stop ← Position.stop? o length start size
    (slice? vs start stop).map .list

/-- `sublist(list, start position, length?)`. -/
def sublist? (o : Overflow) (vs : List Value) (position size : Value) : Option Value :=
  match Args.int64? position, Args.optionalInt64? size with
  | some position, some size =>
    if position = 0 ∨ size.any (· < 0) then some .null else sublistOf? o vs position size
  | _, _ => some .null

/-- The offset of a position, which may be the end of the list. -/
def position? (len : Nat) (position : Value) : Option Nat :=
  (Args.int? position).bind fun p =>
    if p = 0 then none
    else
      let at_ := if 0 < p then p - 1 else len + p
      if 0 ≤ at_ ∧ at_ ≤ len then some at_.toNat else none

def insertBeforeValue (vs : List Value) (position item : Value) : Value :=
  match position? vs.length position with
  | some at_ => .list (vs.take at_ ++ item :: vs.drop at_)
  | none => .null

def removeValue (vs : List Value) (position : Value) : Value :=
  match position? vs.length position with
  | some at_ => if at_ < vs.length then .list (vs.eraseIdx at_) else .null
  | none => .null

/-- The positions of the items equal to a value. -/
def indexesOf (v : Value) : Nat → List Value → List Value
  | _, [] => []
  | i, w :: ws => if w.equal v then .count (i + 1) :: indexesOf v (i + 1) ws
    else indexesOf v (i + 1) ws

/-! ### Whole lists -/

/-- The items of lists one after another. -/
def joined? : List Value → Option (List Value)
  | [] => some []
  | .list vs :: rest => (joined? rest).map (vs ++ ·)
  | _ :: _ => none

/-- Appends the items that equal none of those kept. -/
def distinctFrom : List Value → List Value → List Value
  | kept, [] => kept
  | kept, v :: vs =>
    distinctFrom (if kept.any (·.equal v) then kept else kept ++ [v]) vs

/-- The first of equal items, in order. -/
def distinct (vs : List Value) : List Value := distinctFrom [] vs

mutual

/-- The items of nested lists. -/
def flat : Value → List Value
  | .list vs => flatAll vs
  | v => [v]

def flatAll : List Value → List Value
  | [] => []
  | v :: vs => flat v ++ flatAll vs

end

end Builtin

end Feel
