import Feel.Builtin.Numeric

/-!
# Sorting values

The order of values is partial, and items that have none may stand in one list. A sort asks
only for some of the pairs, so which pairs it asks for shows in the result: items without an
order stay as they are, or there is no result at all. Short lists are sorted by insertion
from the end and longer ones by merging; both are stable.

* `Builtin.sortWith?`: the sort by a question that may have no answer.
* `Builtin.ascending?`: the items in ascending order, if those asked for have one.
* `Builtin.sortedNumbers?`: numbers in ascending order.
* `Builtin.sortBy`: insertion by a function that says what comes first.
-/

namespace Feel

namespace Builtin

/-! ### Sorting by a question -/

/-- Whether the first of two items comes before the second, if that has an answer. -/
abbrev Before? := Value → Value → Option Bool

/-- Inserts an item into a list in descending order. It passes the items that it comes
before. -/
def insertDown? (before? : Before?) (v : Value) : List Value → Option (List Value)
  | [] => some [v]
  | w :: ws => do
    if ← before? v w then return w :: (← insertDown? before? v ws)
    return v :: w :: ws

/-- Inserts the items one after another. -/
def insertionSort? (before? : Before?) (vs : List Value) : Option (List Value) :=
  (vs.foldlM (fun sorted v => insertDown? before? v sorted) []).map List.reverse

/-- Whether the question has an answer for all neighbours. -/
def answered (before? : Before?) : List Value → Bool
  | v :: w :: vs => (before? v w).isSome && answered before? (w :: vs)
  | _ => true

/-- Sorts by merging, where the neighbours in the result have an answer. -/
def mergeSort? (before? : Before?) (vs : List Value) : Option (List Value) :=
  let sorted := vs.mergeSort fun a b => before? b a != some true
  if answered before? sorted then some sorted else none

/-- The most items that are sorted by insertion. -/
def shortLength : Nat := 20

/-- The items in ascending order, if the question has an answer wherever it is asked. -/
def sortWith? (before? : Before?) (vs : List Value) : Option (List Value) :=
  if vs.length ≤ shortLength then insertionSort? before? vs else mergeSort? before? vs

/-! ### Natural order -/

/-- The items in ascending order, if all pairs that are asked for have one. -/
def ascending? (vs : List Value) : Option (List Value) :=
  sortWith? (fun v w => (v.order? w).map (· == .lt)) vs

/-- The numbers of a list that is not empty, in ascending order. A pair without an order
counts as equal. -/
def sortedNumbers? (vs : List Value) : Option (List Value) :=
  if vs.isEmpty || !vs.all (·.asNumber?.isSome) then none
  else sortWith? (fun v w => some (v.order? w == some .lt)) vs

/-- The items in ascending order; null where they have none. -/
def sortNatural (vs : List Value) : Value :=
  match ascending? vs with
  | some sorted => .list sorted
  | none => .null

/-! ### Sorting by a function -/

/-- Inserts an item before the first that it precedes. -/
def insertBy {ε : Type} (precedes : Value → Value → Except ε Bool) (v : Value) :
    List Value → Except ε (List Value)
  | [] => .ok [v]
  | w :: ws => do
    if ← precedes v w then return v :: w :: ws
    return w :: (← insertBy precedes v ws)

/-- Inserts the items one after another. -/
def sortBy {ε : Type} (precedes : Value → Value → Except ε Bool) :
    List Value → List Value → Except ε (List Value)
  | [], sorted => .ok sorted
  | v :: vs, sorted => do sortBy precedes vs (← insertBy precedes v sorted)

end Builtin

end Feel
