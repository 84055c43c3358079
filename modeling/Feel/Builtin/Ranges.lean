import Feel.Builtin.Basic

/-!
# Relations between ranges

A point counts as a range that holds just itself, so that one formula covers points and
ranges. An absent bound lies below or above everything. Where ends have no order there is
no answer.

* `Interval`: a range as two edges.
* `Interval.before?`, `Interval.meets?`, `Interval.overlaps?`, `Interval.starts?`,
  `Interval.finishes?`, `Interval.coincides?`: the relations.
-/

namespace Feel

/-- An end of an interval. -/
inductive Edge where
  | below
  | at (v : Value)
  | above

namespace Edge

def order? : Edge → Edge → Option Ordering
  | .at a, .at b => a.order? b
  | below, below | above, above => some .eq
  | below, _ | _, above => some .lt
  | above, _ | _, below => some .gt

def lower? (a b : Edge) : Option Bool := (a.order? b).map (· == .lt)

def same? (a b : Edge) : Option Bool := (a.order? b).map (· == .eq)

end Edge

/-- A range or a point. -/
structure Interval where
  start : Edge
  startIncluded : Bool
  stop : Edge
  stopIncluded : Bool

namespace Interval

/-- The interval of a range or of a point; null has none. -/
def of? : Value → Option Interval
  | .null => none
  | .range start finish si ei =>
    some ⟨(start.map Edge.at).getD .below, si, (finish.map Edge.at).getD .above, ei⟩
  | v => some ⟨.at v, true, .at v, true⟩

/-- Disjunction that asks for the second only when the first does not hold. -/
def orElse (a b : Option Bool) : Option Bool :=
  match a with
  | some false => b
  | a => a

/-- Conjunction that asks for the second only when the first holds. -/
def andAlso (a b : Option Bool) : Option Bool :=
  match a with
  | some true => b
  | a => a

def before? (a b : Interval) : Option Bool :=
  orElse (a.stop.lower? b.start)
    ((a.stop.same? b.start).map (· && !(a.stopIncluded && b.startIncluded)))

def meets? (a b : Interval) : Option Bool :=
  andAlso (some (a.stopIncluded && b.startIncluded)) (a.stop.same? b.start)

/-- The first reaches the start of the second, and begins before its end. -/
def overlaps? (a b : Interval) : Option Bool := do
  let reaches ← orElse (b.start.lower? a.stop)
    ((a.stop.same? b.start).map (· && a.stopIncluded && b.startIncluded))
  let begins ← orElse (a.start.lower? b.stop)
    ((a.start.same? b.stop).map (· && a.startIncluded && b.stopIncluded))
  some (reaches && begins)

def finishes? (a b : Interval) : Option Bool :=
  andAlso (some (a.stopIncluded == b.stopIncluded)) <| andAlso (a.stop.same? b.stop) <|
    orElse (b.start.lower? a.start)
      ((a.start.same? b.start).map (· && (!a.startIncluded || b.startIncluded)))

def starts? (a b : Interval) : Option Bool :=
  andAlso (some (a.startIncluded == b.startIncluded)) <| andAlso (a.start.same? b.start) <|
    orElse (a.stop.lower? b.stop)
      ((a.stop.same? b.stop).map (· && (!a.stopIncluded || b.stopIncluded)))

def coincides? (a b : Interval) : Option Bool :=
  andAlso (some (a.startIncluded == b.startIncluded && a.stopIncluded == b.stopIncluded)) <|
    andAlso (a.start.same? b.start) (a.stop.same? b.stop)

end Interval

namespace Builtin

/-- A relation between points or ranges. -/
def relate (rel : Interval → Interval → Option Bool) (a b : Value) : Value :=
  .ofBool? <| match Interval.of? a, Interval.of? b with
    | some a, some b => rel a b
    | _, _ => none

/-- A relation between ranges alone. -/
def relateRanges (rel : Interval → Interval → Option Bool) (a b : Value) : Value :=
  match a, b with
  | .range _ _ _ _, .range _ _ _ _ => relate rel a b
  | _, _ => .null

end Builtin

end Feel
