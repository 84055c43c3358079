import Feel.Eval.Frame

/-!
# Iteration

Domains, the product of several bindings, and filters.

* `Domain.expand`: the elements of a range of whole numbers or dates.
* `Domain.run`: the elements of a domain.
* `Iteration.run`: visits the product of bindings; later domains see earlier names.
* `Filter.run`: positions and tests of elements.
-/

namespace Feel

namespace Domain

/-- The greatest number of elements of a range or of steps. -/
def limit : Nat := 1000000

/-! ### Ranges -/

/-- `count` whole numbers from `start` on, `step` apart. -/
def wholes (start step : Int) (count : Nat) : List Value :=
  (List.range count).map fun (i : Nat) => .number (.ofInt (start + i * step))

/-- The elements of a range of whole numbers, upward or downward. -/
def expandWhole (start finish : Int) (startIncluded endIncluded : Bool) :
    Except EvalError (List Value) :=
  let step : Int := if start ≤ finish then 1 else -1
  let first := if startIncluded then start else start + step
  let last := if endIncluded then finish else finish - step
  let count := (last - first) * step + 1
  if count ≤ 0 then .ok []
  else if (limit : Int) < count then .error (.domainTooLarge limit)
  else .ok (wholes first step count.toNat)

/-- The elements of a range of dates, upward or downward. -/
def expandDates (start finish : Date) (startIncluded endIncluded : Bool) :
    Except EvalError (List Value) :=
  let days := finish.daysSince start
  if limit ≤ days.natAbs then .error (.domainTooLarge limit)
  else
    let step : Int := if days < 0 then -1 else 1
    let dates := (List.range (days.natAbs + 1)).filterMap fun (i : Nat) =>
      start.addDays? (i * step)
    .ok ((dates.filter fun d =>
      (startIncluded || d != start) && (endIncluded || d != finish)).map .date)

/-- The elements of a range; a range without a bound, or of other values, has none. -/
def expand : Option Value → Option Value → Bool → Bool → Except EvalError (List Value)
  | some (.number s), some (.number e), si, ei =>
    match s.toInt64?, e.toInt64? with
    | some s, some e => expandWhole s.toInt e.toInt si ei
    | _, _ => .ok []
  | some (.date s), some (.date e), si, ei => expandDates s e si ei
  | _, _, _, _ => .ok []

/-- The elements a value stands for in an iteration. -/
def elements : Value → Except EvalError (List Value)
  | .null => .ok []
  | .list items => .ok items
  | .range start finish si ei => expand start finish si ei
  | v => .ok [v]

/-! ### Steps -/

/-- The values from `current` on up to `last`, each made from the one before. The number
counts what may still come. -/
def stepsFrom (step : Nat → Value → Except EvalError Value) (last : Value)
    (direction : Ordering) : Nat → Value → List Value → Except EvalError (List Value)
  | 0, _, _ => .error (.domainTooLarge limit)
  | n + 1, current, before =>
    if current.order? last = some direction then do
      let next ← step n current
      if next.order? last = some direction.swap || next.isNull then
        return (current :: before).reverse
      stepsFrom step last direction n next (current :: before)
    else .ok (current :: before).reverse

/-- The elements of a domain. -/
def run (domain : Domain Action) (site : Site) (frame : Frame) :
    Except EvalError (List Value) :=
  match domain with
  | values source => do elements (← source (0 :: site) frame)
  | steps first last cursor successor predecessor => do
    let first ← first (0 :: site) frame
    let last ← last (1 :: site) frame
    match first.order? last with
    | none => return []
    | some .eq => return [first]
    | some direction =>
      let next := if direction = .gt then predecessor else successor
      stepsFrom (fun n v => next (n :: 2 :: site) (frame.bind cursor v)) last direction limit
        first []

end Domain

/-! ### Products -/

namespace Iteration

/-- Goes on with `inner` for each value of a name, until it says to stop. -/
def forEach {σ : Type} (name : String)
    (inner : Site → Frame → σ → Except EvalError (ForInStep σ)) (site : Site) (frame : Frame) :
    Nat → List Value → σ → Except EvalError (ForInStep σ)
  | _, [], s => .ok (.yield s)
  | i, v :: vs, s =>
    match inner (i :: site) (frame.bind name v) s with
    | .ok (.yield s) => forEach name inner site frame (i + 1) vs s
    | other => other

/-- Visits the product of the bindings in order, until `visit` says to stop. -/
def run {σ : Type} (visit : Site → Frame → σ → Except EvalError (ForInStep σ)) :
    List (Binding Action) → Site → Frame → σ → Except EvalError (ForInStep σ)
  | [], site, frame, s => visit site frame s
  | b :: bs, site, frame, s => do
    let values ← b.domain.run (0 :: site) frame
    forEach b.name (run visit bs) site frame 1 values s

/-- The state an iteration ended with. -/
def final {σ : Type} : ForInStep σ → σ
  | .yield s | .done s => s

/-- The values of a body over the product of the bindings. -/
def collect (bindings : List (Binding Action)) (body : Action) : Action := fun site frame => do
  let visit := fun (site : Site) (frame : Frame) (vs : List Value) => do
    let v ← body (0 :: site) frame
    return ForInStep.yield (v :: vs)
  let out ← run visit bindings (0 :: site) frame []
  return .list (final out).reverse

/-- Whether a condition holds everywhere, or somewhere, in the product of the bindings. The
first element that decides ends the iteration. -/
def quantify (every : Bool) (bindings : List (Binding Action)) (condition : Action) : Action :=
  fun site frame => do
    let visit := fun (site : Site) (frame : Frame) (outcome : Bool) => do
      let v ← condition (0 :: site) frame
      return if v.isBool true = every then ForInStep.yield outcome else ForInStep.done (!every)
    let out ← run visit bindings (0 :: site) frame every
    return .boolean (final out)

end Iteration

/-! ### Filters -/

namespace Filter

/-- The element at a position, from one; negative positions count from the end. -/
def element (items : List Value) (position : Value) : Value :=
  match position.asNumber?.bind (·.toInt64?) with
  | none => .null
  | some p =>
    let p := p.toInt
    if p = 0 then .null
    else
      let offset := if 0 < p then p - 1 else items.length + p
      if offset < 0 then .null else items.getD offset.toNat .null

/-- The frame in which an element is tested: its fields and `item` are locals. -/
def itemFrame (frame : Frame) (item : Value) : Frame :=
  match item with
  | .context fields => (frame.bindAll fields).bind "item" item
  | _ => frame.bind "item" item

/-- The elements for which a test holds, added in front of those kept before. -/
def select (test : Action) (site : Site) (frame : Frame) :
    Nat → List Value → List Value → Except EvalError Value
  | _, [], kept => .ok (.list kept.reverse)
  | i, v :: vs, kept => do
    let answer ← test (i :: site) (itemFrame frame v)
    select test site frame (i + 1) vs (if answer.isBool true then v :: kept else kept)

/-- The elements that a filter leaves; a value that is no list counts as its only element. -/
def run (source filter : Action) (kind : FilterKind) : Action := fun site frame => do
  let v ← source (0 :: site) frame
  let items := match v with
    | .list items => items
    | v => [v]
  if v.isNull then return .null
  match kind with
  | .index => return element items (← filter (1 :: site) frame)
  | .predicate => select filter (2 :: site) frame 0 items []
  | .dynamic => do
    match ← filter (1 :: site) (itemFrame frame (items.headD .null)) with
    | .number n => return element items (.number n)
    | _ => select filter (2 :: site) frame 0 items []

end Filter

end Feel
