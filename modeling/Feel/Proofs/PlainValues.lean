import Feel.Proofs.OperatorTypes

/-!
# Values without functions

A plain value holds no function, however deep. So is every value that fits a type that leaves no
room for functions, which the results of most operators are.

* `Datum.Plain`: a value that holds no function.
* `Ty.isPlain`, `Fits.plain`: types that leave no room for functions.
* `Datum.Plain.arith` and the laws beside it: what operators give is plain.
-/

namespace Feel

/-- A value that holds no function. -/
inductive Datum.Plain {κ : Type} : Datum κ → Prop
  | null : Plain .null
  | boolean (b : Bool) : Plain (.boolean b)
  | number (n : Number) : Plain (.number n)
  | string (s : String) : Plain (.string s)
  | date (d : Date) : Plain (.date d)
  | time (t : Time) : Plain (.time t)
  | dateTime (t : DateTime) : Plain (.dateTime t)
  | dayTimeDuration (n : Int) : Plain (.dayTimeDuration n)
  | yearMonthDuration (m : Int64) : Plain (.yearMonthDuration m)
  | list {items : List (Datum κ)} (h : ∀ v ∈ items, Plain v) : Plain (.list items)
  | context {entries : List (String × Datum κ)}
      (h : ∀ e ∈ entries, Plain e.2) : Plain (.context entries)
  | range {s e : Option (Datum κ)} {si ei : Bool} (hs : ∀ v, s = some v → Plain v)
      (he : ∀ v, e = some v → Plain v) : Plain (.range s e si ei)

/-- The types whose values hold no functions. Contexts may have more entries than their types
say. -/
def Ty.isPlain : Ty → Bool
  | any | context _ | function _ _ _ => false
  | list element => isPlain element
  | range element _ _ => isPlain element
  | _ => true

theorem Fits.plain {v : Value} {t : Ty} (h : Fits v t) (ht : t.isPlain = true) : v.Plain := by
  induction h with
  | list _ ih => exact .list fun v hv => ih v hv ht
  | range _ _ ihs ihe => exact .range (fun v hv => ihs v hv ht) fun v hv => ihe v hv ht
  | any | context | function => cases ht
  | _ => constructor

namespace Datum.Plain

theorem arith (op : Operator) (l r : Value) (mode : NumericMode) (precision : Nat) :
    (l.arith op r mode precision).Plain :=
  (Fits.arith op l r mode precision .number).plain rfl

theorem concat (l r : Value) : (l.concat r).Plain := (Fits.concat l r).plain rfl

theorem compare (op : Operator) (l r : Value) : (Datum.compare op l r).Plain :=
  (Fits.compare op l r).plain rfl

theorem compareAs (op : Operator) (mode : CompareMode) (l r : Value) :
    (Datum.compareAs op mode l r).Plain :=
  (Fits.compareAs op mode l r).plain rfl

theorem equality (l r : Value) (negated : Bool) : (l.equality r negated).Plain := .boolean _

theorem and (l r : Value) : (l.and r).Plain := (Fits.and l r).plain rfl

theorem logic (op : Operator) (l r : Value) : (Datum.logic op l r).Plain :=
  (Fits.logic op l r).plain rfl

theorem not (v : Value) : v.not.Plain := (Fits.not v).plain rfl

theorem negate (v : Value) : v.negate.Plain := by
  cases v <;> constructor

theorem ofBool? (o : Option Bool) : (Datum.ofBool? o : Value).Plain := (Fits.ofBool? o).plain rfl

end Datum.Plain

end Feel
