import Feel.Fragment.Draft
import Feel.Scope

/-!
# Fragments

The result of lowering one expression: its code and what is known of its value before it runs.

* `Fragment`: code with its type, its value where that is known, and what excludes null.
* `Fragment.computed`, `Fragment.nonNull`, `Fragment.constant`: the ways to make one.
-/

namespace Feel

/-- Code and what is known of its value. -/
structure Fragment where
  code : Code
  type : Ty
  /-- The value, where it is known. -/
  constant : Option Value
  /-- Unset only where the value is known not to be null. -/
  nullable : Bool
  /-- The value is a boolean or a machine number. -/
  primitive : Bool

namespace Fragment

/-- The types of booleans and machine numbers. -/
def isMachineType : Ty → Bool
  | .boolean | .number .integer | .number .long | .number .double => true
  | _ => false

/-- Booleans and machine numbers. -/
def isMachineValue : Value → Bool
  | .boolean _ | .number (.integer _) | .number (.long _) | .number (.double _) => true
  | _ => false

/-- A computed value that may be null. -/
def computed (code : Code) (type : Ty) : Fragment := ⟨code, type, none, true, false⟩

/-- A fragment whose value is known not to be null. -/
def nonNull (f : Fragment) : Fragment :=
  { f with nullable := false, primitive := isMachineType f.type }

/-- A fragment whose value may be null or not. -/
def withNullable (f : Fragment) (nullable : Bool) : Fragment :=
  if nullable then { f with nullable := true, primitive := false } else f.nonNull

/-- The null literal. -/
def null : Fragment := ⟨.null, .null, some .null, true, false⟩

/-- A known value at a type. -/
def ofConstant (v : Value) (type : Ty) : Lowering Fragment := do
  let code ← Lowering.constantCode v
  return ⟨code, type, some v, v.isNull, isMachineValue v⟩

/-- A known value at its own type. -/
def ofValue (v : Value) : Lowering Fragment := ofConstant v v.type

/-- The values of fragments, where folding is wanted and all are known. -/
def values? (options : Options) (fs : List Fragment) : Option (List Value) :=
  if options.folding then fs.mapM (·.constant) else none

/-- The value of a fragment, where folding is wanted and it is known. -/
def value? (options : Options) (f : Fragment) : Option Value :=
  if options.folding then f.constant else none

/-- A value that is asked for is known. -/
theorem constant_of_value? {options : Options} {f : Fragment} {v : Value}
    (h : f.value? options = some v) : f.constant = some v := by
  unfold value? at h
  split at h
  · exact h
  · cases h

@[simp] theorem nullable_computed (code : Code) (type : Ty) :
    (computed code type).nullable = true := rfl

@[simp] theorem nullable_nonNull (f : Fragment) : f.nonNull.nullable = false := rfl

@[simp] theorem nullable_withNullable (f : Fragment) (b : Bool) :
    (f.withNullable b).nullable = b := by
  cases b <;> simp [withNullable, nonNull]

end Fragment

end Feel
