import Feel.CompileError
import Feel.Value.Order
import Feel.Value.Typing

/-!
# Drafts of programs

What has been gathered for a program while its parts are lowered: the constant pool, the
number of cursors in use and the warnings. A constant is pooled once: a value that is the same
as a pooled one of the same type takes its place.

* `Draft`: what has been gathered.
* `Draft.intern`: the place of a value in the pool.
* `Draft.constantCode`: the code that loads a value.
* `Lowering`: steps that add to a draft and can fail.
-/

namespace Feel

/-- What has been gathered for a program. -/
structure Draft where
  /-- The constant pool. -/
  constants : List Value := []
  /-- How many fresh locals were made. -/
  locals : Nat := 0
  warnings : List String := []
  deriving Inhabited

namespace Draft

/-- Whether two values can share a place in the pool. -/
def sharesPlace (a b : Value) : Bool := a.same b && a.type == b.type

/-- The place of a value in the pool, and the pool with the value in it. -/
def intern (d : Draft) (v : Value) : Nat × Draft :=
  match d.constants.findIdx? (sharesPlace · v) with
  | some i => (i, d)
  | none => (d.constants.length, { d with constants := d.constants ++ [v] })

/-- Values that are loaded without the pool: null, booleans and machine numbers. -/
def isInline : Value → Bool
  | .null | .boolean _ | .number (.integer _) | .number (.long _) | .number (.double _) => true
  | _ => false

/-- The code that loads a value. -/
def constantCode (d : Draft) (v : Value) : Code × Draft :=
  if isInline v then (.const v, d)
  else
    let (i, d) := d.intern v
    (.constRef i, d)

/-- A local that no text can name and no other part uses. -/
def fresh (d : Draft) (name : String) : String × Draft :=
  let n := d.locals + 1
  (name ++ "#" ++ toString n, { d with locals := n })

/-- Adds warnings. -/
def warn (d : Draft) (more : List String) : Draft := { d with warnings := d.warnings ++ more }

/-- The pool only grows at its end. -/
theorem constants_intern (d : Draft) (v : Value) :
    ∃ more, (d.intern v).2.constants = d.constants ++ more := by
  unfold intern
  split
  · exact ⟨[], by simp⟩
  · exact ⟨[v], rfl⟩

/-- The place of a value is within the pool. -/
theorem intern_lt (d : Draft) (v : Value) : (d.intern v).1 < (d.intern v).2.constants.length := by
  unfold intern
  split
  · next h => exact (List.findIdx?_eq_some_iff_getElem.mp h).1
  · simp

end Draft

/-- Steps that add to a draft and can fail. -/
abbrev Lowering := StateT Draft (Except CompileError)

namespace Lowering

/-- The place of a value in the pool. -/
def intern (v : Value) : Lowering Nat := modifyGet (·.intern v)

/-- The code that loads a value. -/
def constantCode (v : Value) : Lowering Code := modifyGet (·.constantCode v)

/-- A fresh local. -/
def fresh (name : String) : Lowering String := modifyGet (·.fresh name)

/-- Adds warnings. -/
def warn (more : List String) : Lowering Unit := modify (·.warn more)

end Lowering

end Feel
