/-!
# Overflow

Sums, differences and opposites of integers of 64 bits may have more. A program that checks its
arithmetic stops there, and one that does not goes on with the lower 64 bits. Where the exact result
has 64 bits both give it.

* `Overflow`: the two kinds of programs.
* `Overflow.add?`, `Overflow.sub?`, `Overflow.neg?`: their arithmetic.
-/

namespace Feel

/-- What a program does where a result exceeds 64 bits. -/
inductive Overflow where
  /-- It goes on with the lower 64 bits. -/
  | wraps
  | stops
  deriving DecidableEq

namespace Overflow

/-- The result of an operation by its exact value and the lower 64 bits of it. There is none where
the program stops. -/
def result? (o : Overflow) (exact : Int) (word : Int64) : Option Int64 :=
  match o with
  | wraps => some word
  | stops => if word.toInt = exact then some word else none

def add? (o : Overflow) (a b : Int64) : Option Int64 := o.result? (a.toInt + b.toInt) (a + b)

def sub? (o : Overflow) (a b : Int64) : Option Int64 := o.result? (a.toInt - b.toInt) (a - b)

def neg? (o : Overflow) (a : Int64) : Option Int64 := o.result? (-a.toInt) (-a)

variable {exact : Int} {word : Int64}

/-- An exact result is that of every program. -/
theorem result?_of_exact (o : Overflow) (h : word.toInt = exact) :
    o.result? exact word = some word := by
  cases o with
  | wraps => rfl
  | stops => exact if_pos h

/-- A program with checks stops where the result is not exact. -/
theorem result?_of_ne (h : word.toInt ≠ exact) : stops.result? exact word = none :=
  if_neg h

end Overflow

end Feel
