import Feel.Regex.Escape

/-!
# Bracketed classes

A class lists characters, ranges, escapes, named ASCII classes and other classes between
brackets. Intersection, difference and symmetric difference combine what stands on both
sides of them, from left to right and each with the same strength.

* `Regex.class?`: reads a class and counts how deep it is nested.
-/

namespace Feel

namespace Regex

/-! ### Named classes -/

/-- The ASCII classes that have a name between colons. -/
def namedClass? : String → Option CharSet
  | "alnum" => some (asciiSet [(0x30, 0x39), (0x41, 0x5A), (0x61, 0x7A)])
  | "alpha" => some (asciiSet [(0x41, 0x5A), (0x61, 0x7A)])
  | "ascii" => some (asciiSet [(0, 0x7F)])
  | "blank" => some (asciiSet [(0x9, 0x9), (0x20, 0x20)])
  | "cntrl" => some (asciiSet [(0, 0x1F), (0x7F, 0x7F)])
  | "digit" => some asciiDigit
  | "graph" => some (asciiSet [(0x21, 0x7E)])
  | "lower" => some (asciiSet [(0x61, 0x7A)])
  | "print" => some (asciiSet [(0x20, 0x7E)])
  | "punct" => some (asciiSet [(0x21, 0x2F), (0x3A, 0x40), (0x5B, 0x60), (0x7B, 0x7E)])
  | "space" => some asciiSpace
  | "upper" => some (asciiSet [(0x41, 0x5A)])
  | "word" => some asciiWord
  | "xdigit" => some (asciiSet [(0x30, 0x39), (0x41, 0x46), (0x61, 0x66)])
  | _ => none

/-- Reads a named class after its opening bracket and colon: the class, whether it is negated
and the rest. -/
def namedClassAt? (cs : List Char) : Option (CharSet × Bool × List Char) :=
  let (negated, cs) := match cs with
    | '^' :: cs => (true, cs)
    | cs => (false, cs)
  let name := cs.takeWhile (· != ':')
  match cs.drop name.length with
  | ':' :: ']' :: rest => (namedClass? (String.ofList name)).map fun s => (s, negated, rest)
  | _ => none

/-! ### Items -/

/-- What was listed so far: its ranges, the number of items and how deep they are nested. -/
structure Listed where
  ranges : List (Nat × Nat) := []
  count : Nat := 0
  depth : Nat := 0

namespace Listed

/-- Adds an item. -/
def add (l : Listed) (s : CharSet) (depth : Nat) : Listed :=
  ⟨s.ranges.toList ++ l.ranges, l.count + 1, max l.depth depth⟩

/-- The set of the items. -/
def set (l : Listed) : CharSet := .ofRanges l.ranges

/-- The nesting of the list; several items are nested in it. -/
def nesting (l : Listed) : Nat := if 1 < l.count then l.depth + 1 else l.depth

end Listed

/-- An operation between lists of items. -/
inductive SetOperation where
  | inter
  | diff
  | symmDiff
  deriving DecidableEq

/-- The result of an operation; its operands are closed under case before it. -/
def SetOperation.apply (op : SetOperation) (f : Flags) (s t : CharSet) : CharSet :=
  let s := f.fold s
  let t := f.fold t
  match op with
  | .inter => s.inter t
  | .diff => s.diff t
  | .symmDiff => s.symmDiff t

/-- A set with its nesting. -/
structure Nested where
  set : CharSet
  depth : Nat

/-- What is on the left of an operation that waits for its right side. -/
abbrev Waiting := Option (SetOperation × Nested)

/-- Completes the operation that waits, if there is one. -/
def Waiting.complete (w : Waiting) (f : Flags) (l : Listed) : Nested :=
  match w with
  | none => ⟨l.set, l.nesting⟩
  | some (op, left) => ⟨op.apply f left.set l.set, max left.depth l.nesting + 1⟩

/-- Reads a character or escape of a class. -/
def classAtom? (f : Flags) : List Char → Option (Atom × List Char)
  | '\\' :: cs => escape? f cs
  | c :: cs => some (.char c false, cs)
  | [] => none

/-- The code point of the end of a range. Without Unicode it is in ASCII. -/
def rangeEnd? (f : Flags) : Atom → Option Nat
  | .char c _ => if f.unicode || c.toNat < 0x80 then some c.toNat else none
  | _ => none

/-- The set of an item that is no range. -/
def itemSet? (f : Flags) : Atom → Option CharSet
  | .set s => some s
  | atom => (rangeEnd? f atom).map fun n => .range n n

/-- Reads an item: a range where a hyphen follows that is neither the last character of the
class nor one of two. -/
def classItem? (f : Flags) (cs : List Char) : Option (CharSet × List Char) := do
  let (first, cs) ← classAtom? f cs
  let cs := f.skip cs
  match cs with
  | [] => none
  | '-' :: _ =>
    if f.peek cs == some ']' || f.peek cs == some '-' then some (← itemSet? f first, cs)
    else
      let (last, rest) ← classAtom? f (f.next cs)
      let a ← rangeEnd? f first
      let b ← rangeEnd? f last
      if a ≤ b then some (.range a b, rest) else none
  | cs => some (← itemSet? f first, cs)

/-! ### Classes -/

/-- The hyphens that a class may begin with. -/
def leadingHyphens (f : Flags) : Nat → List Char → Listed → Listed × List Char
  | 0, cs, l => (l, cs)
  | fuel + 1, cs, l =>
    match cs with
    | '-' :: _ => leadingHyphens f fuel (f.next cs) (l.add (.single '-') 0)
    | cs => (l, cs)

/-- Reads the beginning of a class after its bracket: whether it is negated, and the hyphens
or the closing bracket that stand for themselves there. -/
def classStart (f : Flags) (cs : List Char) : Bool × Listed × List Char :=
  let cs := f.skip cs
  let (negated, cs) := match cs with
    | '^' :: _ => (true, f.next cs)
    | cs => (false, cs)
  let (l, cs) := leadingHyphens f cs.length cs {}
  match cs with
  | ']' :: _ =>
    if l.count = 0 then (negated, l.add (.single ']') 0, f.next cs) else (negated, l, cs)
  | cs => (negated, l, cs)

/-- Reads the items of a class up to its closing bracket; `nested` reads a class within it
after its bracket. -/
def classItems? (nested : List Char → Option (Nested × List Char)) (f : Flags) :
    Nat → List Char → Waiting → Listed → Option (Nested × List Char)
  | 0, _, _, _ => none
  | fuel + 1, cs, w, l =>
    let operation (op : SetOperation) (rest : List Char) :=
      classItems? nested f fuel rest (some (op, w.complete f l)) {}
    let inner (rest : List Char) : Option (Nested × List Char) := do
      let (n, rest) ← nested rest
      classItems? nested f fuel rest w (l.add n.set n.depth)
    match f.skip cs with
    | [] => none
    | ']' :: rest => some (w.complete f l, rest)
    | '[' :: ':' :: rest =>
      match namedClassAt? rest with
      | some (s, negated, rest) => do
        let s ← f.negate? negated (f.fold s)
        classItems? nested f fuel rest w (l.add s 0)
      | none => inner (':' :: rest)
    | '[' :: rest => inner rest
    | '&' :: '&' :: rest => operation .inter rest
    | '-' :: '-' :: rest => operation .diff rest
    | '~' :: '~' :: rest => operation .symmDiff rest
    | cs => do
      let (s, rest) ← classItem? f cs
      classItems? nested f fuel rest w (l.add s 0)

/-- Reads a class after its opening bracket. Classes are nested `limit` deep at most. -/
def class? (f : Flags) : (limit : Nat) → List Char → Option (Nested × List Char)
  | 0, _ => none
  | limit + 1, cs => do
    let (negated, l, cs) := classStart f cs
    let (n, rest) ← classItems? (class? f limit) f (cs.length + 1) cs none l
    let s ← f.negate? negated (f.fold n.set)
    some (⟨s, n.depth + 1⟩, rest)

end Regex

end Feel
