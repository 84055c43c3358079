import Feel.Text.Characters

/-!
# Sets of characters

A set of characters is kept as its ranges of code points, in ascending order and with a gap
between any two of them. No range holds a surrogate, so a set and its complement hold every
character between them and nothing else.

* `CharSet.contains`: membership, by halving the ranges.
* `CharSet.union`, `CharSet.inter`, `CharSet.diff`, `CharSet.symmDiff`,
  `CharSet.complement`: the operations of sets.
* `CharSet.ofHex`: the set that a table lists.
-/

namespace Feel

/-- A set of characters as ascending ranges of code points, both ends included. -/
structure CharSet where
  ranges : Array (Nat × Nat)
  deriving DecidableEq, Inhabited

namespace CharSet

/-! ### Ranges in order -/

/-- The last code point. -/
def lastCode : Nat := 0x10FFFF

/-- The parts of a range on both sides of the surrogates. -/
def clip (r : Nat × Nat) : List (Nat × Nat) :=
  (if r.1 ≤ r.2 ∧ r.1 ≤ 0xD7FF then [(r.1, min r.2 0xD7FF)] else []) ++
    (if r.1 ≤ r.2 ∧ 0xE000 ≤ r.2 then [(max r.1 0xE000, min r.2 lastCode)] else [])

/-- Joins the range from `a` to `b` with those after it that overlap or touch it. -/
def joinFrom (a b : Nat) : List (Nat × Nat) → List (Nat × Nat)
  | [] => [(a, b)]
  | (c, d) :: rest =>
    if c ≤ b + 1 then joinFrom a (max b d) rest else (a, b) :: joinFrom c d rest

/-- Joins ascending ranges that overlap or touch. -/
def join : List (Nat × Nat) → List (Nat × Nat)
  | [] => []
  | (a, b) :: rest => joinFrom a b rest

/-- The set of the characters in any of the ranges, which come in any order. -/
def ofRanges (rs : List (Nat × Nat)) : CharSet :=
  let sorted := (rs.flatMap clip).mergeSort fun r s => decide (r.1 ≤ s.1)
  ⟨(join sorted).toArray⟩

/-- The set of no character. -/
def empty : CharSet := ⟨#[]⟩

/-- The characters from one code point to another. -/
def range (first last : Nat) : CharSet := ofRanges [(first, last)]

/-- Every character. -/
def all : CharSet := range 0 lastCode

def single (c : Char) : CharSet := ⟨#[(c.toNat, c.toNat)]⟩

/-! ### Membership -/

/-- Looks for a code point among the ranges from index `lo` to before index `hi`. -/
def search (ranges : Array (Nat × Nat)) (n : Nat) : Nat → Nat → Nat → Bool
  | 0, _, _ => false
  | fuel + 1, lo, hi =>
    if hi ≤ lo then false
    else
      let mid := (lo + hi) / 2
      match ranges[mid]? with
      | none => false
      | some (a, b) =>
        if n < a then search ranges n fuel lo mid
        else if b < n then search ranges n fuel (mid + 1) hi
        else true

/-- Whether a character is in the set. -/
def contains (s : CharSet) (c : Char) : Bool :=
  search s.ranges c.toNat (s.ranges.size + 1) 0 s.ranges.size

/-- Whether the set holds no character. -/
def isEmpty (s : CharSet) : Bool := s.ranges.isEmpty

/-- The character of a set that holds just one. -/
def single? (s : CharSet) : Option Char :=
  match s.ranges.toList with
  | [(a, b)] => if a = b then some (Char.ofNat a) else none
  | _ => none

/-- Whether no character of the set is beyond ASCII. -/
def isAscii (s : CharSet) : Bool :=
  match s.ranges.back? with
  | some (_, b) => decide (b ≤ 0x7F)
  | none => true

/-! ### Operations -/

/-- The characters of either set. -/
def union (s t : CharSet) : CharSet := ofRanges (s.ranges.toList ++ t.ranges.toList)

/-- The ranges between the given ones, from the code point `next` on. -/
def gaps : Nat → List (Nat × Nat) → List (Nat × Nat)
  | next, [] => if next ≤ lastCode then [(next, lastCode)] else []
  | next, (a, b) :: rest =>
    if next < a then (next, a - 1) :: gaps (b + 1) rest else gaps (b + 1) rest

/-- The characters that are not in the set. -/
def complement (s : CharSet) : CharSet := ofRanges (gaps 0 s.ranges.toList)

/-- The characters of both sets. -/
def inter (s t : CharSet) : CharSet := (s.complement.union t.complement).complement

/-- The characters of the first set that are not in the second. -/
def diff (s t : CharSet) : CharSet := (s.complement.union t).complement

/-- The characters of exactly one of the sets. -/
def symmDiff (s t : CharSet) : CharSet := (s.union t).diff (s.inter t)

/-! ### Tables -/

/-- Reads ranges such as `41-5A` between blanks. The number read so far is `n`, and `start`
is what stood before a hyphen. -/
def hexRanges : List Char → Nat → Option Nat → List (Nat × Nat)
  | [], n, start => [(start.getD n, n)]
  | c :: cs, n, start =>
    if c = ' ' then (start.getD n, n) :: hexRanges cs 0 none
    else if c = '-' then hexRanges cs 0 (some n)
    else hexRanges cs (n * 16 + (Text.hexValue? c).getD 0) start

/-- The set whose ranges the lines list in ascending order. -/
def ofHex (lines : List String) : CharSet :=
  ⟨(lines.flatMap fun line => hexRanges line.toList 0 none).toArray⟩

end CharSet

end Feel
