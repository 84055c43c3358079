import Feel.Unicode.Folding
import Feel.Unicode.Property

/-!
# Regular expressions

A pattern is a tree of literal texts, character sets, assertions, groups, alternatives and
repetitions. Alternatives and repetitions are ordered: the earlier choice wins. Patterns are
built by functions that keep them in a simplified form: neighbouring literals are one
literal, sequences and alternatives are flat, and alternatives that are single characters
are a set.

* `Pattern`: the trees.
* `Pattern.minLength?`, `Pattern.maxLength?`: bounds on the bytes that a pattern matches.
* `Pattern.concat`, `Pattern.anyOf`, `Pattern.repeated`, `Pattern.ofSet`: the functions that
  build them.
-/

namespace Feel

namespace Regex

/-! ### Assertions -/

/-- A condition on a place in the text. Those on words look at the characters of words, or
at the ASCII ones only. -/
inductive Assertion where
  | textStart
  | textEnd
  | lineStart
  | lineEnd
  /-- The start of a line that a carriage return, a line feed or both ended. -/
  | anyLineStart
  | anyLineEnd
  | wordBoundary (ascii : Bool)
  | noWordBoundary (ascii : Bool)
  | wordStart (ascii : Bool)
  | wordEnd (ascii : Bool)
  | wordStartHalf (ascii : Bool)
  | wordEndHalf (ascii : Bool)
  deriving DecidableEq

/-- Whether a character makes up words. -/
def isWord (ascii : Bool) (c : Char) : Bool :=
  if ascii then c.isAlphanum || c == '_' else Unicode.word.contains c

namespace Assertion

/-- Whether the assertion holds between two characters; at the ends of the text there is
none. -/
def holds (a : Assertion) (before after : Option Char) : Bool :=
  let left (ascii : Bool) := before.any (isWord ascii)
  let right (ascii : Bool) := after.any (isWord ascii)
  match a with
  | textStart => before.isNone
  | textEnd => after.isNone
  | lineStart => before.isNone || before == some '\n'
  | lineEnd => after.isNone || after == some '\n'
  | anyLineStart =>
    before.isNone || before == some '\n' || (before == some '\r' && after != some '\n')
  | anyLineEnd =>
    after.isNone || after == some '\r' || (after == some '\n' && before != some '\r')
  | wordBoundary ascii => left ascii != right ascii
  | noWordBoundary ascii => left ascii == right ascii
  | wordStart ascii => !left ascii && right ascii
  | wordEnd ascii => left ascii && !right ascii
  | wordStartHalf ascii => !left ascii
  | wordEndHalf ascii => !right ascii

end Assertion

/-! ### Patterns -/

/-- A pattern. -/
inductive Pattern where
  | empty
  /-- A text of at least one character. -/
  | literal (cs : List Char)
  /-- One character of a set; the empty set matches nothing. -/
  | set (s : CharSet)
  | check (a : Assertion)
  /-- Between `least` and `most` repetitions; a greedy one prefers more of them. -/
  | rep (p : Pattern) (least : Nat) (most : Option Nat) (greedy : Bool)
  | group (index : Nat) (p : Pattern)
  | seq (ps : List Pattern)
  /-- Alternatives, the earlier ones preferred. -/
  | alt (ps : List Pattern)
  deriving Inhabited

namespace Pattern

mutual

/-- Whether two patterns are the same tree. -/
def same : Pattern → Pattern → Bool
  | empty, empty => true
  | literal cs, literal ds => cs == ds
  | set s, set t => s == t
  | check a, check b => a == b
  | rep p n m g, rep q n' m' g' => n == n' && m == m' && g == g' && same p q
  | group i p, group j q => i == j && same p q
  | seq ps, seq qs => sameAll ps qs
  | alt ps, alt qs => sameAll ps qs
  | _, _ => false

def sameAll : List Pattern → List Pattern → Bool
  | [], [] => true
  | p :: ps, q :: qs => same p q && sameAll ps qs
  | _, _ => false

end

/-! ### Lengths -/

/-- The bytes of a text. -/
def byteLength (cs : List Char) : Nat := cs.foldl (fun n c => n + c.utf8Size) 0

mutual

/-- The fewest bytes a pattern matches, if it can match. -/
def minLength? : Pattern → Option Nat
  | empty | check _ => some 0
  | literal cs => some (byteLength cs)
  | set s => s.ranges[0]?.map fun r => (Char.ofNat r.1).utf8Size
  | rep p least _ _ => (minLength? p).map (· * least)
  | group _ p => minLength? p
  | seq ps => (minLengths? ps).map (·.foldl (· + ·) 0)
  | alt ps => (minLengths? ps).bind (·.min?)

def minLengths? : List Pattern → Option (List Nat)
  | [] => some []
  | p :: ps => do some ((← minLength? p) :: (← minLengths? ps))

end

mutual

/-- The most bytes a pattern matches, if it can match and there is a bound. -/
def maxLength? : Pattern → Option Nat
  | empty | check _ => some 0
  | literal cs => some (byteLength cs)
  | set s => s.ranges.back?.map fun r => (Char.ofNat r.2).utf8Size
  | rep p _ most _ => do some ((← maxLength? p) * (← most))
  | group _ p => maxLength? p
  | seq ps => (maxLengths? ps).map (·.foldl (· + ·) 0)
  | alt ps => (maxLengths? ps).bind (·.max?)

def maxLengths? : List Pattern → Option (List Nat)
  | [] => some []
  | p :: ps => do some ((← maxLength? p) :: (← maxLengths? ps))

end

/-! ### Simplified forms -/

/-- One character of a set. -/
def ofSet (s : CharSet) : Pattern :=
  match s.single? with
  | some c => literal [c]
  | none => set s

/-- The parts of a sequence. -/
def parts : Pattern → List Pattern
  | empty => []
  | seq ps => ps
  | p => [p]

/-- Joins neighbouring literals. -/
def joinLiterals : List Pattern → List Pattern
  | [] => []
  | literal cs :: ps =>
    match joinLiterals ps with
    | literal ds :: qs => literal (cs ++ ds) :: qs
    | qs => literal cs :: qs
  | p :: ps => p :: joinLiterals ps

/-- Patterns one after another. -/
def concat (ps : List Pattern) : Pattern :=
  match joinLiterals (ps.flatMap parts) with
  | [] => empty
  | [p] => p
  | qs => seq qs

/-- The set of a pattern that matches just one character. -/
def charSet? : Pattern → Option CharSet
  | literal [c] => some (.single c)
  | set s => some s
  | _ => none

/-- The alternatives of a pattern. -/
def choices : Pattern → List Pattern
  | alt ps => ps
  | p => [p]

/-- The length of the longest common beginning. -/
def commonLength : List Pattern → List Pattern → Nat
  | p :: ps, q :: qs => if same p q then commonLength ps qs + 1 else 0
  | _, _ => 0

/-- The parts of a sequence of several. -/
def seqParts? : Pattern → Option (List Pattern)
  | seq ps => some ps
  | _ => none

/-- How many parts all alternatives begin with. -/
def sharedLength (ps : List Pattern) : Nat :=
  match ps.mapM seqParts? with
  | some (first :: rest) => rest.foldl (fun n qs => min n (commonLength first qs)) first.length
  | _ => 0

/-- Alternatives; those that are single characters become a set, and what all of them begin
with is taken before them. The number bounds how often that is done. -/
def anyOfWithin : Nat → List Pattern → Pattern
  | fuel, ps =>
    match ps.flatMap choices with
    | [] => set .empty
    | [p] => p
    | qs =>
      match qs.mapM charSet? with
      | some sets => ofSet (.ofRanges (sets.flatMap (·.ranges.toList)))
      | none =>
        match fuel, sharedLength qs with
        | 0, _ | _, 0 => alt qs
        | fuel + 1, n =>
          let rests := qs.map fun q => concat (q.parts.drop n)
          concat ((qs.head?.map parts).getD [] |>.take n |>.concat (anyOfWithin fuel rests))

mutual

/-- How deep sequences are nested, which bounds the common beginnings to be found. -/
def weight : Pattern → Nat
  | rep p _ _ _ | group _ p => weight p + 1
  | seq ps | alt ps => weights ps + 1
  | _ => 1

def weights : List Pattern → Nat
  | [] => 0
  | p :: ps => weight p + weights ps

end

/-- Alternatives, the earlier ones preferred. -/
def anyOf (ps : List Pattern) : Pattern := anyOfWithin (weights ps) ps

/-- A repeated pattern. What can only match the empty text is taken once at most, and a
single repetition is the pattern itself. -/
def repeated (p : Pattern) (least : Nat) (most : Option Nat) (greedy : Bool) : Pattern :=
  let (least, most) :=
    if p.maxLength? == some 0 then (min least 1, some (min (most.getD 1) 1)) else (least, most)
  if least = 0 ∧ most = some 0 then empty
  else if least = 1 ∧ most = some 1 then p
  else rep p least most greedy

end Pattern

end Regex

end Feel
