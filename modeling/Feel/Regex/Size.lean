import Feel.Regex.Pattern
import Std.Data.HashMap

/-!
# The size of a pattern

A pattern is refused when the automata for it, which read the bytes of a text forward and
backward, would take more memory than a limit. A state takes `stateSize` bytes, and each of
its transitions some more. The forward automaton notes groups and the backward one does not.
Only the sizes are computed here: of the automata themselves just the number of states and
the bytes of the transitions are kept.

* `Regex.sequences`: the byte ranges that encode a range of characters.
* `Regex.Automaton.pattern?`: adds the states of a pattern.
* `Regex.fits`: whether both automata stay within the limit.
-/

namespace Feel

namespace Regex

/-! ### Bytes of characters -/

/-- Ranges of bytes, one for each byte of an encoded character. -/
abbrev ByteRanges := List (Nat × Nat)

/-- Where a range of characters has to be cut so that its bytes vary independently: at the
ends of the encodings of one, two and three bytes, and where the leading bytes of its ends
differ although the range does not hold all their continuations. -/
def cut? (s e : Nat) : Option Nat :=
  match [0x7F, 0x7FF, 0xFFFF].find? fun m => s ≤ m && m < e with
  | some m => some m
  | none =>
    if e ≤ 0x7F then none
    else
      [0x40, 0x1000, 0x40000].findSome? fun k =>
        if s / k = e / k then none
        else if s % k ≠ 0 then some (s / k * k + (k - 1))
        else if e % k ≠ k - 1 then some (e / k * k - 1)
        else none

/-- The bytes of a code point. -/
def bytesOf (n : Nat) : List Nat := (String.utf8EncodeChar (Char.ofNat n)).map (·.toNat)

/-- The byte ranges of the characters from `s` to `e`, cut `fuel` times at most. -/
def sequencesWithin : Nat → Nat → Nat → List ByteRanges
  | 0, _, _ => []
  | fuel + 1, s, e =>
    match cut? s e with
    | some m => sequencesWithin fuel s m ++ sequencesWithin fuel (m + 1) e
    | none => [(bytesOf s).zip (bytesOf e)]

/-- The byte ranges that encode the characters of a set, in ascending order. -/
def sequences (s : CharSet) : List ByteRanges :=
  s.ranges.toList.flatMap fun r => sequencesWithin 16 r.1 r.2

/-! ### Automata -/

/-- The bytes of a state without its transitions. -/
def stateSize : Nat := 32

/-- The bytes of a transition on a range of bytes. -/
def transitionSize : Nat := 8

/-- The bytes of a transition that reads nothing. -/
def jumpSize : Nat := 4

/-- The most bytes an automaton may take. -/
def sizeLimit : Nat := 0xA00000

/-- The states of an automaton so far and the bytes of their transitions. -/
structure Automaton where
  states : Nat := 0
  transitions : Nat := 0

/-- An automaton whose last part ends in a branch or not. A jump from a branch takes room,
one from another state does not. -/
structure Built where
  automaton : Automaton
  branches : Bool

namespace Automaton

def size (a : Automaton) : Nat := a.states * stateSize + a.transitions

/-- Adds states. -/
def add (a : Automaton) (n : Nat) : Automaton := { a with states := a.states + n }

/-- Adds transitions that read nothing. -/
def jump (a : Automaton) (n : Nat) : Automaton :=
  { a with transitions := a.transitions + n * jumpSize }

/-- Adds a state with transitions on bytes. -/
def sparse (a : Automaton) (n : Nat) : Automaton :=
  ⟨a.states + 1, a.transitions + n * transitionSize⟩

/-- The automaton as long as it is within the limit. -/
def within? (a : Automaton) : Option Automaton := if a.size ≤ sizeLimit then some a else none

end Automaton

/-- Continues after a part. -/
def Built.jump (b : Built) : Automaton := if b.branches then b.automaton.jump 1 else b.automaton

/-! ### Sets -/

/-- Mixes numbers to a hash. -/
def mix (ns : List Nat) : UInt64 :=
  ns.foldl (fun h n => (h ^^^ n.toUInt64) * 1099511628211) 14695981039346656037

/-- The states made so far by what they do. Of entries with the same place the latest
stays. -/
structure Made where
  places : Nat
  entries : Std.HashMap Nat (List Nat × Nat) := {}

namespace Made

def place (m : Made) (key : List Nat) : Nat := (mix key).toNat % m.places

/-- The state that does the same. -/
def find? (m : Made) (key : List Nat) : Option Nat :=
  match m.entries[m.place key]? with
  | some (other, id) => if other == key then some id else none
  | none => none

def insert (m : Made) (key : List Nat) (id : Nat) : Made :=
  { m with entries := m.entries.insert (m.place key) (key, id) }

end Made

/-- Sequences that begin with the same range, in order, without that range. -/
def byFirst : List ByteRanges → List ((Nat × Nat) × List ByteRanges)
  | [] => []
  | [] :: rest => byFirst rest
  | (r :: tail) :: rest =>
    match byFirst rest with
    | (r', tails) :: more =>
      if r = r' then (r, tail :: tails) :: more else (r, [tail]) :: (r', tails) :: more
    | [] => [(r, [tail])]

mutual

/-- The state that reads the given sequences and then goes to the state `target`. States that
do the same are made once. -/
def forwardState (target : Nat) : Nat → List ByteRanges → Automaton × Made →
    Nat × Automaton × Made
  | 0, _, am => (target, am)
  | depth + 1, seqs, am =>
    if seqs.all (·.isEmpty) then (target, am)
    else
      let (key, a, made) := forwardMoves target depth (byFirst seqs) am
      match made.find? key with
      | some id => (id, a, made)
      | none => (a.states, a.sparse (key.length / 3), made.insert key a.states)

/-- The transitions of a state, each as two bounds and the state it leads to. -/
def forwardMoves (target : Nat) : Nat → List ((Nat × Nat) × List ByteRanges) → Automaton × Made →
    List Nat × Automaton × Made
  | _, [], am => ([], am)
  | depth, (r, tails) :: more, am =>
    let (id, am) := forwardState target depth tails am
    let (key, am) := forwardMoves target depth more am
    (r.1 :: r.2 :: id :: key, am)

end

/-- The states that read the rest of a sequence backward, from the state `next` on. -/
def backwardStates : ByteRanges → Nat → Automaton × Made → Automaton × Made
  | [], _, am => am
  | r :: rs, next, (a, made) =>
    let key := [next, r.1, r.2]
    match made.find? key with
    | some id => backwardStates rs id (a, made)
    | none => backwardStates rs a.states (a.add 1, made.insert key a.states)

/-- Adds the states of a set. -/
def Automaton.set (a : Automaton) (backward : Bool) (s : CharSet) : Automaton :=
  if s.isAscii then (a.add 1).sparse s.ranges.size
  else
    let seqs := sequences s
    if backward then
      let last := a.states + 1
      let start : Automaton × Made := (a.add 2, { places := 1000 })
      let am := seqs.foldl (fun am seq => backwardStates seq last am) start
      am.1.jump seqs.length
    else (forwardState a.states 4 seqs (a.add 1, { places := 10000 })).2.1

/-! ### Literals -/

/-- The texts between empty ones; an empty one that follows another at the beginning does
not count. -/
def splitEmpty : List (List Nat) → List (List (List Nat))
  | [] => [[]]
  | t :: ts =>
    if t.isEmpty then [] :: splitEmpty ts
    else match splitEmpty ts with
      | chunk :: chunks => (t :: chunk) :: chunks
      | [] => [[t]]

def dropRepeatedEmpty : List (List Nat) → List (List Nat)
  | [] :: [] :: ts => dropRepeatedEmpty ([] :: ts)
  | ts => ts

/-- The tails of texts by their first byte. -/
def byByte (ts : List (List Nat)) : List (List (List Nat)) :=
  let firsts := (ts.filterMap (·.head?)).eraseDups
  firsts.map fun b => (ts.filter fun t => t.head? == some b).map (·.drop 1)

/-- Adds the states that tell texts apart byte by byte, down to a depth. -/
def literalStates : Nat → List (List Nat) → Automaton → Automaton
  | 0, _, a => a
  | depth + 1, ts, a =>
    if ts.all (·.isEmpty) then a
    else
      let chunks := (splitEmpty (dropRepeatedEmpty ts)).map byByte
      let a := chunks.flatten.foldl (fun a tails => literalStates depth tails a) a
      let a := chunks.foldl (fun a groups =>
        match groups.length with
        | 0 => a
        | 1 => a.add 1
        | n => a.sparse n) a
      (a.add 1).jump ((chunks.filter (!·.isEmpty)).length + (chunks.length - 1))

/-- The bytes of a pattern that is a literal. -/
def literalBytes? : Pattern → Option (List Nat)
  | .literal cs => some (cs.flatMap fun c => bytesOf c.toNat)
  | _ => none

/-- Adds the states of alternatives that are all literals. -/
def Automaton.literals (a : Automaton) (backward : Bool) (ts : List (List Nat)) : Automaton :=
  let ts := if backward then ts.map List.reverse else ts
  literalStates (ts.foldl (fun n t => max n t.length) 0) ts (a.add 1)

/-! ### Patterns -/

namespace Automaton

/-- Adds a part several times, one after the other. -/
def copies? (part : Automaton → Option Built) : Nat → Built → Option Built
  | 0, b => some b
  | n + 1, b => do
    let next ← part b.jump
    let _ ← next.automaton.within?
    copies? part n next

/-- Adds exactly so many copies of a part. -/
def exactly? (part : Automaton → Option Built) (n : Nat) (a : Automaton) : Option Built :=
  match n with
  | 0 => some ⟨a.add 1, false⟩
  | n + 1 => do copies? part n (← part a)

/-- Adds copies of a part that may be left out, each after a branch. -/
def optionals? (part : Automaton → Option Built) : Nat → Built → Option Built
  | 0, b => some b
  | n + 1, b => do
    let next ← part (b.jump.add 1)
    let _ ← next.automaton.within?
    optionals? part n { next with automaton := next.automaton.jump 2 }

/-- Adds a part and a branch back to it. -/
def loop? (part : Automaton → Option Built) (b : Automaton) : Option Built := do
  let last ← part b
  some ⟨(last.jump.add 1).jump 1, true⟩

mutual

/-- Adds the states of a pattern, as long as the automaton is within the limit. -/
def pattern? (backward : Bool) : Pattern → Automaton → Option Built
  | .empty, a | .check _, a => some ⟨a.add 1, false⟩
  | .literal cs, a => some ⟨a.add (Pattern.byteLength cs), false⟩
  | .set s, a => do some ⟨← (a.set backward s).within?, false⟩
  | .group _ p, a =>
    if backward then pattern? backward p a
    else do
      let b ← pattern? backward p (a.add 1)
      some ⟨b.jump.add 1, false⟩
  | .seq ps, a => sequence? backward ps a
  | .alt ps, a =>
    match ps.mapM literalBytes? with
    | some ts => some ⟨a.literals backward ts, false⟩
    | none => do
      let a ← choices? backward ps 2 a
      some ⟨a.jump ps.length, false⟩
  | .rep p least most _, a =>
    let part := pattern? backward p
    match least, most with
    | 0, some 1 => do
      let b ← part (a.add 1)
      some ⟨(b.jump.add 1).jump 2, false⟩
    | 0, none =>
      if 0 < (p.minLength?.getD 0) then do
        let b ← part (a.add 1)
        some ⟨b.jump.jump 1, true⟩
      else do
        let b ← part a
        some ⟨(b.jump.add 3).jump 4, false⟩
    | 1, none => loop? part a
    | n, none => do
      let b ← exactly? part (n - 1) a
      loop? part b.jump
    | n, some m => do
      let b ← exactly? part n a
      if n = m then some b
      else
        let b ← optionals? part (m - n) { b with automaton := b.automaton.add 1 }
        some ⟨b.jump, false⟩

/-- Adds patterns one after another, the last one first in the backward automaton. -/
def sequence? (backward : Bool) : List Pattern → Automaton → Option Built
  | [], a => some ⟨a, false⟩
  | [p], a => pattern? backward p a
  | p :: ps, a =>
    if backward then do
      let b ← sequence? backward ps a
      pattern? backward p b.jump
    else do
      let b ← pattern? backward p a
      sequence? backward ps b.jump

/-- Adds alternatives, each of which goes on to a common end. The branch to them and that end
are made after the first `n`. -/
def choices? (backward : Bool) : List Pattern → (n : Nat) → Automaton → Option Automaton
  | [], _, a => some a
  | p :: ps, n, a => do
    let b ← pattern? backward p a
    choices? backward ps (n - 1) (if n = 1 then b.jump.add 2 else b.jump)

end

end Automaton

/-! ### Anchors -/

mutual

/-- Whether a pattern matches at the beginning of the text only. -/
def startsAtText : Pattern → Bool
  | .check a => a == .textStart
  | .rep p least _ _ => 0 < least && startsAtText p
  | .group _ p => startsAtText p
  | .seq ps => someStarts ps
  | .alt ps => allStart ps
  | _ => false

/-- Whether one of the parts up to the first that reads something does. -/
def someStarts : List Pattern → Bool
  | [] => false
  | p :: ps => startsAtText p || (p.maxLength? == some 0 && someStarts ps)

def allStart : List Pattern → Bool
  | [] => true
  | p :: ps => startsAtText p && allStart ps

end

mutual

/-- Whether a pattern matches at the end of the text only. -/
def endsAtText : Pattern → Bool
  | .check a => a == .textEnd
  | .rep p least _ _ => 0 < least && endsAtText p
  | .group _ p => endsAtText p
  | .seq ps => (lastsEnd ps).1
  | .alt ps => allEnd ps
  | _ => false

/-- Whether one of the parts after the last that reads something does, and whether none of
the parts reads anything. -/
def lastsEnd : List Pattern → Bool × Bool
  | [] => (false, true)
  | p :: ps =>
    let (found, silent) := lastsEnd ps
    (found || (silent && endsAtText p), silent && p.maxLength? == some 0)

def allEnd : List Pattern → Bool
  | [] => true
  | p :: ps => endsAtText p && allEnd ps

end

/-! ### The limit -/

/-- Adds what comes before a pattern that may begin anywhere. -/
def Automaton.start (anchored : Bool) : Automaton :=
  if anchored then ({} : Automaton).add 1
  else ((({} : Automaton).add 2).sparse 1).jump 2

/-- Whether an automaton for the whole pattern stays within the limit. -/
def fitsWay (backward : Bool) (p : Pattern) : Bool :=
  let anchored := if backward then endsAtText p else startsAtText p
  match (Automaton.start anchored).pattern? backward (.group 0 p) with
  | some b => (b.jump.add 1).within?.isSome
  | none => false

mutual

/-- A rough upper bound of the size, which is enough for most patterns. -/
def roughSize : Pattern → Nat
  | .literal cs => cs.length * 4 * stateSize
  | .set s => s.ranges.foldl (fun n r => n + if r.1 / 64 = r.2 / 64 then 200 else 2200) 200
  | .rep p least most _ => (roughSize p + 200) * (max least (most.getD 0) + 2)
  | .group _ p => roughSize p + 200
  | .seq ps | .alt ps => roughSizes ps + 200
  | _ => 200

def roughSizes : List Pattern → Nat
  | [] => 0
  | p :: ps => roughSize p + 200 + roughSizes ps

end

/-- Whether the automata of a pattern stay within the limit. -/
def fits (p : Pattern) : Bool :=
  roughSize p + 1000 ≤ sizeLimit || (fitsWay false p && fitsWay true p)

end Regex

end Feel
