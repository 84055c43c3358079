import Feel.Regex.Class
import Feel.Calendar.Text
import Feel.Unicode.Alphabet

/-!
# Reading regular expressions

The reader accepts literals, escapes, classes, groups with names and flags, anchors, word
boundaries and counted repetitions. There are no look-around assertions and no references to
groups. Groups, repetitions, sequences, alternatives and classes are nested `nestingLimit`
deep at most.

* `Regex.parse?`: the pattern of a text with its groups.
-/

namespace Feel

namespace Regex

/-- The deepest nesting of a pattern. -/
def nestingLimit : Nat := 250

/-- What is left to read and what was seen of groups. -/
structure State where
  rest : List Char
  flags : Flags
  groups : Nat := 0
  names : List (String × Nat) := []

/-- A part of a pattern: what it matches, how deep it is nested and whether it may be
repeated. Flags are a part that may not. -/
structure Part where
  pattern : Pattern
  depth : Nat := 0
  repeatable : Bool := true

namespace Part

/-- Parts one after another, given in reverse. -/
def sequence (parts : List Part) : Part :=
  match parts with
  | [] => ⟨.empty, 0, true⟩
  | [p] => p
  | ps =>
    let depth := ps.foldl (fun d p => max d p.depth) 0
    ⟨.concat (ps.reverse.map (·.pattern)), depth + 1, true⟩

/-- Alternatives, given in reverse. -/
def alternatives (parts : List Part) : Part :=
  match parts with
  | [p] => p
  | ps => ⟨.anyOf (ps.reverse.map (·.pattern)), (ps.foldl (fun d p => max d p.depth) 0) + 1, true⟩

end Part

/-! ### Repetitions -/

/-- Reads the digits of a count; blanks between them mean nothing in the verbose form. -/
def countDigits (f : Flags) : Nat → List Char → List Char → List Char × List Char
  | 0, cs, acc => (acc.reverse, cs)
  | _ + 1, [], acc => (acc.reverse, [])
  | fuel + 1, c :: cs, acc =>
    if c.isDigit then countDigits f fuel (f.next (c :: cs)) (c :: acc)
    else (acc.reverse, c :: cs)

/-- Reads a count below `2 ^ 32` with blanks around it. -/
def count? (f : Flags) (cs : List Char) : Option (Nat × List Char) :=
  let cs := cs.dropWhile Text.isBlank
  let (ds, rest) := countDigits f cs.length cs []
  let n := Calendar.natOfDigits ds
  if ds.isEmpty || 0x100000000 ≤ n then none else some (n, rest.dropWhile Text.isBlank)

/-- Reads the bounds of a counted repetition up to its closing brace. -/
def bounds? (f : Flags) (cs : List Char) : Option ((Nat × Option Nat) × List Char) := do
  let (least, cs) ← count? f (f.next cs)
  match cs with
  | '\x7d' :: _ => some ((least, some least), cs)
  | ',' :: _ =>
    match f.next cs with
    | [] => none
    | '\x7d' :: rest => some ((least, none), '\x7d' :: rest)
    | cs =>
      let (most, cs) ← count? f cs
      match cs with
      | '\x7d' :: _ => if least ≤ most then some ((least, some most), cs) else none
      | _ => none
  | _ => none

/-- The last part repeated. A question mark makes the repetition lazy. -/
def repeatLast? (f : Flags) (least : Nat) (most : Option Nat) (rest : List Char) :
    List Part → Option (List Part × List Char)
  | [] => none
  | p :: ps =>
    if !p.repeatable then none
    else
      let (marked, rest) := match rest with
        | '?' :: rest => (true, rest)
        | rest => (false, rest)
      let greedy := marked == f.swapGreed
      some (⟨p.pattern.repeated least most greedy, p.depth + 1, true⟩ :: ps, rest)

/-! ### Groups -/

/-- The letters that names may begin with. -/
def alphabetic : CharSet := .ofHex Unicode.alphabetic

/-- The digits and other numbers that names may hold. -/
def numeric : CharSet := .ofHex Unicode.numeric

/-- Whether a character may stand in the name of a group. -/
def isNameChar (first : Bool) (c : Char) : Bool :=
  c == '_' || alphabetic.contains c ||
    (!first && (c == '.' || c == '[' || c == ']' || numeric.contains c))

/-- Reads the name of a group up to its closing angle. -/
def groupName? (cs : List Char) : Option (String × List Char) :=
  let name := cs.takeWhile (· != '>')
  match name, cs.drop name.length with
  | c :: more, _ :: rest =>
    if isNameChar true c && more.all (isNameChar false) then some (String.ofList name, rest)
    else none
  | _, _ => none

/-- How a group begins. -/
inductive GroupStart where
  /-- Flags for what comes after. -/
  | flags (f : Flags)
  /-- Flags for the group alone. -/
  | plain (f : Flags)
  /-- A group whose match is noted, with its name. -/
  | capture (name : Option String)

/-- Reads the beginning of a group after its parenthesis. -/
def groupStart? (f : Flags) (cs : List Char) : Option (GroupStart × List Char) :=
  match f.skip cs with
  | '?' :: '=' :: _ | '?' :: '!' :: _ | '?' :: '<' :: '=' :: _ | '?' :: '<' :: '!' :: _ => none
  | '?' :: 'P' :: '<' :: rest | '?' :: '<' :: rest =>
    (groupName? rest).map fun (name, rest) => (.capture (some name), rest)
  | '?' :: rest => do
    let (g, letters, rest) ← flagGroup? f rest
    match rest with
    | ')' :: rest => if letters.isEmpty then none else some (.flags g, rest)
    | _ :: rest => some (.plain g, rest)
    | [] => none
  | rest => some (.capture none, rest)

/-! ### Patterns -/

/-- Notes a group. -/
def State.openGroup? (s : State) (name : Option String) (rest : List Char) : Option State :=
  let index := s.groups + 1
  match name with
  | none => some { s with rest, groups := index }
  | some name =>
    if (s.names.lookup name).isSome then none
    else some { s with rest, groups := index, names := s.names ++ [(name, index)] }

/-- Reads what is neither group nor repetition. -/
def simplePart? (f : Flags) (cs : List Char) : Option (Part × List Char) := do
  match cs with
  | [] => none
  | '.' :: rest => some ({ pattern := ← f.dot? }, rest)
  | '^' :: rest => some ({ pattern := .check f.caret }, rest)
  | '$' :: rest => some ({ pattern := .check f.dollar }, rest)
  | '[' :: rest =>
    let (n, rest) ← class? f nestingLimit rest
    some ({ pattern := .ofSet n.set, depth := n.depth }, rest)
  | '\\' :: rest =>
    let (atom, rest) ← escape? f rest
    some ({ pattern := ← f.atom? atom }, rest)
  | c :: rest => some ({ pattern := ← f.literal? c false }, rest)

/-- Reads alternatives up to the end of a group or of the text; `body` reads what is in a
group. The parts and alternatives read so far are given in reverse. -/
def parts? (body : State → Option (Part × State)) :
    Nat → State → List Part → List Part → Option (Part × State)
  | 0, _, _, _ => none
  | fuel + 1, s, ps, alts =>
    let f := s.flags
    let cs := f.skip s.rest
    let again (rest : List Char) (ps : List Part) := parts? body fuel { s with rest } ps alts
    let repetition (least : Nat) (most : Option Nat) (rest : List Char) :=
      (repeatLast? f least most rest ps).bind fun (ps, rest) => again rest ps
    match cs with
    | [] | ')' :: _ =>
      some (.alternatives (.sequence ps :: alts), { s with rest := cs })
    | '|' :: rest => parts? body fuel { s with rest } [] (.sequence ps :: alts)
    | '*' :: rest => repetition 0 none rest
    | '+' :: rest => repetition 1 none rest
    | '?' :: rest => repetition 0 (some 1) rest
    | '\x7b' :: _ =>
      (bounds? f cs).bind fun ((least, most), rest) => repetition least most (f.next rest)
    | '(' :: rest => do
      let (start, rest) ← groupStart? f rest
      let close (index : Option Nat) (p : Part) (s' : State) : Option (Part × State) :=
        match s'.rest with
        | ')' :: rest =>
          let pattern := match index with
            | some i => .group i p.pattern
            | none => p.pattern
          parts? body fuel { s' with rest, flags := f } (⟨pattern, p.depth + 1, true⟩ :: ps) alts
        | _ => none
      match start with
      | .flags g => parts? body fuel { s with rest, flags := g } (⟨.empty, 0, false⟩ :: ps) alts
      | .plain g =>
        let (p, s') ← body { s with rest, flags := g }
        close none p s'
      | .capture name =>
        let inner ← s.openGroup? name rest
        let (p, s') ← body inner
        close (some inner.groups) p s'
    | cs => do
      let (p, rest) ← simplePart? f cs
      again rest (p :: ps)

/-- Reads what is in a group, with groups nested `limit` deep at most. -/
def body? : (limit : Nat) → State → Option (Part × State)
  | 0, _ => none
  | limit + 1, s => parts? (body? limit) (s.rest.length + 1) s [] []

/-- A pattern together with its groups. -/
structure Parsed where
  pattern : Pattern
  groups : Nat
  names : List (String × Nat)

/-- Reads a pattern; nothing may be left over. -/
def parse? (flags : Flags) (source : String) : Option Parsed := do
  let (p, s) ← body? (nestingLimit + 1) { rest := source.toList, flags }
  if s.rest.isEmpty && p.depth ≤ nestingLimit then some ⟨p.pattern, s.groups, s.names⟩ else none

end Regex

end Feel
