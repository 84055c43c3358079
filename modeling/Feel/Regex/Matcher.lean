import Feel.Regex.Parser
import Feel.Regex.Size

/-!
# Matching regular expressions

A pattern is compiled to a list of instructions that are run on all of their threads in
step, so the time is bounded by the product of pattern and text. Threads are kept in order
of preference: the first to finish at the leftmost start gives the match.

* `Regex.compile?`: the instructions of a pattern.
* `Regex.find?`: the leftmost match from a position on.
* `Regex.findAll`: the matches that do not overlap.
* `Regex.isMatch`, `Regex.replaceAll`, `Regex.split`: what is done with them.
-/

namespace Feel

namespace Regex

/-! ### Instructions -/

/-- An instruction; what follows is given by its place. -/
inductive Instruction where
  | char (c : Char) (next : Nat)
  | set (s : CharSet) (next : Nat)
  | check (a : Assertion) (next : Nat)
  /-- Goes to the first and, with less preference, to the second. -/
  | fork (first second : Nat)
  | jump (next : Nat)
  /-- Notes the position in a slot. -/
  | save (slot : Nat) (next : Nat)
  | done
  deriving Inhabited

/-- A compiled pattern. -/
structure Compiled where
  code : Array Instruction
  groups : Nat
  names : List (String × Nat)

/-- `fork` with the preference of a repetition. -/
def prefer (greedy : Bool) (more enough : Nat) : Instruction :=
  if greedy then .fork more enough else .fork enough more

/-- Appends the instructions of `n` copies of a pattern, one after the other. -/
def copies (emit : Array Instruction → Array Instruction) : Nat → Array Instruction →
    Array Instruction
  | 0, code => code
  | n + 1, code => copies emit n (emit code)

/-- Appends `n` optional copies, each inside the one before. The forks lead to the end,
which is known once the copies are placed. -/
def optionals (emit : Array Instruction → Array Instruction) (greedy : Bool) :
    Nat → Array Instruction → List Nat → Array Instruction
  | 0, code, forks =>
    forks.foldl (fun c at_ => c.setIfInBounds at_ (prefer greedy (at_ + 1) code.size)) code
  | n + 1, code, forks => optionals emit greedy n (emit (code.push .done)) (code.size :: forks)

mutual

/-- Appends the instructions of a pattern; they fall through to what comes next. -/
def emit : Pattern → Array Instruction → Array Instruction
  | .empty, code => code
  | .literal cs, code => cs.foldl (fun code c => code.push (.char c (code.size + 1))) code
  | .set s, code => code.push (.set s (code.size + 1))
  | .check a, code => code.push (.check a (code.size + 1))
  | .group i p, code =>
    let code := emit p (code.push (.save (2 * i) (code.size + 1)))
    code.push (.save (2 * i + 1) (code.size + 1))
  | .seq ps, code => emitAll ps code
  | .alt ps, code => emitChoices ps code []
  | .rep p 0 none greedy, code =>
    if 0 < p.minLength?.getD 0 then
      let fork := code.size
      let code := emit p (code.push .done)
      let code := code.push (.jump fork)
      code.setIfInBounds fork (prefer greedy (fork + 1) code.size)
    else
      let question := code.size
      let code := emit p (code.push .done)
      let plus := code.size
      let code := code.push (prefer greedy (question + 1) (plus + 1))
      code.setIfInBounds question (prefer greedy (question + 1) (plus + 1))
  | .rep p (n + 1) none greedy, code =>
    let code := copies (emit p) n code
    let start := code.size
    let code := emit p code
    code.push (prefer greedy start (code.size + 1))
  | .rep p n (some m) greedy, code =>
    optionals (emit p) greedy (m - n) (copies (emit p) n code) []

/-- Appends the instructions of patterns one after another. -/
def emitAll : List Pattern → Array Instruction → Array Instruction
  | [], code => code
  | p :: ps, code => emitAll ps (emit p code)

/-- Appends the instructions of alternatives. Each but the last begins with a fork and ends
with a jump to the common end; `jumps` are the places of those so far. -/
def emitChoices : List Pattern → Array Instruction → List Nat → Array Instruction
  | [], code, jumps => jumps.foldl (fun c at_ => c.setIfInBounds at_ (.jump code.size)) code
  | [p], code, jumps =>
    let code := emit p code
    jumps.foldl (fun c at_ => c.setIfInBounds at_ (.jump code.size)) code
  | p :: ps, code, jumps =>
    let fork := code.size
    let code := emit p (code.push .done)
    let leave := code.size
    let code := (code.push .done).setIfInBounds fork (.fork (fork + 1) (leave + 1))
    emitChoices ps code (leave :: jumps)

end

/-- Compiles a pattern; the whole match is group zero. Patterns beyond the limit are
refused. -/
def compile? (flags : Flags) (source : String) : Option Compiled := do
  let p ← parse? flags source
  if fits p.pattern then some ⟨(emit (.group 0 p.pattern) #[]).push .done, p.groups, p.names⟩
  else none

/-! ### Threads -/

/-- The positions a thread has noted, by slot. -/
abbrev Slots := Array (Option Nat)

/-- A thread: where it stands and what it noted. -/
structure Thread where
  pc : Nat
  slots : Slots

/-- The threads of a step, latest first. A place is taken in this step if its entry in `seen`
is the number of the step. -/
structure Threads where
  seen : Array Nat
  list : List Thread

/-- Adds the threads that wait and follows what reads no character. The step after `pos`
characters has the number `pos + 1`. -/
def follow (re : Compiled) (pos : Nat) (before after : Option Char) :
    Nat → List Thread → Threads → Threads
  | 0, _, ts => ts
  | _ + 1, [], ts => ts
  | fuel + 1, t :: waiting, ts =>
    if ts.seen.getD t.pc (pos + 1) == pos + 1 then follow re pos before after fuel waiting ts
    else
      let seen := ts.seen.setIfInBounds t.pc (pos + 1)
      match re.code.getD t.pc .done with
      | .jump next =>
        follow re pos before after fuel ({ t with pc := next } :: waiting) ⟨seen, ts.list⟩
      | .fork a b =>
        follow re pos before after fuel ({ t with pc := a } :: { t with pc := b } :: waiting)
          ⟨seen, ts.list⟩
      | .save slot next =>
        follow re pos before after fuel (⟨next, t.slots.setIfInBounds slot (some pos)⟩ :: waiting)
          ⟨seen, ts.list⟩
      | .check a next =>
        if a.holds before after then
          follow re pos before after fuel ({ t with pc := next } :: waiting) ⟨seen, ts.list⟩
        else follow re pos before after fuel waiting ⟨seen, ts.list⟩
      | .char _ _ | .set _ _ | .done =>
        follow re pos before after fuel waiting ⟨seen, t :: ts.list⟩

/-- Enough steps for every place to be visited from every fork. -/
def followLimit (re : Compiled) : Nat := 2 * re.code.size + 2

/-- The threads that read the character `c`, until one has finished. -/
def advance (re : Compiled) (pos : Nat) (c after : Option Char) :
    List Thread → Threads → Threads × Option Slots
  | [], ts => (ts, none)
  | t :: rest, ts =>
    let goOn (next : Nat) :=
      advance re pos c after rest
        (follow re (pos + 1) c after (followLimit re) [⟨next, t.slots⟩] ts)
    match re.code.getD t.pc .done with
    | .done => (ts, some t.slots)
    | .char d next => if c == some d then goOn next else advance re pos c after rest ts
    | .set s next => if c.any s.contains then goOn next else advance re pos c after rest ts
    | _ => advance re pos c after rest ts

/-- Runs the threads over the text, `fuel` characters of it at most; a new thread starts at
each position until there is a match. -/
def run (re : Compiled) (text : Array Char) (fresh : Slots) :
    Nat → Nat → Threads → Option Slots → Option Slots
  | 0, _, _, best => best
  | fuel + 1, pos, ts, best =>
    let before := if pos = 0 then none else text[pos - 1]?
    let here := text[pos]?
    let ts :=
      if best.isNone then follow re pos before here (followLimit re) [⟨0, fresh⟩] ts else ts
    let (next, found) := advance re pos here text[pos + 1]? ts.list.reverse ⟨ts.seen, []⟩
    let best := found.or best
    if here.isNone || (best.isSome && next.list.isEmpty) then best
    else run re text fresh fuel (pos + 1) next best

/-- The leftmost match at or after a position of the text. -/
def find? (re : Compiled) (text : Array Char) (start : Nat) : Option Slots :=
  run re text (Array.replicate (2 * re.groups + 2) none) (text.size - start + 1) start
    ⟨Array.replicate re.code.size 0, []⟩ none

/-- The positions of a group in a match. -/
def groupSpan? (slots : Slots) (i : Nat) : Option (Nat × Nat) := do
  let s ← (slots[2 * i]?).join
  let e ← (slots[2 * i + 1]?).join
  some (s, e)

/-- The matches that do not overlap, from left to right. An empty match does not touch the
end of the match before it. -/
def findAllFrom (re : Compiled) (text : Array Char) : Nat → Nat → Option Nat → List Slots
  | 0, _, _ => []
  | fuel + 1, start, lastEnd =>
    if text.size < start then []
    else
      match find? re text start with
      | none => []
      | some slots =>
        match groupSpan? slots 0 with
        | none => []
        | some (s, e) =>
          if s = e ∧ lastEnd = some e then findAllFrom re text fuel (start + 1) lastEnd
          else slots :: findAllFrom re text fuel e (some e)

def findAll (re : Compiled) (text : Array Char) : List Slots :=
  findAllFrom re text (2 * text.size + 2) 0 none

/-! ### Uses -/

/-- The characters of a text. -/
def charsOf (text : String) : Array Char := text.toList.toArray

/-- Whether the pattern matches anywhere. -/
def isMatch (re : Compiled) (text : String) : Bool := (find? re (charsOf text) 0).isSome

/-- The text of a span. -/
def slice (text : Array Char) (s e : Nat) : List Char := (text.extract s e).toList

/-- The text of a group, empty where it took no part. -/
def groupText (text : Array Char) (slots : Slots) (i : Nat) : List Char :=
  match groupSpan? slots i with
  | some (s, e) => slice text s e
  | none => []

/-- The text of a group that is referred to by number or name. -/
def referenceText (re : Compiled) (text : Array Char) (slots : Slots) (name : List Char) :
    List Char :=
  let digits := match name with
    | '+' :: rest => rest
    | rest => rest
  let number := Calendar.natOfDigits digits
  if !digits.isEmpty && digits.all Char.isDigit && number < 0x10000000000000000 then
    groupText text slots number
  else match re.names.lookup (String.ofList name) with
    | some i => groupText text slots i
    | none => []

/-- Expands the references to groups in a replacement. -/
def expand (re : Compiled) (text : Array Char) (slots : Slots) : Nat → List Char → List Char
  | 0, _ => []
  | _ + 1, [] => []
  | fuel + 1, '$' :: '$' :: cs => '$' :: expand re text slots fuel cs
  | fuel + 1, '$' :: '\x7b' :: cs =>
    let name := cs.takeWhile (· != '\x7d')
    match cs.drop name.length with
    | _ :: rest => referenceText re text slots name ++ expand re text slots fuel rest
    | [] => '$' :: '\x7b' :: expand re text slots fuel cs
  | fuel + 1, '$' :: cs =>
    let name := cs.takeWhile fun c => c.isAlphanum || c == '_'
    if name.isEmpty then '$' :: expand re text slots fuel cs
    else referenceText re text slots name ++ expand re text slots fuel (cs.drop name.length)
  | fuel + 1, c :: cs => c :: expand re text slots fuel cs

/-- Replaces every match. -/
def replaceAll (re : Compiled) (text replacement : String) : String :=
  let cs := charsOf text
  let rs := replacement.toList
  let rec go : List Slots → Nat → List Char
    | [], last => slice cs last cs.size
    | slots :: rest, last =>
      match groupSpan? slots 0 with
      | some (s, e) => slice cs last s ++ expand re cs slots (rs.length + 1) rs ++ go rest e
      | none => go rest last
  String.ofList (go (findAll re cs) 0)

/-- The texts between the matches. -/
def split (re : Compiled) (text : String) : List String :=
  let cs := charsOf text
  let rec go : List Slots → Nat → List String
    | [], last => [String.ofList (slice cs last cs.size)]
    | slots :: rest, last =>
      match groupSpan? slots 0 with
      | some (s, e) => String.ofList (slice cs last s) :: go rest e
      | none => go rest last
  go (findAll re cs) 0

end Regex

end Feel
