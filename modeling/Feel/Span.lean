/-!
# Spans of source text

A span is a pair of byte offsets together with the lines and columns they fall on. Lines
and columns count from one, and a column counts characters.

* `Span.ofOffsets`: the span between two offsets.
* `Span.merge`: the least span that covers two.
* `Span.slice?`: the text a span covers.
-/

namespace Feel

/-- A place in a source text. -/
structure Position where
  line : Nat
  column : Nat
  deriving DecidableEq, Inhabited

/-- A stretch of source text. -/
structure Span where
  start : Nat
  stop : Nat
  startsAt : Position
  endsAt : Position
  deriving DecidableEq, Inhabited

namespace Position

/-- The place after one more character. -/
def advance (p : Position) (c : Char) : Position :=
  if c = '\n' then ⟨p.line + 1, 1⟩ else ⟨p.line, p.column + 1⟩

/-- The place of a byte offset among the characters that begin at byte `at`. -/
def seek (offset : Nat) : List Char → Nat → Position → Position
  | [], _, p => p
  | c :: cs, at_, p =>
    if offset ≤ at_ then p else seek offset cs (at_ + c.utf8Size) (p.advance c)

/-- The place of a byte offset; an offset beyond the text gives the place of its end. -/
def ofOffset (source : String) (offset : Nat) : Position := seek offset source.toList 0 ⟨1, 1⟩

end Position

namespace Span

/-- The span between two byte offsets. -/
def ofOffsets (source : String) (start stop : Nat) : Span :=
  ⟨start, stop, Position.ofOffset source start, Position.ofOffset source stop⟩

/-- The least span that covers both. -/
def merge (a b : Span) : Span :=
  let first := if a.start ≤ b.start then a else b
  let last := if b.stop ≤ a.stop then a else b
  ⟨first.start, last.stop, first.startsAt, last.endsAt⟩

/-- The characters of a text from a byte offset on, if a character begins there. -/
def dropBytes? : List Char → Nat → Option (List Char)
  | cs, 0 => some cs
  | [], _ + 1 => none
  | c :: cs, n + 1 => if n + 1 < c.utf8Size then none else dropBytes? cs (n + 1 - c.utf8Size)
termination_by structural cs => cs

/-- The first `n` bytes of a text, if they end with a character. -/
def takeBytes? : List Char → Nat → Option (List Char)
  | _, 0 => some []
  | [], _ + 1 => none
  | c :: cs, n + 1 =>
    if n + 1 < c.utf8Size then none
    else (takeBytes? cs (n + 1 - c.utf8Size)).map (c :: ·)
termination_by structural cs => cs

/-- The text a span covers; none where an end falls inside a character or beyond the
text. -/
def slice? (s : Span) (source : String) : Option String :=
  if s.stop < s.start then none
  else
    ((dropBytes? source.toList s.start).bind (takeBytes? · (s.stop - s.start))).map String.ofList

/-- Start and end as lines and columns. -/
def text (s : Span) : String :=
  toString s.startsAt.line ++ ":" ++ toString s.startsAt.column ++ "-" ++
    toString s.endsAt.line ++ ":" ++ toString s.endsAt.column

end Span

end Feel
