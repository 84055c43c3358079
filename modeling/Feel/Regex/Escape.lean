import Feel.Regex.Flags
import Feel.Regex.Pattern

/-!
# Escapes in regular expressions

A backslash gives a character a meaning or takes its meaning away. What an escape stands for
is a character, a set of characters or an assertion.

* `Regex.Atom`: what a single character or escape stands for.
* `Regex.escape?`: reads an escape.
* `Regex.Flags.literal?`: the pattern of a character under flags.
-/

namespace Feel

namespace Regex

/-- What a character or an escape stands for. -/
inductive Atom where
  /-- A character; `byte` says that it was written as two hexadecimal digits. -/
  | char (c : Char) (byte : Bool)
  | set (s : CharSet)
  | check (a : Assertion)

/-! ### Characters -/

/-- Whether a backslash before the character leaves the character itself: it is in ASCII and
no letter, digit or angle. -/
def isEscapable (c : Char) : Bool :=
  c.toNat < 0x80 && !c.isAlphanum && c != '<' && c != '>'

/-- The character of a code point. -/
def charOf? (n : Nat) : Option Char :=
  if h : n.isValidChar then some (Char.ofNatAux n h) else none

/-- Reads the given number of hexadecimal digits. -/
def hexDigits? (f : Flags) : Nat → List Char → List Char → Option (List Char × List Char)
  | 0, cs, acc => some (acc.reverse, cs)
  | n + 1, c :: cs, acc =>
    if (Text.hexValue? c).isSome then hexDigits? f n (f.next (c :: cs)) (c :: acc) else none
  | _ + 1, [], _ => none

/-- Reads hexadecimal digits up to a closing brace. -/
def hexBraced? (f : Flags) : Nat → List Char → List Char → Option (List Char × List Char)
  | 0, _, _ => none
  | _ + 1, [], _ => none
  | fuel + 1, c :: cs, acc =>
    if c == '\x7d' then some (acc.reverse, f.next (c :: cs))
    else if (Text.hexValue? c).isSome then hexBraced? f fuel (f.next (c :: cs)) (c :: acc)
    else none

/-- Reads a code point in braces or of `width` digits. -/
def hexEscape? (f : Flags) (width : Nat) (cs : List Char) : Option (Atom × List Char) :=
  match cs with
  | '\x7b' :: _ => do
    let (ds, rest) ← hexBraced? f (cs.length + 1) (f.next cs) []
    some (.char (← charOf? (← Text.hexNumber? ds)) false, rest)
  | cs => do
    let (ds, rest) ← hexDigits? f width cs []
    some (.char (← charOf? (← Text.hexNumber? ds)) (width == 2), rest)

/-! ### Sets -/

/-- A set of ASCII characters. -/
def asciiSet (rs : List (Nat × Nat)) : CharSet := ⟨rs.toArray⟩

def asciiDigit : CharSet := asciiSet [(0x30, 0x39)]

def asciiSpace : CharSet := asciiSet [(0x9, 0xD), (0x20, 0x20)]

def asciiWord : CharSet := asciiSet [(0x30, 0x39), (0x41, 0x5A), (0x5F, 0x5F), (0x61, 0x7A)]

/-- A set that is complemented where it is negated. Without Unicode only sets within ASCII
are matched. -/
def Flags.negate? (f : Flags) (negated : Bool) (s : CharSet) : Option CharSet :=
  let s := if negated then s.complement else s
  if f.unicode || s.isAscii then some s else none

/-- Closes a set under case where the flags ask for it. -/
def Flags.fold (f : Flags) (s : CharSet) : CharSet :=
  if f.ignoreCase then if f.unicode then s.foldCase else s.foldAscii else s

/-- The set of a letter: digits, blanks, word characters and their complements. -/
def Flags.letterSet? (f : Flags) (c : Char) : Option CharSet :=
  match c with
  | 'd' => f.negate? false (if f.unicode then Unicode.digit else asciiDigit)
  | 'D' => f.negate? true (if f.unicode then Unicode.digit else asciiDigit)
  | 's' => f.negate? false (if f.unicode then Unicode.space else asciiSpace)
  | 'S' => f.negate? true (if f.unicode then Unicode.space else asciiSpace)
  | 'w' => f.negate? false (if f.unicode then Unicode.word else asciiWord)
  | 'W' => f.negate? true (if f.unicode then Unicode.word else asciiWord)
  | _ => none

/-- What stands before and after the first occurrence of a text. -/
def splitFirst? (mark : List Char) : List Char → List Char → Option (List Char × List Char)
  | [], _ => none
  | c :: cs, before =>
    if mark.isPrefixOf (c :: cs) then some (before.reverse, (c :: cs).drop mark.length)
    else splitFirst? mark cs (c :: before)

/-- The characters of a property that is written as a name or as name and value, and whether
an unequal sign negates it. -/
def property? (written : List Char) : Option (CharSet × Bool) :=
  match splitFirst? ['!', '='] written [] with
  | some (name, value) => (Unicode.valued? name value).map (·, true)
  | none =>
    match (splitFirst? [':'] written []).or (splitFirst? ['='] written []) with
    | some (name, value) => (Unicode.valued? name value).map (·, false)
    | none => (Unicode.named? written).map (·, false)

/-- Reads what is written between braces. -/
def braced? (f : Flags) : Nat → List Char → List Char → Option (List Char × List Char)
  | 0, _, _ => none
  | _ + 1, [], _ => none
  | fuel + 1, c :: cs, acc =>
    if c == '\x7d' then some (acc.reverse, cs)
    else braced? f fuel (f.next (c :: cs)) (c :: acc)

/-- Reads a property after its letter. -/
def propertyEscape? (f : Flags) (negated : Bool) (cs : List Char) :
    Option (Atom × List Char) := do
  if !f.unicode then none
  let cs := f.skip cs
  let (written, rest) ← match cs with
    | '\x7b' :: _ => braced? f (cs.length + 1) (f.next cs) []
    | c :: _ => if c == '\\' then none else some ([c], f.next cs)
    | [] => none
  let (s, unequal) ← property? written
  some (.set (← f.negate? (negated != unequal) (f.fold s)), rest)

/-! ### Word boundaries -/

/-- Whether a character may stand in the name of a boundary. -/
def isBoundaryLetter (c : Char) : Bool := c.isAlpha || c == '-'

/-- Reads the name of a boundary. -/
def boundaryName (f : Flags) : Nat → List Char → List Char → List Char × List Char
  | 0, cs, acc => (acc.reverse, cs)
  | _ + 1, [], acc => (acc.reverse, [])
  | fuel + 1, c :: cs, acc =>
    if isBoundaryLetter c then boundaryName f fuel (f.next (c :: cs)) (c :: acc)
    else (acc.reverse, c :: cs)

/-- Reads the kind of a word boundary. Braces that do not begin with a letter are left: they
count repetitions. -/
def boundary? (f : Flags) (cs : List Char) : Option (Atom × List Char) :=
  let ascii := !f.unicode
  let plain : Option (Atom × List Char) := some (.check (.wordBoundary ascii), cs)
  match cs with
  | '\x7b' :: _ =>
    match f.next cs with
    | [] => none
    | inner@(c :: _) =>
      if isBoundaryLetter c then
        match boundaryName f (inner.length + 1) inner [] with
        | (name, '\x7d' :: rest) =>
          match String.ofList name with
          | "start" => some (.check (.wordStart ascii), rest)
          | "end" => some (.check (.wordEnd ascii), rest)
          | "start-half" => some (.check (.wordStartHalf ascii), rest)
          | "end-half" => some (.check (.wordEndHalf ascii), rest)
          | _ => none
        | _ => none
      else plain
  | _ => plain

/-! ### Escapes -/

/-- Reads an escape after its backslash. There are no references to groups, so a digit means
nothing. -/
def escape? (f : Flags) (cs : List Char) : Option (Atom × List Char) :=
  let char (c : Char) (rest : List Char) : Option (Atom × List Char) := some (.char c false, rest)
  let check (a : Assertion) (rest : List Char) : Option (Atom × List Char) :=
    some (.check a, rest)
  let ascii := !f.unicode
  match cs with
  | [] => none
  | 'x' :: rest => hexEscape? f 2 (f.skip rest)
  | 'u' :: rest => hexEscape? f 4 (f.skip rest)
  | 'U' :: rest => hexEscape? f 8 (f.skip rest)
  | 'p' :: rest => propertyEscape? f false rest
  | 'P' :: rest => propertyEscape? f true rest
  | 'a' :: rest => char '\x07' rest
  | 'f' :: rest => char '\x0c' rest
  | 't' :: rest => char '\t' rest
  | 'n' :: rest => char '\n' rest
  | 'r' :: rest => char '\r' rest
  | 'v' :: rest => char '\x0b' rest
  | 'A' :: rest => check .textStart rest
  | 'z' :: rest => check .textEnd rest
  | 'b' :: rest => boundary? f rest
  | 'B' :: rest => check (.noWordBoundary ascii) rest
  | '<' :: rest => check (.wordStart ascii) rest
  | '>' :: rest => check (.wordEnd ascii) rest
  | c :: rest =>
    if isEscapable c then char c rest else (f.letterSet? c).map fun s => (.set s, rest)

/-! ### Under flags -/

/-- The pattern of a character. Without Unicode only the letters of ASCII have another case,
and a byte beyond ASCII is no character. -/
def Flags.literal? (f : Flags) (c : Char) (byte : Bool) : Option Pattern :=
  if !f.unicode && byte && 0x7F < c.toNat then none
  else some (.ofSet (f.fold (.single c)))

/-- The pattern of the dot. -/
def Flags.dot? (f : Flags) : Option Pattern :=
  if !f.unicode then none
  else if f.dotAll then some (.set .all)
  else if f.anyLineEnd then some (.set (CharSet.ofRanges [(0xA, 0xA), (0xD, 0xD)]).complement)
  else some (.set (CharSet.single '\n').complement)

/-- The pattern of an atom. -/
def Flags.atom? (f : Flags) : Atom → Option Pattern
  | .char c byte => f.literal? c byte
  | .set s => some (.ofSet s)
  | .check a => some (.check a)

/-- The assertion of a caret. -/
def Flags.caret (f : Flags) : Assertion :=
  if !f.multiLine then .textStart else if f.anyLineEnd then .anyLineStart else .lineStart

/-- The assertion of a dollar sign. -/
def Flags.dollar (f : Flags) : Assertion :=
  if !f.multiLine then .textEnd else if f.anyLineEnd then .anyLineEnd else .lineEnd

end Regex

end Feel
