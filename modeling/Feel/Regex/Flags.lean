import Feel.Text.Characters

/-!
# Flags of regular expressions

Flags say how a pattern is read. In the verbose form blanks between the parts of a pattern
mean nothing, and a number sign begins a comment up to the end of its line.

* `Regex.Flags`: the flags.
* `Regex.Flags.skip`: passes over what means nothing in the verbose form.
* `Regex.Flags.next`: passes over a character and what means nothing after it.
* `Regex.flagGroup?`: the flags written in a group.
-/

namespace Feel

namespace Regex

/-- How a pattern is read. -/
structure Flags where
  /-- Letters match either case. -/
  ignoreCase : Bool := false
  /-- The anchors match at lines as well. -/
  multiLine : Bool := false
  /-- The dot matches the ends of lines, too. -/
  dotAll : Bool := false
  /-- Repetitions are lazy unless marked. -/
  swapGreed : Bool := false
  /-- The verbose form. -/
  verbose : Bool := false
  /-- A carriage return ends a line as a line feed does. -/
  anyLineEnd : Bool := false
  /-- Classes and words are those of Unicode and not only of ASCII. -/
  unicode : Bool := true
  deriving DecidableEq

/-! ### Blanks and comments -/

/-- Passes over blanks and comments; `inComment` says whether a comment goes on. -/
def skipBlanks : Bool → List Char → List Char
  | _, [] => []
  | true, c :: cs => skipBlanks (c != '\n') cs
  | false, c :: cs =>
    if Text.isBlank c then skipBlanks false cs
    else if c == '#' then skipBlanks true cs
    else c :: cs

/-- The first character that is neither blank nor opens a comment. A comment is looked
into. -/
def firstSolid : Bool → List Char → Option Char
  | _, [] => none
  | inComment, c :: cs =>
    if Text.isBlank c then firstSolid inComment cs
    else if !inComment && c == '#' then firstSolid true cs
    else some c

namespace Flags

/-- Passes over what means nothing. -/
def skip (f : Flags) (cs : List Char) : List Char := if f.verbose then skipBlanks false cs else cs

/-- Passes over a character and what means nothing after it. -/
def next (f : Flags) (cs : List Char) : List Char := f.skip (cs.drop 1)

/-- The character after the first one, which tells a hyphen from a range. -/
def peek (f : Flags) (cs : List Char) : Option Char :=
  let rest := cs.drop 1
  if f.verbose then (firstSolid false rest).or rest.head? else rest.head?

/-- Sets the flag of a letter. -/
def set? (f : Flags) (on : Bool) : Char → Option Flags
  | 'i' => some { f with ignoreCase := on }
  | 'm' => some { f with multiLine := on }
  | 's' => some { f with dotAll := on }
  | 'U' => some { f with swapGreed := on }
  | 'x' => some { f with verbose := on }
  | 'R' => some { f with anyLineEnd := on }
  | 'u' => some { f with unicode := on }
  | _ => none

end Flags

/-- Reads the letters of flags up to the colon or parenthesis after them. A hyphen clears the
flags after it, and no letter or hyphen may come twice or a hyphen last. -/
def flagLetters? : List Char → List Char → Bool → Flags → Option (Flags × List Char × List Char)
  | [], _, _, _ => none
  | c :: cs, seen, on, f =>
    if c == ':' || c == ')' then
      if seen.head? == some '-' then none else some (f, seen, c :: cs)
    else if seen.contains c then none
    else if c == '-' then flagLetters? cs (c :: seen) false f
    else (f.set? on c).bind (flagLetters? cs (c :: seen) on)

/-- The flags written in a group after its question mark, the letters of them and the
rest, which begins with the colon or parenthesis. -/
def flagGroup? (f : Flags) (cs : List Char) : Option (Flags × List Char × List Char) :=
  flagLetters? cs [] true f

end Regex

end Feel
