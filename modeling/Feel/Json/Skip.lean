import Feel.Json.Basic
import Feel.Text.Characters

/-!
# Skipping JSON documents

A part of a document that nobody asks for is only checked against the grammar. Its numbers
may be of any size, the escapes in its strings need not be characters, and it may be nested
to any depth, since the open brackets are kept in a list.

* `Json.numeral?`: the parts of a number.
* `Json.skipString?`: what follows a string.
* `Json.skipValue?`: what follows a document.
-/

namespace Feel

namespace Json

/-- The blanks between the tokens of a document. -/
def isSpace (c : Char) : Bool := c == ' ' || c == '\t' || c == '\n' || c == '\r'

def skip (cs : List Char) : List Char := cs.dropWhile isSpace

/-- Reads a given word. -/
def word? : List Char → List Char → Option (List Char)
  | [], cs => some cs
  | w :: ws, c :: cs => if w = c then word? ws cs else none
  | _ :: _, [] => none

/-! ### Numbers -/

/-- A number as it is written: the digits before the point, those behind it and those of the
exponent, with their signs. -/
structure Numeral where
  negative : Bool
  whole : List Char
  fraction : Option (List Char)
  exponent : Option (Bool × List Char)

/-- One or more digits. -/
def digits? (cs : List Char) : Option (List Char × List Char) :=
  match cs.takeWhile Char.isDigit with
  | [] => none
  | ds => some (ds, cs.drop ds.length)

/-- The digits behind a point, if there is one. -/
def fraction? : List Char → Option (Option (List Char) × List Char)
  | '.' :: cs => (digits? cs).map fun (ds, cs) => (some ds, cs)
  | cs => some (none, cs)

/-- A sign that may be left out; it is true for a minus. -/
def sign : List Char → Bool × List Char
  | '-' :: cs => (true, cs)
  | '+' :: cs => (false, cs)
  | cs => (false, cs)

/-- The exponent, if there is one. -/
def exponent? : List Char → Option (Option (Bool × List Char) × List Char)
  | [] => some (none, [])
  | c :: cs =>
    if c == 'e' || c == 'E' then
      let (negative, cs) := sign cs
      (digits? cs).map fun (ds, cs) => (some (negative, ds), cs)
    else some (none, c :: cs)

/-- Reads a number. A zero before other digits is refused. -/
def numeral? (cs : List Char) : Option (Numeral × List Char) := do
  let (negative, cs) := match cs with
    | '-' :: cs => (true, cs)
    | cs => (false, cs)
  let (whole, cs) ← digits? cs
  if whole.head? == some '0' && 1 < whole.length then none
  let (fraction, cs) ← fraction? cs
  let (exponent, cs) ← exponent? cs
  some (⟨negative, whole, fraction, exponent⟩, cs)

/-! ### Strings -/

/-- The character that a letter after a backslash stands for. -/
def escaped? : Char → Option Char
  | '"' => some '"'
  | '\\' => some '\\'
  | '/' => some '/'
  | 'b' => some '\x08'
  | 'f' => some '\x0c'
  | 'n' => some '\n'
  | 'r' => some '\r'
  | 't' => some '\t'
  | _ => none

/-- What follows a string, from after its opening quote. -/
def skipString? : List Char → Option (List Char)
  | [] => none
  | '"' :: cs => some cs
  | '\\' :: 'u' :: a :: b :: c :: d :: cs =>
    if (Text.hexNumber? [a, b, c, d]).isSome then skipString? cs else none
  | '\\' :: c :: cs => if (escaped? c).isSome then skipString? cs else none
  | c :: cs => if c == '\\' || c.toNat < 0x20 then none else skipString? cs

/-! ### Documents -/

/-- What follows a document that is neither an array nor an object. -/
def skipScalar? : List Char → Option (List Char)
  | 'n' :: cs => word? ['u', 'l', 'l'] cs
  | 't' :: cs => word? ['r', 'u', 'e'] cs
  | 'f' :: cs => word? ['a', 'l', 's', 'e'] cs
  | '"' :: cs => skipString? cs
  | cs => (numeral? cs).map (·.2)

/-- What follows the key of a member and its colon. -/
def skipKey? (cs : List Char) : Option (List Char) :=
  match skip cs with
  | '"' :: cs =>
    match (skipString? cs).map skip with
    | some (':' :: cs) => some cs
    | _ => none
  | _ => none

/-- What is open around a place in a document. -/
inductive Bracket where
  | array
  | object
  deriving DecidableEq

namespace Bracket

/-- The character that closes it. -/
def closing : Bracket → Char
  | array => ']'
  | object => '\x7d'

/-- Goes to the next item or to the value of the next member. -/
def enter? : Bracket → List Char → Option (List Char)
  | array, cs => some cs
  | object, cs => skipKey? cs

end Bracket

/-- The bracket that a document begins with. -/
def bracket? : Char → Option Bracket
  | '[' => some .array
  | '\x7b' => some .object
  | _ => none

/-- Goes on from before a value or, if it is `passed`, from after it until all that is open
is closed. The first number bounds the steps. -/
def skipFrom? : Nat → Bool → List Bracket → List Char → Option (List Char)
  | 0, _, _, _ => none
  | fuel + 1, false, opened, cs =>
    match skip cs with
    | [] => none
    | c :: cs =>
      match bracket? c with
      | none =>
        match skipScalar? (c :: cs) with
        | some cs => skipFrom? fuel true opened cs
        | none => none
      | some b =>
        match skip cs with
        | [] => none
        | d :: cs =>
          if d = b.closing then skipFrom? fuel true opened cs
          else match b.enter? (d :: cs) with
            | some cs => skipFrom? fuel false (b :: opened) cs
            | none => none
  | _ + 1, true, [], cs => some cs
  | fuel + 1, true, b :: opened, cs =>
    match skip cs with
    | [] => none
    | c :: cs =>
      if c = b.closing then skipFrom? fuel true opened cs
      else if c = ',' then
        match b.enter? cs with
        | some cs => skipFrom? fuel false (b :: opened) cs
        | none => none
      else none

/-- What follows a document. Every second step reads a character at least. -/
def skipValue? (cs : List Char) : Option (List Char) :=
  skipFrom? (2 * cs.length + 2) false [] cs

end Json

end Feel
