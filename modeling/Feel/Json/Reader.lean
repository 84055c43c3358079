import Feel.Json.Skip
import Feel.Calendar.Text

/-!
# Reading JSON documents

The reader follows the grammar of JSON, refuses nesting beyond `maxDepth`, and keeps the
members of an object in the order written. An integer that fits 64 bits stays an integer;
other numbers are brought to binary64 from at most nineteen or twenty leading digits by one
multiplication or division. What is wanted of a document is given by its shape; the members
of objects that the shape does not name are skipped.

* `Json.Shape`: the wanted parts of a document.
* `Json.parseShape?`: the wanted parts of the document a text holds.
* `Json.parse?`: the whole document.
-/

namespace Feel

namespace Json

/-- The deepest nesting of arrays and objects. -/
def maxDepth : Nat := 127

/-! ### Numbers -/

/-- Digits read into a 64-bit significand; once it is full, the rest are only counted. -/
def significand : List Char → Nat → Nat × Nat
  | [], m => (m, 0)
  | c :: cs, m =>
    let next := m * 10 + (c.toNat - '0'.toNat)
    if next < 0x10000000000000000 then significand cs next else (m, cs.length + 1)

/-- The power of ten as a binary64 number. -/
def powerOfTen (n : Nat) : Float := Float.ofScientific 1 false n

/-- The number of a significand and an exponent; none when it is too large. Exponents below
the range of binary64 are divided out in two steps. -/
def scale? : Nat → Float → Int → Option Float
  | 0, x, _ => some x
  | fuel + 1, x, e =>
    if e.natAbs ≤ 308 then
      if 0 ≤ e then
        let y := x * powerOfTen e.toNat
        if y.isInf then none else some y
      else some (x / powerOfTen e.natAbs)
    else if x == 0 then some x
    else if 0 ≤ e then none
    else scale? fuel (x / powerOfTen 308) (e + 308)

/-- The binary64 number of a significand, a power of ten and a sign. -/
def double? (negative : Bool) (m : Nat) (e : Int) : Option Json :=
  let e := max (-0x80000000) (min e 0x7FFFFFFF)
  (scale? (e.natAbs / 308 + 2) (Float.ofScientific m false 0) e).map fun x =>
    double (if negative then -x else x)

/-- The exponent of a number; zero if none is written. -/
def Numeral.power (n : Numeral) : Int :=
  match n.exponent with
  | some (negative, ds) =>
    let e : Int := Calendar.natOfDigits ds
    if negative then -e else e
  | none => 0

/-- The value of a number. -/
def Numeral.value? (n : Numeral) : Option Json :=
  let (m, dropped) := significand n.whole 0
  if n.fraction.isNone && n.exponent.isNone && dropped == 0 then
    if !n.negative then some (int m)
    else if m != 0 && m ≤ 0x8000000000000000 then some (int (-(m : Int)))
    else some (double (-(Float.ofScientific m false 0)))
  else
    let ds := n.fraction.getD []
    let (m, lost) := significand ds m
    let places := ds.length - lost
    double? n.negative m ((dropped : Int) - places + n.power)

/-- Reads a number. -/
def number? (cs : List Char) : Option (Json × List Char) := do
  let (n, cs) ← numeral? cs
  some (← n.value?, cs)

/-! ### Strings -/

/-- Reads four hexadecimal digits. -/
def hex4? : List Char → Option (Nat × List Char)
  | a :: b :: c :: d :: rest => (Text.hexNumber? [a, b, c, d]).map (·, rest)
  | _ => none

/-- Reads the hexadecimal form of a character; a high surrogate is followed by a low one. -/
def unicode? (cs : List Char) : Option (Char × List Char) := do
  let (n, rest) ← hex4? cs
  if 0xDC00 ≤ n ∧ n ≤ 0xDFFF then none
  else if 0xD800 ≤ n ∧ n ≤ 0xDBFF then
    match rest with
    | '\\' :: 'u' :: rest =>
      let (low, rest) ← hex4? rest
      if 0xDC00 ≤ low ∧ low ≤ 0xDFFF then
        some (Char.ofNat (0x10000 + (n - 0xD800) * 0x400 + (low - 0xDC00)), rest)
      else none
    | _ => none
  else some (Char.ofNat n, rest)

/-- Reads a string after its opening quote. -/
def string? : Nat → List Char → List Char → Option (String × List Char)
  | 0, _, _ => none
  | _ + 1, [], _ => none
  | fuel + 1, c :: cs, acc =>
    if c == '"' then some (String.ofList acc.reverse, cs)
    else if c == '\\' then
      match cs with
      | 'u' :: cs => (unicode? cs).bind fun (c, cs) => string? fuel cs (c :: acc)
      | c :: cs => (escaped? c).bind fun c => string? fuel cs (c :: acc)
      | [] => none
    else if c.toNat < 0x20 then none
    else string? fuel cs (c :: acc)

/-! ### Shapes -/

/-- The wanted parts of a document. -/
inductive Shape where
  /-- All of it. -/
  | all
  /-- An array with items of a shape. -/
  | items (item : Shape)
  /-- An object, of which the members with these keys are wanted. It may be written as an
  array that has them in this order. -/
  | record (members : List (String × Shape))

namespace Shape

/-- An object of which some members are wanted as a whole. -/
def fields (keys : List String) : Shape := record (keys.map (·, all))

/-- The shape of the item at an index. -/
def item : Shape → Nat → Shape
  | items s, _ => s
  | record ms, i => (ms[i]?.map (·.2)).getD all
  | all, _ => all

/-- The shape of the member with a key, if it is wanted. -/
def member? : Shape → String → Option Shape
  | record ms, key => ms.lookup key
  | _, _ => some all

end Shape

/-! ### Documents -/

mutual

/-- Reads a document of a shape with `depth` levels of nesting left. -/
def value? : Nat → Nat → Shape → List Char → Option (Json × List Char)
  | 0, _, _, _ => none
  | fuel + 1, depth, shape, cs =>
    match skip cs with
    | [] => none
    | 'n' :: cs => (word? ['u', 'l', 'l'] cs).map (null, ·)
    | 't' :: cs => (word? ['r', 'u', 'e'] cs).map (bool true, ·)
    | 'f' :: cs => (word? ['a', 'l', 's', 'e'] cs).map (bool false, ·)
    | '"' :: cs => (string? (cs.length + 1) cs []).map fun (s, cs) => (string s, cs)
    | '[' :: cs =>
      if depth = 0 then none
      else match skip cs with
        | ']' :: cs => some (array [], cs)
        | cs => (items? fuel (depth - 1) shape 0 cs []).map fun (js, cs) => (array js, cs)
    | '\x7b' :: cs =>
      if depth = 0 then none
      else match skip cs with
        | '\x7d' :: cs => some (object [], cs)
        | cs => (members? fuel (depth - 1) shape cs []).map fun (ms, cs) => (object ms, cs)
    | cs => number? cs

/-- Reads the items of an array from the index `i` on up to its end. -/
def items? : Nat → Nat → Shape → (i : Nat) → List Char → List Json →
    Option (List Json × List Char)
  | 0, _, _, _, _, _ => none
  | fuel + 1, depth, shape, i, cs, acc => do
    let (j, cs) ← value? fuel depth (shape.item i) cs
    match skip cs with
    | ',' :: cs => items? fuel depth shape (i + 1) cs (j :: acc)
    | ']' :: cs => some ((j :: acc).reverse, cs)
    | _ => none

/-- Reads the wanted members of an object up to its end. -/
def members? : Nat → Nat → Shape → List Char → List (String × Json) →
    Option (List (String × Json) × List Char)
  | 0, _, _, _, _ => none
  | fuel + 1, depth, shape, cs, acc =>
    match skip cs with
    | '"' :: cs => do
      let (key, cs) ← string? (cs.length + 1) cs []
      match skip cs with
      | ':' :: cs =>
        let (acc, cs) ← match shape.member? key with
          | some s => (value? fuel depth s cs).map fun (j, cs) => ((key, j) :: acc, cs)
          | none => (skipValue? cs).map (acc, ·)
        match skip cs with
        | ',' :: cs => members? fuel depth shape cs acc
        | '\x7d' :: cs => some (acc.reverse, cs)
        | _ => none
      | _ => none
    | _ => none

end

/-- The wanted parts of the document a text holds; nothing but blanks may follow it. -/
def parseShape? (shape : Shape) (s : String) : Option Json :=
  let cs := s.toList
  match value? (cs.length + 1) maxDepth shape cs with
  | some (j, rest) => if (skip rest).isEmpty then some j else none
  | none => none

/-- The document a text holds. -/
def parse? (s : String) : Option Json := parseShape? .all s

end Json

end Feel
