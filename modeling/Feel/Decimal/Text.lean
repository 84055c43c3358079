import Feel.Decimal.Basic

/-!
# Decimal text

Reading takes an optional sign, digits that may be grouped by underscores, a point and an
exponent. Writing is positional unless the number has many leading zeros behind the point
or many trailing zeros before it.

* `Decimal.parse?`: reads a decimal text.
* `Decimal.Layout`: where positional writing ends.
* `Decimal.text`: writes a decimal with its scale.
-/

namespace Feel

namespace Decimal

/-! ### Reading -/

/-- The value of a digit character. -/
def digitValue? (c : Char) : Option Nat :=
  if c.isDigit then some (c.toNat - '0'.toNat) else none

/-- Reads digits into `n`; underscores between them are skipped. -/
def parseDigits? : List Char → Nat → Option Nat
  | [], n => some n
  | '_' :: cs, n => parseDigits? cs n
  | c :: cs, n => (digitValue? c).bind fun v => parseDigits? cs (n * 10 + v)

/-- Reads an unsigned integer that begins with a digit. One plus sign may precede it. -/
def parseNat? (cs : List Char) : Option Nat :=
  let body : List Char → Option Nat
    | [] => none
    | '_' :: _ => none
    | cs => parseDigits? cs 0
  match cs with
  | '+' :: rest => body rest
  | cs => body cs

/-- Reads an integer with an optional sign. -/
def parseInt? (cs : List Char) : Option Int :=
  match cs with
  | '-' :: '+' :: _ => none
  | '-' :: rest => (parseNat? rest).map fun n => -(n : Int)
  | cs => (parseNat? cs).map Int.ofNat

/-- Reads an exponent: an optional sign and digits, within 128 bits. -/
def parseExponent? (cs : List Char) : Option Int :=
  let digits (cs : List Char) : Option Nat :=
    if cs.isEmpty || !cs.all Char.isDigit then none else parseDigits? cs 0
  let n := match cs with
    | '-' :: rest => (digits rest).map fun n => -(n : Int)
    | '+' :: rest => (digits rest).map Int.ofNat
    | cs => (digits cs).map Int.ofNat
  n.filter fun n => decide (-0x80000000000000000000000000000000 ≤ n ∧
    n < 0x80000000000000000000000000000000)

/-- Splits at the first character that satisfies `p`; that character is dropped. -/
def splitAtFirst (p : Char → Bool) (cs : List Char) : List Char × Option (List Char) :=
  match cs.dropWhile (!p ·) with
  | [] => (cs, none)
  | _ :: rest => (cs.takeWhile (!p ·), some rest)

/-- Reads a decimal text. The scale is the number of digits behind the point less the
exponent, and has to fit 64 bits. -/
def parse? (text : String) : Option Decimal := do
  let (base, exponent) := splitAtFirst (fun c => c == 'e' || c == 'E') text.toList
  let exponent ← match exponent with
    | none => some 0
    | some cs => parseExponent? cs
  if base.isEmpty then none
  let (lead, trail) := splitAtFirst (· == '.') base
  let trail := trail.getD []
  let places := (trail.filter (· != '_')).length
  let scale : Int := places - exponent
  if scale < -0x8000000000000000 ∨ 0x8000000000000000 ≤ scale then none
  let digits ← parseInt? (lead ++ trail)
  some ⟨digits, scale⟩

/-! ### Writing -/

/-- Where positional writing gives way to an exponent. -/
structure Layout where
  /-- The most zeros written between the point and the first digit. -/
  leadingZeros : Int
  /-- The most zeros written behind the last digit of an integer. -/
  trailingZeros : Int

/-- Five zeros may lead and fifteen may trail. -/
def layout : Layout := ⟨5, 15⟩

/-- `n` zeros. -/
def zeros (n : Nat) : String := String.ofList (List.replicate n '0')

/-- Digits with a point behind the first of them. -/
def scientificDigits (digits : String) : String :=
  let head := (digits.take 1).toString
  if digits.length ≤ 1 then head else head ++ "." ++ (digits.drop 1).toString

/-- The text of a positive decimal given by its digits. -/
def magnitudeText (digits : String) (scale : Int) : String :=
  let count : Int := digits.length
  if layout.leadingZeros < scale - count then
    scientificDigits digits ++ "E-" ++ toString (scale - (count - 1)).toNat
  else if scale < -layout.trailingZeros then
    digits ++ "e+" ++ toString (-scale).toNat
  else if scale ≤ 0 then
    digits ++ zeros (-scale).toNat
  else if count ≤ scale then
    "0." ++ zeros (scale - count).toNat ++ digits
  else
    (digits.take (count - scale).toNat).toString ++ "." ++
      (digits.drop (count - scale).toNat).toString

/-- The text of a decimal, its scale included: zeros behind the last digit are kept. -/
def text (d : Decimal) : String :=
  if d.digits = 0 then "0"
  else
    let body := magnitudeText (toString d.digits.natAbs) d.scale
    if d.digits < 0 then "-" ++ body else body

end Decimal

end Feel
