/-!
# Blank characters and hexadecimal digits

The characters with the Unicode property White_Space, and trimming by them; digits of base
sixteen.

* `Text.isBlank`: the property.
* `Text.trim`, `Text.trimStart`: a text without blanks at its ends.
* `Text.hexValue?`: the value of a digit.
* `Text.hexNumber?`: the number that digits write.
-/

namespace Feel

namespace Text

/-! ### Blanks -/

/-- The Unicode property White_Space. -/
def isBlank (c : Char) : Bool :=
  let n := c.toNat
  (0x9 ≤ n && n ≤ 0xD) || n == 0x20 || n == 0x85 || n == 0xA0 || n == 0x1680 ||
    (0x2000 ≤ n && n ≤ 0x200A) || n == 0x2028 || n == 0x2029 || n == 0x202F ||
    n == 0x205F || n == 0x3000

/-- The characters from the first that is not blank on. -/
def trimStart (cs : List Char) : List Char := cs.dropWhile isBlank

/-- The characters up to the last that is not blank. -/
def trimEnd (cs : List Char) : List Char := (cs.reverse.dropWhile isBlank).reverse

/-- A text without blanks at its ends. -/
def trim (s : String) : String := String.ofList (trimEnd (trimStart s.toList))

/-! ### Hexadecimal digits -/

/-- The value of a hexadecimal digit of either case. -/
def hexValue? (c : Char) : Option Nat :=
  if c.isDigit then some (c.toNat - '0'.toNat)
  else if 'a' ≤ c ∧ c ≤ 'f' then some (c.toNat - 'a'.toNat + 10)
  else if 'A' ≤ c ∧ c ≤ 'F' then some (c.toNat - 'A'.toNat + 10)
  else none

/-- The number that one or more hexadecimal digits write. -/
def hexNumber? (cs : List Char) : Option Nat :=
  if cs.isEmpty then none
  else cs.foldlM (fun n c => (hexValue? c).map (n * 16 + ·)) 0

end Text

end Feel
