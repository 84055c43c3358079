import Feel.Text.CaseTable

/-!
# Upper and lower case

The case mappings of Unicode on whole texts. A capital sigma at the end of a word gets its
final form; every other mapping looks at one character alone.

* `Text.upper`: the uppercase form of a text.
* `Text.lower`: the lowercase form of a text.
-/

namespace Feel

namespace Text

/-- The shift of a character by the first row that holds it. -/
def shifted (ranges : Array CaseRange) (c : Char) : Char :=
  let n := c.toNat
  match ranges.find? fun r => r.first ≤ n && n ≤ r.last && (n - r.first) % r.step == 0 with
  | some r => Char.ofNat (n + r.delta).toNat
  | none => c

/-- The uppercase form of a character. -/
def upperChar (c : Char) : List Char :=
  match upperSpecial.lookup c.toNat with
  | some form => form.map Char.ofNat
  | none => [shifted upperRanges c]

/-- The lowercase form of a character. -/
def lowerChar (c : Char) : List Char :=
  match lowerSpecial.lookup c.toNat with
  | some form => form.map Char.ofNat
  | none => [shifted lowerRanges c]

/-- Whether the first character that case does not ignore has a case. -/
def meetsCased (cs : List Char) : Bool :=
  match cs.dropWhile caseIgnorable.contains with
  | c :: _ => cased.contains c
  | [] => false

/-- The lowercase form of a text after the characters `before`, which are given in
reverse. -/
def lowerAfter : List Char → List Char → List Char
  | _, [] => []
  | before, c :: cs =>
    (if c = 'Σ' then [if meetsCased before && !meetsCased cs then 'ς' else 'σ']
      else lowerChar c) ++ lowerAfter (c :: before) cs

/-- The uppercase form of a text. -/
def upper (s : String) : String := String.ofList (s.toList.flatMap upperChar)

/-- The lowercase form of a text. -/
def lower (s : String) : String := String.ofList (lowerAfter [] s.toList)

end Text

end Feel
