import Feel.Text.CharSet
import Feel.Unicode.Age
import Feel.Unicode.Alias
import Feel.Unicode.Binary
import Feel.Unicode.Break
import Feel.Unicode.Category
import Feel.Unicode.Script
import Feel.Unicode.ScriptExtension

/-!
# Properties of characters

A property is asked for by its name alone (`Alphabetic`), by the name of a general category
or script (`Lu`, `Greek`) or by name and value (`sc=Greek`, `age=6.0`). Case, blanks, hyphens
and underscores in names do not matter, nor does an `is` before them.

* `Unicode.binary?`: the characters of a binary property, listed or derived.
* `Unicode.named?`: the characters of a name.
* `Unicode.valued?`: the characters of a property and a value.
* `Unicode.word`, `Unicode.digit`: the characters of words and the decimal digits.
-/

namespace Feel

namespace Unicode

/-! ### Tables -/

/-- The characters of a row of a table. -/
def row? (table : List (String × List String)) (name : String) : Option CharSet :=
  (table.lookup name).map .ofHex

/-- The full name that a plain name stands for. -/
def fullName? (aliases : List (String × String)) (plain : String) : Option String :=
  (aliases.find? fun a => (a.2.splitOn " ").contains plain).map (·.1)

/-- The union of rows of a table. -/
def rows (table : List (String × List String)) (names : List String) : CharSet :=
  .ofRanges (names.flatMap fun name =>
    ((row? table name).getD .empty).ranges.toList)

/-! ### General categories -/

/-- The categories that make up a category, if it is made up of others. -/
def categoryParts? : String → Option (List String)
  | "Cased_Letter" => some ["Uppercase_Letter", "Lowercase_Letter", "Titlecase_Letter"]
  | "Letter" => some ["Uppercase_Letter", "Lowercase_Letter", "Titlecase_Letter",
      "Modifier_Letter", "Other_Letter"]
  | "Mark" => some ["Nonspacing_Mark", "Spacing_Mark", "Enclosing_Mark"]
  | "Number" => some ["Decimal_Number", "Letter_Number", "Other_Number"]
  | "Other" => some ["Control", "Format", "Unassigned", "Private_Use"]
  | "Punctuation" => some ["Connector_Punctuation", "Dash_Punctuation", "Open_Punctuation",
      "Close_Punctuation", "Initial_Punctuation", "Final_Punctuation", "Other_Punctuation"]
  | "Separator" => some ["Space_Separator", "Line_Separator", "Paragraph_Separator"]
  | "Symbol" => some ["Math_Symbol", "Currency_Symbol", "Modifier_Symbol", "Other_Symbol"]
  | _ => none

/-- The characters of a general category by its full name. -/
def category? (name : String) : Option CharSet :=
  match categoryParts? name with
  | some parts => some (rows categories parts)
  | none => row? categories name

/-- The characters of a general category by a plain name. Every character is in `any`, and
those of a category are `assigned`. -/
def categoryNamed? (plain : String) : Option (Option CharSet) :=
  match plain with
  | "any" => some (some .all)
  | "ascii" => some (some (.range 0 0x7F))
  | "assigned" => some ((category? "Unassigned").map (·.complement))
  | plain => (fullName? categoryAliases plain).map category?

/-! ### Binary properties -/

/-- The characters of a derived property. -/
def derive (d : Derivation) : CharSet :=
  let listed := (rows categories d.categories).union (rows binaries d.listed)
  (listed.union (.ofHex d.more)).diff ((rows binaries d.without).union (.ofHex d.less))

/-- The characters of a binary property by its full name. -/
def binary? (name : String) : Option CharSet :=
  match derivations.lookup name with
  | some d => some (derive d)
  | none => row? binaries name

/-! ### Names -/

/-- A name in lower case without blanks, hyphens, underscores and a leading `is`. The name
`isc` keeps its beginning, for what is left of it means something else. -/
def plainName (name : List Char) : String :=
  let kept (cs : List Char) : List Char :=
    (cs.filter fun c => c.toNat < 0x80 && c != ' ' && c != '_' && c != '-').map Char.toLower
  let (hasIs, rest) := match name with
    | i :: s :: rest =>
      if (i == 'i' || i == 'I') && (s == 's' || s == 'S') then (true, rest) else (false, name)
    | name => (false, name)
  let plain := String.ofList (kept rest)
  if hasIs && plain == "c" then "isc" else plain

/-- The plain names that mean a general category although a property has them, too. -/
def preferCategory (plain : String) : Bool := plain == "cf" || plain == "sc" || plain == "lc"

/-- The characters of a name: a binary property, else a general category, else a script. -/
def named? (name : List Char) : Option CharSet :=
  let plain := plainName name
  match if preferCategory plain then none else fullName? propertyAliases plain with
  | some property => binary? property
  | none =>
    match categoryNamed? plain with
    | some set => set
    | none => (fullName? scriptAliases plain).bind (row? scripts)

/-- The characters added up to a version. -/
def upToAge? (version : String) : Option CharSet :=
  let names := ages.map (·.1)
  if names.contains version then
    some (rows ages (names.takeWhile (· != version) ++ [version]))
  else none

/-- The characters of a property and a value. -/
def valued? (name value : List Char) : Option CharSet :=
  let value := plainName value
  match fullName? propertyAliases (plainName name) with
  | some "General_Category" => (categoryNamed? value).join
  | some "Script" => (fullName? scriptAliases value).bind (row? scripts)
  | some "Script_Extensions" => (fullName? scriptAliases value).bind (row? scriptExtensions)
  | some "Age" => (fullName? ageAliases value).bind upToAge?
  | some "Grapheme_Cluster_Break" =>
    (fullName? graphemeAliases value).bind (row? graphemeBreaks)
  | some "Word_Break" => (fullName? wordAliases value).bind (row? wordBreaks)
  | some "Sentence_Break" => (fullName? sentenceAliases value).bind (row? sentenceBreaks)
  | _ => none

/-! ### Words and digits -/

/-- The decimal digits. -/
def digit : CharSet := rows categories ["Decimal_Number"]

/-- The characters that make up words: letters, marks, decimal digits, connecting
punctuation and joiners. -/
def word : CharSet :=
  (rows categories ["Nonspacing_Mark", "Spacing_Mark", "Enclosing_Mark", "Decimal_Number",
    "Connector_Punctuation"]).union
    (((binary? "Alphabetic").getD .empty).union (rows binaries ["Join_Control"]))

/-- The white space. -/
def space : CharSet := rows binaries ["White_Space"]

end Unicode

end Feel
