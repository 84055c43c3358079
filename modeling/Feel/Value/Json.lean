import Feel.Value.Text
import Feel.Json.Basic

/-!
# Values and JSON documents

A document becomes a value with the narrowest integers; objects become contexts with their
members sorted by key. A value becomes a document in which decimals, dates, durations,
ranges and functions are strings.

* `Datum.ofJson`: the value of a document.
* `Datum.toJson`: the document of a value.
* `Json.asInt64?`, `Json.asString?`, `Json.asBool?`, `Json.asStrings?`: documents as plain data.
-/

namespace Feel

namespace Datum

variable {κ : Type}

mutual

/-- The value of a document whose objects are sorted. -/
def ofSortedJson : Json → Datum κ
  | .null => null
  | .bool b => boolean b
  | .int n => number (.ofInt n)
  | .double x => number (.double x)
  | .string s => string s
  | .array items => list (ofSortedItems items)
  | .object members => context (ofSortedMembers members)

def ofSortedItems : List Json → List (Datum κ)
  | [] => []
  | j :: js => ofSortedJson j :: ofSortedItems js

def ofSortedMembers : List (String × Json) → List (String × Datum κ)
  | [] => []
  | (key, j) :: members => (key, ofSortedJson j) :: ofSortedMembers members

end

/-- The value of a document. -/
def ofJson (j : Json) : Datum κ := ofSortedJson j.sorted

mutual

/-- The document of a value, contexts in their own order. -/
def toJson : Datum κ → Json
  | null => .null
  | boolean b => .bool b
  | number (.integer n) => .int n.toInt
  | number (.long n) => .int n.toInt
  | number (.double x) => if x.isFinite then .double x else .null
  | number (.decimal d) => .string d.text
  | list items => .array (toJsonItems items)
  | context entries => .object (toJsonMembers entries)
  | v => .string v.text

def toJsonItems : List (Datum κ) → List Json
  | [] => []
  | v :: vs => toJson v :: toJsonItems vs

def toJsonMembers : List (String × Datum κ) → List (String × Json)
  | [] => []
  | (name, v) :: entries => (name, toJson v) :: toJsonMembers entries

end

end Datum

/-! ### Documents as plain data -/

namespace Json

/-- An integer that fits 64 bits; a binary64 number is none. -/
def asInt64? : Json → Option Int64
  | .int n => Number.int64? n
  | _ => none

def asString? : Json → Option String
  | .string s => some s
  | _ => none

def asBool? : Json → Option Bool
  | .bool b => some b
  | _ => none

/-- The strings of an array of strings. -/
def asStrings? : Json → Option (List String)
  | .array items => items.mapM asString?
  | _ => none

end Json

end Feel
