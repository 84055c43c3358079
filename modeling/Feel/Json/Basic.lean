import Feel.Binary64.Text

/-!
# JSON documents

A document is null, a boolean, a number, a string, an array or an object. Numbers are
integers or binary64 numbers. Objects keep the order of their members.

* `Json`: the documents.
* `Json.text`: the compact text of a document.
* `Json.sorted`: the document with the members of every object in the order of their keys.
-/

namespace Feel

/-- A JSON document. -/
inductive Json where
  | null
  | bool (b : Bool)
  | int (n : Int)
  | double (x : Float)
  | string (s : String)
  | array (items : List Json)
  | object (members : List (String × Json))
  deriving Inhabited

namespace Json

/-! ### Text -/

/-- A digit of base sixteen. -/
def hexDigit (n : Nat) : Char :=
  if n < 10 then Char.ofNat ('0'.toNat + n) else Char.ofNat ('a'.toNat + n - 10)

/-- A character within a quoted string: quotes, backslashes and control characters are
escaped. -/
def escape (c : Char) : List Char :=
  match c with
  | '"' => ['\\', '"']
  | '\\' => ['\\', '\\']
  | '\n' => ['\\', 'n']
  | '\r' => ['\\', 'r']
  | '\t' => ['\\', 't']
  | '\x08' => ['\\', 'b']
  | '\x0c' => ['\\', 'f']
  | c =>
    if c.toNat < 0x20 then
      ['\\', 'u', '0', '0', hexDigit (c.toNat / 16), hexDigit (c.toNat % 16)]
    else [c]

/-- A string in quotes. -/
def quote (s : String) : String := "\"" ++ String.ofList (s.toList.flatMap escape) ++ "\""

mutual

/-- The text of a document without any blanks. -/
def text : Json → String
  | null => "null"
  | bool b => if b then "true" else "false"
  | int n => toString n
  | double x => Binary64.jsonText x
  | string s => quote s
  | array items => "[" ++ ",".intercalate (texts items) ++ "]"
  | object members => "\x7b" ++ ",".intercalate (memberTexts members) ++ "\x7d"

def texts : List Json → List String
  | [] => []
  | j :: js => text j :: texts js

def memberTexts : List (String × Json) → List String
  | [] => []
  | (key, j) :: members => (quote key ++ ":" ++ text j) :: memberTexts members

end

/-! ### Order of members -/

/-- Members in the order of their keys; of members with one key the last stays. -/
def sortMembers (members : List (String × Json)) : List (String × Json) :=
  let sorted := members.mergeSort fun a b => !decide (b.1 < a.1)
  let rec keepLast : List (String × Json) → List (String × Json)
    | [] => []
    | m :: ms => if (ms.head?.map (·.1)) == some m.1 then keepLast ms else m :: keepLast ms
  keepLast sorted

mutual

/-- The document with the members of every object sorted. -/
def sorted : Json → Json
  | array items => array (sortedAll items)
  | object members => object (sortMembers (sortedMembers members))
  | j => j

def sortedAll : List Json → List Json
  | [] => []
  | j :: js => sorted j :: sortedAll js

def sortedMembers : List (String × Json) → List (String × Json)
  | [] => []
  | (key, j) :: members => (key, sorted j) :: sortedMembers members

end

/-! ### Access -/

/-- The member with a key; of several the last. -/
def member? (j : Json) (key : String) : Option Json :=
  match j with
  | object members => members.reverse.lookup key
  | _ => none

end Json

end Feel
