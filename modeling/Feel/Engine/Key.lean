import Feel.Engine.Digest
import Feel.Text.Characters

/-!
# Keys of requests

Requests to compile are told apart by their keys. Texts that differ only in the blanks
between their words have the same key. A key that is too long is replaced by its digest.

* `Key.normalize`: a text without superfluous blanks.
* `Key.ofParts`: the key of a request.
* `Key.unitName`: the name of the unit that a request gives rise to.
-/

namespace Feel

namespace Key

mutual

/-- Collapses blanks outside of string literals; `pending` tells that a blank is due. -/
def collapse (pending : Bool) : List Char → List Char
  | [] => []
  | c :: cs =>
    if Text.isBlank c then collapse true cs
    else
      (if pending then [' '] else []) ++ c :: (if c == '"' then literal cs else collapse false cs)

/-- The rest of a string literal as it is, and what follows collapsed. -/
def literal : List Char → List Char
  | [] => []
  | '\\' :: c :: cs => '\\' :: c :: literal cs
  | c :: cs => c :: (if c == '"' then collapse false cs else literal cs)

end

/-- A text without superfluous blanks: runs of them outside of string literals become one,
and none are left at the ends. -/
def normalize (source : String) : String :=
  String.ofList (collapse false (Text.trim source).toList)

/-- What stands between the parts of a key. -/
def separator : String := "\x1f"

/-- The key of a request. Parts of more than `threshold` bytes are replaced by their digest. -/
def ofParts (kind : String) (parts : List String) (threshold : Nat) : String :=
  let joined := separator.intercalate parts
  if joined.utf8ByteSize ≤ threshold then kind ++ ":" ++ joined
  else kind ++ "#" ++ Sha256.hex joined

/-- The name of the unit that a request gives rise to. -/
def unitName (key : String) : String :=
  "Feel_" ++ String.ofList ((Sha256.hex key).toList.take 12)

end Key

end Feel
