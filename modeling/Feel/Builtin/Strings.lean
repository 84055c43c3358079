import Feel.Builtin.Basic
import Feel.Regex.Matcher

/-!
# String functions

Positions count characters from one, and negative positions count from the end. Patterns
are regular expressions with the flags `i`, `s`, `m` and `x`.
-/

namespace Feel

namespace Text

/-- What stands before and after the first occurrence of a text. -/
def cutAt (needle : List Char) : List Char → List Char → Option (List Char × List Char)
  | [], before => if needle.isEmpty then some (before.reverse, []) else none
  | c :: cs, before =>
    if needle.isPrefixOf (c :: cs) then some (before.reverse, (c :: cs).drop needle.length)
    else cutAt needle cs (c :: before)

/-- What stands before and after the first occurrence of a text. -/
def cut? (s needle : String) : Option (String × String) :=
  (cutAt needle.toList s.toList []).map fun (a, b) => (String.ofList a, String.ofList b)

end Text

namespace Builtin

/-- The characters from a position on, at most `size` of them where it is given; none of
them for a position behind the end, once both offsets are known. There is no text where an
offset exceeds 64 bits and that stops the program, or where the slice is out of bounds. -/
def substringOf? (o : Overflow) (s : String) (position : Int64) (size : Option Int64) :
    Option String := do
  let length := Int64.ofNat s.toList.length
  let start := Max.max (← Position.offset? o length position) 0
  let stop ← Position.stop? o length start size
  if length ≤ start then some "" else (slice? s.toList start stop).map String.ofList

/-- `substring(string, start position, length?)`. -/
def substring? (o : Overflow) (args : List Value) : Option Value :=
  match Args.text? args 0, Args.int64? (Args.get args 1),
    Args.optionalInt64? (Args.get args 2) with
  | some s, some position, some size =>
    if position = 0 ∨ size.any (· < 0) then some .null
    else (substringOf? o s position size).map .string
  | _, _, _ => some .null

/-- A function of one string. -/
def onText (args : List Value) (f : String → Value) : Value :=
  match Args.text? args 0 with
  | some s => f s
  | none => .null

/-- A function of two strings. -/
def onTexts (args : List Value) (f : String → String → Value) : Value :=
  match Args.text? args 0, Args.text? args 1 with
  | some s, some t => f s t
  | _, _ => .null

/-- The flags of a pattern. -/
def flagsOf? (s : String) : Option Regex.Flags :=
  s.toList.foldlM (fun (f : Regex.Flags) c =>
    match c with
    | 'i' => some { f with ignoreCase := true }
    | 's' => some { f with dotAll := true }
    | 'm' => some { f with multiLine := true }
    | 'x' => some { f with verbose := true }
    | _ => none) {}

/-- The pattern of the second argument under the flags of another. -/
def patternOf? (args : List Value) (flags : Value) : Option Regex.Compiled := do
  let source ← Args.text? args 1
  let flags ← match flags.asString? with
    | some s => flagsOf? s
    | none => some {}
  Regex.compile? flags source

def matchesValue (args : List Value) : Value :=
  match Args.text? args 0, patternOf? args (Args.get args 2) with
  | some s, some re => .boolean (Regex.isMatch re s)
  | _, _ => .null

def replaceValue (args : List Value) : Value :=
  match Args.text? args 0, patternOf? args (Args.get args 3), Args.text? args 2 with
  | some s, some re, some replacement => .string (Regex.replaceAll re s replacement)
  | _, _, _ => .null

def splitValue (args : List Value) : Value :=
  match Args.text? args 0, patternOf? args .null with
  | some s, some re => .list ((Regex.split re s).map .string)
  | _, _ => .null

end Builtin

end Feel
