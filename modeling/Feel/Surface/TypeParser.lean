import Feel.Surface.Cursor
import Feel.Ty.Basic

/-!
# Reading types

Types as they stand after `instance of` and in parameters. The rule for types is given in
terms of itself for the types inside, and tied with a bound on the nesting, which the number
of tokens is enough for.

* `TypeExpr.rule`: one level.
* `TypeExpr.read`: a type.
-/

namespace Feel

namespace TypeExpr

/-- The flags of the brackets in a range type. One bracket says something of its own side
only. -/
def rangeFlags : List Token → Option Bool × Option Bool
  | [] => (none, none)
  | [.symbol .lbracket] => (some true, none)
  | [.symbol .lparen] => (some false, none)
  | [.symbol .rbracket] => (none, some true)
  | [.symbol .rparen] => (none, some false)
  | [_] => (none, none)
  | first :: second :: _ =>
    (some (first == .symbol .lbracket), some (second == .symbol .rbracket))

def isBracket : Token → Bool
  | .symbol .lbracket | .symbol .rbracket | .symbol .lparen | .symbol .rparen => true
  | _ => false

/-- Whether at most two brackets and an opening angle follow. -/
def rangeAhead (pieces : List Piece) : Bool :=
  let tokens := pieces.map (·.token)
  let brackets := tokens.takeWhile isBracket
  decide (brackets.length ≤ 2) && (tokens.drop brackets.length).head? == some (.symbol .lt)

/-- Types separated by commas up to a closing angle, possibly none. -/
def angleList {α : Type} (item : Parse α) : Parse (List α) := do
  if ← Parse.isNext .gt then return []
  Parse.commaSeparated item

/-- A field of a context type. -/
def field (env : Setting) (self : Parse TypeExpr) : Parse (String × TypeExpr) := do
  let name ← Parse.wholeBinder env
  Parse.expectSymbol env .colon
  return (name, ← self)

/-- A function type after its keyword. -/
def functionRule (env : Setting) (self : Parse TypeExpr) : Parse TypeExpr := do
  Parse.expectSymbol env .lt
  let params ← angleList self
  Parse.expectSymbol env .gt
  Parse.expectSymbol env .arrow
  return .function params (← self)

/-- A range type after its keyword. -/
def rangeRule (env : Setting) (self : Parse TypeExpr) : Parse TypeExpr := do
  let brackets := ((← get).rest.map (·.token)).takeWhile isBracket
  Parse.consume brackets.length
  let (si, ei) := rangeFlags brackets
  Parse.expectSymbol env .lt
  let element ← self
  Parse.expectSymbol env .gt
  return .range element si ei

/-- The longest run of words that names a type. -/
def namedRule (env : Setting) : Parse TypeExpr := do
  let c ← get
  let isKnown (s : String) : Bool := (Ty.byName? s).isSome || c.known.contains s
  match Parse.nameAhead isKnown c with
  | none => Parse.failExpected env .type
  | some (name, count) => do
    Parse.consume count
    return .named name

/-- A type, in terms of the types inside it. -/
def rule (env : Setting) (self : Parse TypeExpr) : Parse TypeExpr := do
  if ← Parse.accept (.keyword .function) then functionRule env self
  else if ← Parse.accept (.keyword .null) then return .named "null"
  else
    let c ← get
    let head := (← Parse.peek).bind (·.word?)
    let angle := (← Parse.peekSecond) == some (.symbol .lt)
    if head == some "list" && angle then
      Parse.consume 2
      let element ← self
      Parse.expectSymbol env .gt
      return .list element
    else if head == some "context" && angle then
      Parse.consume 2
      let fields ← angleList (field env self)
      Parse.expectSymbol env .gt
      return .context fields
    else if head == some "range" && rangeAhead (c.rest.drop 1) then
      Parse.consume 1
      rangeRule env self
    else namedRule env

/-- A type with at most `n` levels. -/
def readWithin (env : Setting) : (n : Nat) → Parse TypeExpr
  | 0 => Parse.failExpected env .type
  | n + 1 => rule env (readWithin env n)

/-- Reads a type. -/
def read (env : Setting) : Parse TypeExpr := do readWithin env ((← Parse.remaining) + 1)

end TypeExpr

end Feel
