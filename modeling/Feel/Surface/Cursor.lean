import Feel.Surface.Basic
import Feel.Token.Lexer

/-!
# Reading tokens

A cursor stands before the tokens that are still to be read. It also holds the names of
several words that are known so far, which reading a name needs.

* `Piece`: a token with the comments before it.
* `ParseError`: where and why a text is no expression.
* `Cursor`, `Parse`: the state of reading, and steps that read.
-/

namespace Feel

/-! ### Tokens and comments -/

/-- A token, the bytes it covers and the comments before it. -/
structure Piece where
  token : Token
  start : Nat
  stop : Nat
  comments : List String
  deriving DecidableEq, Inhabited

namespace Piece

/-- Moves comments to the tokens after them; those behind the last token are left over. -/
def ofLexemes : List Lexeme → List String → List Piece × List String
  | [], waiting => ([], waiting)
  | ⟨token, start, stop⟩ :: rest, waiting =>
    match token with
    | .comment text => ofLexemes rest (waiting ++ [text])
    | token =>
      let (pieces, trailing) := ofLexemes rest []
      (⟨token, start, stop, waiting⟩ :: pieces, trailing)

end Piece

/-! ### Errors -/

/-- What reading asked for. -/
inductive Expectation where
  | token (t : Token)
  | name
  | type
  /-- The text of a temporal literal. -/
  | temporalText
  | intervalClose
  deriving DecidableEq, Inhabited

/-- What is wrong at some place. -/
inductive ParseFault where
  | lexical (fault : LexFault)
  | expected (what : Expectation) (found : Option Token)
  | unexpected (found : Option Token)
  deriving DecidableEq, Inhabited

namespace ParseFault

/-- What was found, in messages. -/
def foundText : Option Token → String
  | some t => "'" ++ t.text ++ "'"
  | none => "end of input"

def expectationText : Expectation → String
  | .token t => "expected '" ++ t.text ++ "', found "
  | .name => "expected a name, found "
  | .type => "expected a type, found "
  | .temporalText => "expected a string after '@', found "
  | .intervalClose => "expected ']', ')' or '[' to close the interval, found "

def message : ParseFault → String
  | lexical fault => fault.message
  | expected what found => expectationText what ++ foundText found
  | unexpected found => "unexpected " ++ foundText found

end ParseFault

/-- Why a text cannot be read. -/
inductive ParseError where
  | malformed (fault : ParseFault) (place : Position)
  /-- The text has no tokens. -/
  | empty
  deriving DecidableEq, Inhabited

namespace ParseError

def message : ParseError → String
  | malformed fault place =>
    "Syntax error at " ++ toString place.line ++ ":" ++ toString place.column ++ ": " ++
      fault.message
  | empty => "Empty expression"

end ParseError

/-! ### Cursors -/

/-- What stays the same while a text is read. -/
structure Setting where
  source : String
  /-- Any run of plain names forms one name. -/
  mergeNames : Bool

/-- The state of reading. -/
structure Cursor where
  /-- The tokens that are still to be read. -/
  rest : List Piece
  /-- The byte after the token that was read last. -/
  last : Nat
  /-- The names of several words that are known. -/
  known : List String
  deriving Inhabited

/-- A step that reads tokens. The cursor survives a failure. -/
abbrev Parse := EStateM ParseError Cursor

namespace Parse

/-- The next token. -/
def peek : Parse (Option Token) := do return (← get).rest.head?.map (·.token)

/-- The token after the next one. -/
def peekSecond : Parse (Option Token) := do return ((← get).rest.drop 1).head?.map (·.token)

/-- The number of tokens that are left. -/
def remaining : Parse Nat := do return (← get).rest.length

/-- Reads `n` tokens. -/
def consume (n : Nat) : Parse Unit := modify fun c =>
  { c with rest := c.rest.drop n, last := ((c.rest.take n).getLast?.map (·.stop)).getD c.last }

/-- Whether the next token is a symbol. -/
def isNext (s : Symbol) : Parse Bool := do return (← peek) == some (.symbol s)

/-- Reads a token if it is next. -/
def accept (t : Token) : Parse Bool := do
  if (← peek) == some t then
    consume 1
    return true
  return false

/-- The byte at which the next token starts. -/
def offset (env : Setting) : Parse Nat := do
  return ((← get).rest.head?.map (·.start)).getD env.source.utf8ByteSize

/-- The comments before the next token. -/
def leading : Parse (List String) := do return ((← get).rest.head?.map (·.comments)).getD []

/-- Fails at the next token. -/
def fail {α : Type} (env : Setting) (fault : ParseFault) : Parse α := do
  throw (.malformed fault (Position.ofOffset env.source (← offset env)))

/-- Fails because something else was asked for. -/
def failExpected {α : Type} (env : Setting) (what : Expectation) : Parse α := do
  fail env (.expected what (← peek))

/-- Reads a token that has to be next. -/
def expect (env : Setting) (t : Token) : Parse Unit := do
  if ← accept t then return ()
  failExpected env (.token t)

def expectSymbol (env : Setting) (s : Symbol) : Parse Unit := expect env (.symbol s)

def acceptSymbol (s : Symbol) : Parse Bool := accept (.symbol s)

/-- A node from a byte up to the last token read. -/
def spanned (env : Setting) (form : Form Surface) (start : Nat) : Parse Surface := do
  return .plain form (Span.ofOffsets env.source start (Nat.max (← get).last start))

/-- Makes a name of several words known. -/
def remember (name : String) : Parse Unit := do
  if name.toList.contains ' ' then modify fun c => { c with known := name :: c.known }

/-- Items separated by commas, after the first ones, which come in reverse. The number of
tokens left bounds their number. -/
def moreItems {α : Type} (item : Parse α) : Nat → List α → Parse (List α)
  | 0, items => return items.reverse
  | n + 1, items => do
    if ← acceptSymbol .comma then moreItems item n ((← item) :: items)
    else return items.reverse

/-- One or more items separated by commas. -/
def commaSeparated {α : Type} (item : Parse α) : Parse (List α) := do
  let first ← item
  moreItems item (← remaining) [first]

/-! ### Names -/

/-- The most words that a known name has. -/
def maxWords : Nat := 6

/-- The longest known name among the runs of words that begin with a candidate, and the
number of its words. -/
def longest (isKnown : String → Bool) : String × Nat → String → Nat → List String → String × Nat
  | best, _, _, [] => best
  | best, candidate, count, w :: ws =>
    let candidate := candidate ++ " " ++ w
    let best := if isKnown candidate then (candidate, count + 1) else best
    longest isKnown best candidate (count + 1) ws

/-- The words at the start of tokens. -/
def words (pieces : List Piece) : List String :=
  (pieces.map fun p => p.token.word?).takeWhile (·.isSome) |>.filterMap id

/-- The name that begins with the next token, a word, and the number of its words. -/
def nameAhead (isKnown : String → Bool) (c : Cursor) : Option (String × Nat) :=
  match words (c.rest.take maxWords) with
  | [] => none
  | w :: ws => some (longest isKnown (w, 1) w 1 ws)

/-- Reads the plain names that follow, each after a blank. -/
def plainNames : Nat → String → Parse String
  | 0, name => return name
  | n + 1, name => do
    match ← peek with
    | some (.name w) => do
      consume 1
      plainNames n (name ++ " " ++ w)
    | _ => return name

/-- Reads a name, which may have several words. -/
def readName (env : Setting) : Parse String := do
  let c ← get
  match nameAhead c.known.contains c with
  | none => failExpected env .name
  | some (name, count) => do
    consume count
    if env.mergeNames then plainNames (← remaining) name else return name

/-- Reads the words of a name that is declared, up to a token that ends it. -/
def binder (env : Setting) (ends : Token → Bool) : Parse String := do
  let c ← get
  let ws := words (c.rest.takeWhile fun p => !ends p.token)
  if ws.isEmpty then failExpected env .name
  else
    consume ws.length
    return " ".intercalate ws

/-- A declared name that no word ends. -/
def wholeBinder (env : Setting) : Parse String := binder env fun _ => false

end Parse

end Feel
