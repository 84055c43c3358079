import Feel.Text.Characters
import Feel.Token.Basic

/-!
# From texts to tokens

At each place the longest token is taken. Blanks between tokens are skipped, comments are
tokens of their own, and strings are read with their escapes. Strings and block comments count the
bytes that they read, and the text goes on behind these.

* `Lexeme`: a token with the bytes it covers.
* `LexFault`: what can be wrong with a text.
* `Token.bump`: what is left of a text behind bytes that are counted.
* `Token.next`: the token at the start of a text and the rest.
* `Token.scan`: the tokens of a text.
-/

namespace Feel

/-- A token and the bytes it covers. -/
structure Lexeme where
  token : Token
  start : Nat
  stop : Nat
  deriving DecidableEq, Inhabited

/-- What is wrong with a text at some place. -/
inductive LexFault where
  | unterminatedString
  | unterminatedComment
  | unexpected (c : Char)
  deriving DecidableEq, Inhabited

namespace LexFault

def message : LexFault → String
  | unterminatedString => "unterminated string literal"
  | unterminatedComment => "unterminated block comment"
  | unexpected c => "unexpected character '" ++ c.toString ++ "'"

/-- The bytes that a fault covers. -/
def size : LexFault → Nat
  | unterminatedString => 1
  | unterminatedComment => 2
  | unexpected c => c.utf8Size

end LexFault

/-- A fault and the byte it begins at. -/
structure LexError where
  fault : LexFault
  start : Nat
  deriving DecidableEq, Inhabited

namespace LexError

def stop (e : LexError) : Nat := e.start + e.fault.size

end LexError

namespace Token

/-! ### Characters -/

/-- Spaces, tabs and line ends separate tokens. -/
def isSeparator (c : Char) : Bool := c == ' ' || c == '\t' || c == '\n' || c == '\r'

/-- A name begins with a letter of the ASCII range or an underscore. -/
def isNameStart (c : Char) : Bool := c.isAlpha || c == '_'

def isNamePart (c : Char) : Bool := c.isAlphanum || c == '_'

/-- The bytes of a list of characters. -/
def byteSize (cs : List Char) : Nat := cs.foldl (fun n c => n + c.utf8Size) 0

/-- What is left of a list of characters behind its first `n` bytes. -/
def bump (n : Nat) : List Char → List Char
  | [] => []
  | c :: cs => if n = 0 then c :: cs else bump (n - c.utf8Size) cs

/-! ### Numbers -/

/-- A point and digits at the start of a text, if they are there, and the rest. -/
def fraction (cs : List Char) : List Char × List Char :=
  match cs with
  | '.' :: rest =>
    if (rest.headD ' ').isDigit then
      ('.' :: rest.takeWhile Char.isDigit, rest.dropWhile Char.isDigit)
    else ([], cs)
  | _ => ([], cs)

/-- The sign of an exponent and the rest. -/
def sign (cs : List Char) : List Char × List Char :=
  match cs with
  | '+' :: rest => (['+'], rest)
  | '-' :: rest => (['-'], rest)
  | _ => ([], cs)

/-- An exponent at the start of a text, if it is there, and the rest. -/
def exponent (cs : List Char) : List Char × List Char :=
  match cs with
  | e :: rest =>
    if e == 'e' || e == 'E' then
      let (s, digits) := sign rest
      if (digits.headD ' ').isDigit then
        (e :: s ++ digits.takeWhile Char.isDigit, digits.dropWhile Char.isDigit)
      else ([], cs)
    else ([], cs)
  | [] => ([], [])

/-- A number at the start of a text, which may begin with its point, and the rest. -/
def scanNumber (cs : List Char) : Token × List Char :=
  let whole := cs.takeWhile Char.isDigit
  let (f, rest) := fraction (cs.dropWhile Char.isDigit)
  let (e, rest) := exponent rest
  (number (String.ofList ((if whole.isEmpty then ['0'] else whole) ++ f ++ e)), rest)

/-! ### Strings and comments -/

/-- The value of a digit of base sixteen. -/
def hexDigit? (c : Char) : Option Nat :=
  if c.isDigit then some (c.toNat - '0'.toNat)
  else if 'a' ≤ c ∧ c ≤ 'f' then some (c.toNat - 'a'.toNat + 10)
  else if 'A' ≤ c ∧ c ≤ 'F' then some (c.toNat - 'A'.toNat + 10)
  else none

/-- The number of digits of base sixteen. -/
def hexValue? (cs : List Char) : Option Nat :=
  cs.foldlM (fun n c => (hexDigit? c).map (n * 16 + ·)) 0

/-- The character of a four-place escape; a plus sign may take the first place. -/
def escaped? (a b c d : Char) : Option Char :=
  (hexValue? (if a == '+' then [b, c, d] else [a, b, c, d])).bind fun n =>
    if n < 0xD800 ∨ 0xDFFF < n then some (Char.ofNat n) else none

/-- The contents of a string after its opening quote, collected in reverse, and the count of the
bytes that are read, up to the closing quote. An escape that is none stays as it is. -/
def scanString : List Char → List Char → Nat → Option (String × Nat)
  | [], _, _ => none
  | '"' :: _, out, consumed => some (String.ofList out.reverse, consumed + 1)
  | '\\' :: 'u' :: a :: b :: c :: d :: rest, out, consumed =>
    match escaped? a b c d with
    | some e => scanString rest (e :: out) (consumed + 6)
    | none => none
  | '\\' :: 'u' :: _, _, _ => none
  | '\\' :: c :: rest, out, consumed =>
    match c with
    | '\\' | '"' | '\'' => scanString rest (c :: out) (consumed + 1 + c.utf8Size)
    | 'n' => scanString rest ('\n' :: out) (consumed + 1 + c.utf8Size)
    | 'r' => scanString rest ('\r' :: out) (consumed + 1 + c.utf8Size)
    | 't' => scanString rest ('\t' :: out) (consumed + 1 + c.utf8Size)
    | _ => scanString rest (c :: '\\' :: out) (consumed + 1 + c.utf8Size)
  | '\\' :: [], _, _ => none
  | c :: rest, out, consumed => scanString rest (c :: out) (consumed + c.utf8Size)

/-- The contents of a block comment after its opening, collected in reverse, and the count of the
bytes up to its end. -/
def scanComment : List Char → List Char → Nat → Option (String × Nat)
  | '*' :: '/' :: _, out, consumed => some (String.ofList out.reverse, consumed + 2)
  | c :: rest, out, consumed => scanComment rest (c :: out) (consumed + c.utf8Size)
  | [], _, _ => none

/-! ### Tokens -/

/-- The word at the start of a text, a keyword or a name. -/
def scanWord (cs : List Char) : Token × List Char :=
  let word := String.ofList (cs.takeWhile isNamePart)
  ((Keyword.ofText? word).elim (name word) keyword, cs.dropWhile isNamePart)

/-- The longest symbol at the start of a text and the rest. -/
def scanSymbol? (cs : List Char) : Option (Token × List Char) :=
  (Symbol.all.find? fun s => s.text.toList.isPrefixOf cs).map fun s =>
    (symbol s, cs.drop s.text.length)

/-- The token at the start of a text that begins with no separator, and the rest. -/
def next : List Char → Except LexFault (Token × List Char)
  | '"' :: rest =>
    match scanString rest [] 0 with
    | some (s, consumed) => .ok (string s, bump consumed rest)
    | none => .error .unterminatedString
  | '/' :: '/' :: rest =>
    .ok (comment (Text.trim (String.ofList (rest.takeWhile (· != '\n')))),
      rest.dropWhile (· != '\n'))
  | '/' :: '*' :: rest =>
    match scanComment rest [] 0 with
    | some (s, consumed) => .ok (comment (Text.trim s), bump consumed rest)
    | none => .error .unterminatedComment
  | cs =>
    let c := cs.headD ' '
    if c.isDigit || (c == '.' && (cs.tail.headD ' ').isDigit) then .ok (scanNumber cs)
    else if isNameStart c then .ok (scanWord cs)
    else
      match scanSymbol? cs with
      | some out => .ok out
      | none => .error (.unexpected c)

/-- The tokens of a text that begins at byte `start`. Every token takes a character at least, so
the length of the text is enough for `n`. -/
def scanFrom : (n : Nat) → (start : Nat) → List Char → Except LexError (List Lexeme)
  | 0, _, _ => .ok []
  | n + 1, start, cs =>
    let blanks := cs.takeWhile isSeparator
    let cs := cs.dropWhile isSeparator
    let start := start + byteSize blanks
    if cs.isEmpty then .ok []
    else
      match next cs with
      | .error fault => .error ⟨fault, start⟩
      | .ok (token, rest) => do
        let stop := start + (byteSize cs - byteSize rest)
        return ⟨token, start, stop⟩ :: (← scanFrom n stop rest)

/-- The tokens of a text. -/
def scan (source : String) : Except LexError (List Lexeme) :=
  scanFrom source.length 0 source.toList

end Token

end Feel
