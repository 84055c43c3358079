/-!
# Tokens

The words of expression texts. A name of several words is one token for each word here, and
is put together only where expressions are read.

* `Token`: the tokens, with `Token.text` for the way they are shown.
* `Token.word?`: the word of a token that can be part of a name.
-/

namespace Feel

/-- A reserved word. -/
inductive Keyword where
  | true | false | null | if | then | else | for | in | return | some | every | satisfies
  | and | or | between | instanceWord | of | function
  deriving DecidableEq, Inhabited

namespace Keyword

def text : Keyword → String
  | «true» => "true"
  | «false» => "false"
  | null => "null"
  | «if» => "if"
  | «then» => "then"
  | «else» => "else"
  | «for» => "for"
  | «in» => "in"
  | «return» => "return"
  | some => "some"
  | every => "every"
  | satisfies => "satisfies"
  | and => "and"
  | or => "or"
  | between => "between"
  | instanceWord => "instance"
  | of => "of"
  | function => "function"

/-- Every keyword once. -/
def all : List Keyword :=
  [«true», «false», null, «if», «then», «else», «for», «in», «return», some, every, satisfies,
    and, or, between, instanceWord, of, function]

/-- The keyword with a text. -/
def ofText? (s : String) : Option Keyword := all.find? (·.text == s)

/-- The keywords that names of several words may contain. -/
def isWord : Keyword → Bool
  | and | or | of | «in» | instanceWord | between => Bool.true
  | _ => Bool.false

theorem ofText?_text (k : Keyword) : ofText? k.text = Option.some k := by cases k <;> decide

end Keyword

/-- An operator or a delimiter. -/
inductive Symbol where
  | pow | ne | le | ge | dotDot | arrow
  | plus | minus | star | slash | eq | lt | gt | question | at | colon
  | lparen | rparen | lbracket | rbracket | lbrace | rbrace | dot | comma
  deriving DecidableEq, Inhabited

namespace Symbol

def text : Symbol → String
  | pow => "**"
  | ne => "!="
  | le => "<="
  | ge => ">="
  | dotDot => ".."
  | arrow => "->"
  | plus => "+"
  | minus => "-"
  | star => "*"
  | slash => "/"
  | eq => "="
  | lt => "<"
  | gt => ">"
  | question => "?"
  | «at» => "@"
  | colon => ":"
  | lparen => "("
  | rparen => ")"
  | lbracket => "["
  | rbracket => "]"
  | lbrace => "\x7b"
  | rbrace => "\x7d"
  | dot => "."
  | comma => ","

/-- Every symbol once, those of two characters first. -/
def all : List Symbol :=
  [pow, ne, le, ge, dotDot, arrow, plus, minus, star, slash, eq, lt, gt, question, «at», colon,
    lparen, rparen, lbracket, rbracket, lbrace, rbrace, dot, comma]

end Symbol

/-- A token. -/
inductive Token where
  /-- A number as it is written, with a zero before a leading point. -/
  | number (text : String)
  /-- The contents of a string. -/
  | string (text : String)
  | comment (text : String)
  | name (text : String)
  | keyword (k : Keyword)
  | symbol (s : Symbol)
  deriving DecidableEq, Inhabited

namespace Token

/-- The way a token is shown. -/
def text : Token → String
  | number s => s
  | string s => "\"" ++ s ++ "\""
  | comment s => "/* " ++ s ++ " */"
  | name s => s
  | keyword k => k.text
  | symbol s => s.text

/-- The word of a token that can be part of a name. -/
def word? : Token → Option String
  | name s => some s
  | keyword k => if k.isWord then some k.text else none
  | _ => none

end Token

end Feel
