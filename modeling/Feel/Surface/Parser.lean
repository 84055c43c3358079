import Feel.Surface.TypeParser

/-!
# Reading expressions

From the loosest to the tightest: `if`, `for`, `some`, `every` and `function`; `or`; `and`;
comparisons, `between`, `in` and `instance of`; sums; products; powers; signs; filters, paths
and calls; and what stands alone. Each rule is given in terms of the rule for whole
expressions, which is tied with a bound on the nesting.

Names may have several words. A text is read at first with only the known names merged, and
if that fails with every run of plain names merged.

* `Surface.expressionRule`, `Surface.testsRule`: one level of expressions and unary tests.
* `Surface.parseExpression`, `Surface.parseTests`: whole texts.
-/

namespace Feel

namespace Surface

open Parse

/-- The rule for whole expressions. The flag is set at the end of an interval, where an
opening bracket closes the interval. -/
abbrev Rule := (closing : Bool) → Parse Surface

/-- Joins two operands. -/
def binary (op : Operator) (left right : Surface) : Surface :=
  .plain (.binary op left right) (left.span.merge right.span)

/-- Operands joined by operators from the left, after the first one. The number of tokens
left bounds the number of operators. -/
def chain (operator? : Token → Option Operator) (operand : Parse Surface) :
    Nat → Surface → Parse Surface
  | 0, left => return left
  | n + 1, left => do
    match (← peek).bind operator? with
    | none => return left
    | some op => do
      consume 1
      let right ← operand
      chain operator? operand n (binary op left right)

/-- Operands joined by operators from the left. -/
def leftAssociative (operator? : Token → Option Operator) (operand : Parse Surface) :
    Parse Surface := do
  let first ← operand
  chain operator? operand (← remaining) first

/-! ### Operators -/

def orOperator? : Token → Option Operator
  | .keyword .or => some .or
  | _ => none

def andOperator? : Token → Option Operator
  | .keyword .and => some .and
  | _ => none

def comparisonOperator? : Token → Option Operator
  | .symbol .eq => some .eq
  | .symbol .ne => some .ne
  | .symbol .lt => some .lt
  | .symbol .le => some .le
  | .symbol .gt => some .gt
  | .symbol .ge => some .ge
  | _ => none

def sumOperator? : Token → Option Operator
  | .symbol .plus => some .add
  | .symbol .minus => some .sub
  | _ => none

def productOperator? : Token → Option Operator
  | .symbol .star => some .mul
  | .symbol .slash => some .div
  | _ => none

def powerOperator? : Token → Option Operator
  | .symbol .pow => some .pow
  | _ => none

/-! ### Intervals -/

/-- The bracket that closes an interval; says whether the end is included. -/
def intervalClose (env : Setting) : Parse Bool := do
  match ← peek with
  | some (.symbol .rbracket) => do
    consume 1
    return true
  | some (.symbol .rparen) | some (.symbol .lbracket) => do
    consume 1
    return false
  | _ => failExpected env .intervalClose

/-- The end of an interval after its dots. -/
def intervalEnd (env : Setting) (self : Rule) (start : Surface) (startIncluded : Bool) :
    Parse (Form Surface) := do
  let finish ← self true
  let endIncluded ← intervalClose env
  return .interval start finish startIncluded endIncluded

/-! ### What stands alone -/

/-- Parentheses around an expression, or an interval that begins with one. -/
def parenthesized (env : Setting) (self : Rule) : Parse Surface := do
  let start ← offset env
  let comments ← leading
  expectSymbol env .lparen
  let inner ← self false
  if ← acceptSymbol .dotDot then
    let form ← intervalEnd env self inner false
    return (← spanned env form start).withLeading comments
  expectSymbol env .rparen
  return inner.withLeading comments

/-- A list, or an interval that begins with a bracket. -/
def listOrInterval (env : Setting) (self : Rule) : Parse (Form Surface) := do
  expectSymbol env .lbracket
  if ← acceptSymbol .rbracket then return .list []
  let first ← self false
  if ← acceptSymbol .dotDot then intervalEnd env self first true
  else
    let items ← moreItems (self false) (← remaining) [first]
    expectSymbol env .rbracket
    return .list items

/-- An interval that begins with a closing bracket. -/
def openInterval (env : Setting) (self : Rule) : Parse (Form Surface) := do
  expectSymbol env .rbracket
  let low ← self false
  expectSymbol env .dotDot
  intervalEnd env self low false

/-- The key of a context entry, a string or words. -/
def entryKey (env : Setting) : Parse String := do
  match ← peek with
  | some (.string s) => do
    consume 1
    return s
  | _ => wholeBinder env

/-- An entry of a context. -/
def entry (env : Setting) (self : Rule) : Parse (String × Surface) := do
  let key ← entryKey env
  expectSymbol env .colon
  remember key
  return (key, ← self false)

def contextForm (env : Setting) (self : Rule) : Parse (Form Surface) := do
  expectSymbol env .lbrace
  if ← acceptSymbol .rbrace then return .context []
  let entries ← commaSeparated (entry env self)
  expectSymbol env .rbrace
  return .context entries

/-- The text of a temporal literal after its sign. -/
def temporalForm (env : Setting) : Parse (Form Surface) := do
  expectSymbol env .at
  match ← peek with
  | some (.string s) => do
    consume 1
    return .temporal s
  | _ => failExpected env .temporalText

/-- A form of one token. -/
def atom (form : Form Surface) : Parse (Form Surface) := do
  consume 1
  return form

/-- What stands alone, apart from parentheses and the textual forms. -/
def primaryForm (env : Setting) (self : Rule) : Parse (Form Surface) := do
  match ← peek with
  | some (.number n) => atom (.number n)
  | some (.string s) => atom (.string s)
  | some (.keyword .true) => atom (.boolean true)
  | some (.keyword .false) => atom (.boolean false)
  | some (.keyword .null) => atom .null
  | some (.symbol .question) => atom .testInput
  | some (.symbol .at) => temporalForm env
  | some (.name _) => return .name (← readName env)
  | some (.symbol .lbracket) => listOrInterval env self
  | some (.symbol .rbracket) => openInterval env self
  | some (.symbol .lbrace) => contextForm env self
  | found => fail env (.unexpected found)

/-! ### Textual forms -/

/-- Whether a textual form begins with a token. -/
def beginsTextual : Token → Bool
  | .keyword .if | .keyword .for | .keyword .some | .keyword .every | .keyword .function => true
  | _ => false

def conditional (env : Setting) (self : Rule) (closing : Bool) : Parse (Form Surface) := do
  consume 1
  let condition ← self closing
  expect env (.keyword .then)
  let yes ← self closing
  expect env (.keyword .else)
  return .ite condition yes (← self closing)

/-- A name, what it runs over, and the end of a range. -/
def iterator (env : Setting) (self : Rule) (closing : Bool) : Parse (Iterator Surface) := do
  let name ← binder env (· == .keyword .in)
  expect env (.keyword .in)
  let domain ← self closing
  let finish ← if ← acceptSymbol .dotDot then some <$> self closing else pure none
  remember name
  return ⟨name, domain, finish⟩

def iteration (env : Setting) (self : Rule) (closing : Bool) : Parse (Form Surface) := do
  consume 1
  let iterators ← commaSeparated (iterator env self closing)
  expect env (.keyword .return)
  return .forIn iterators (← self closing)

def quantification (env : Setting) (self : Rule) (closing : Bool) : Parse (Form Surface) := do
  let every := (← peek) == some (.keyword .every)
  consume 1
  let iterators ← commaSeparated (iterator env self closing)
  expect env (.keyword .satisfies)
  return .quantified every iterators (← self closing)

/-- A parameter with its type, where it is given. -/
def param (env : Setting) : Parse (String × Option TypeExpr) := do
  let name ← wholeBinder env
  let type ← if ← acceptSymbol .colon then some <$> TypeExpr.read env else pure none
  remember name
  return (name, type)

def functionDefinition (env : Setting) (self : Rule) (closing : Bool) :
    Parse (Form Surface) := do
  consume 1
  expectSymbol env .lparen
  let params ← if ← isNext .rparen then pure [] else commaSeparated (param env)
  expectSymbol env .rparen
  return .function params (← self closing)

/-- A textual form, which extends as far as it can. -/
def textual (env : Setting) (self : Rule) (closing : Bool) : Parse Surface := do
  let start ← offset env
  let comments ← leading
  let form ← match ← peek with
    | some (.keyword .if) => conditional env self closing
    | some (.keyword .for) => iteration env self closing
    | some (.keyword .function) => functionDefinition env self closing
    | _ => quantification env self closing
  return (← spanned env form start).withLeading comments

/-- What stands alone. -/
def primary (env : Setting) (self : Rule) : Parse Surface := do
  let token ← peek
  if token == some (.symbol .lparen) then parenthesized env self
  else if token.any beginsTextual then textual env self false
  else
    let start ← offset env
    let comments ← leading
    let form ← primaryForm env self
    return (← spanned env form start).withLeading comments

/-! ### Filters, paths and calls -/

/-- Whether words and a colon follow. -/
def namedAhead (pieces : List Piece) : Bool :=
  let count := (words pieces).length
  decide (0 < count) && ((pieces.drop count).head?.map (·.token)) == some (.symbol .colon)

def namedArgument (env : Setting) (self : Rule) : Parse (String × Surface) := do
  let name ← wholeBinder env
  expectSymbol env .colon
  return (name, ← self false)

def arguments (env : Setting) (self : Rule) : Parse (Arguments Surface) := do
  expectSymbol env .lparen
  if ← acceptSymbol .rparen then return .positional []
  let args ← if namedAhead (← get).rest then
      Arguments.named <$> commaSeparated (namedArgument env self)
    else Arguments.positional <$> commaSeparated (self false)
  expectSymbol env .rparen
  return args

/-- Filters, paths and calls behind an expression. At the end of an interval a bracket is no
filter. The number of tokens left bounds their number. -/
def suffixes (env : Setting) (self : Rule) (closing : Bool) (start : Nat) :
    Nat → Surface → Parse Surface
  | 0, inner => return inner
  | n + 1, inner => do
    match ← peek with
    | some (.symbol .dot) => do
      consume 1
      let member ← readName env
      suffixes env self closing start n (← spanned env (.path inner member) start)
    | some (.symbol .lbracket) =>
      if closing then return inner
      else do
        consume 1
        let filter ← self false
        expectSymbol env .rbracket
        suffixes env self closing start n (← spanned env (.filter inner filter) start)
    | some (.symbol .lparen) => do
      let args ← arguments env self
      suffixes env self closing start n (← spanned env (.invocation inner args) start)
    | _ => return inner

/-- An expression with the filters, paths and calls behind it. -/
def withSuffixes (env : Setting) (self : Rule) (closing : Bool) (inner : Surface) :
    Parse Surface := do
  suffixes env self closing inner.span.start (← remaining) inner

/-! ### Signs and operators -/

/-- Signs before an expression. A sign before a number belongs to the number. The bound is
on the number of signs. -/
def signed (env : Setting) (self : Rule) (closing : Bool) : Nat → Parse Surface
  | 0 => do withSuffixes env self closing (← primary env self)
  | n + 1 => do
    if ← isNext .minus then
      let start ← offset env
      let comments ← leading
      consume 1
      match ← peek with
      | some (.number text) => do
        let more ← leading
        consume 1
        let literal ← spanned env (.number ("-" ++ text)) start
        withSuffixes env self closing (literal.withLeading (comments ++ more))
      | _ => do
        let operand ← signed env self closing n
        return (← spanned env (.negation operand) start).withLeading comments
    else withSuffixes env self closing (← primary env self)

def unary (env : Setting) (self : Rule) (closing : Bool) : Parse Surface := do
  signed env self closing (← remaining)

def power (env : Setting) (self : Rule) (closing : Bool) : Parse Surface :=
  leftAssociative powerOperator? (unary env self closing)

def product (env : Setting) (self : Rule) (closing : Bool) : Parse Surface :=
  leftAssociative productOperator? (power env self closing)

def sum (env : Setting) (self : Rule) (closing : Bool) : Parse Surface :=
  leftAssociative sumOperator? (product env self closing)

/-! ### Tests and comparisons -/

/-- Whether a dash is a test of its own: it stands last, or before a comma or a closing
parenthesis. -/
def isDash (first second : Option Token) : Bool :=
  first == some (.symbol .minus) &&
    (second.isNone || second == some (.symbol .comma) || second == some (.symbol .rparen))

/-- A unary test: a dash, a comparison of the value under test, or an expression. -/
def positiveTest (env : Setting) (self : Rule) (closing : Bool) : Parse Surface := do
  let start ← offset env
  let token ← peek
  if isDash token (← peekSecond) then
    consume 1
    spanned env .dash start
  else
    match token.bind comparisonOperator? with
    | some op => do
      consume 1
      let value ← sum env self closing
      spanned env (.comparison op value) start
    | none => self closing

/-- What stands behind `in`: one test, tests in parentheses, or an interval that begins with
a parenthesis. -/
def inTests (env : Setting) (self : Rule) (closing : Bool) : Parse (List Surface) := do
  if ← isNext .lparen then
    let start ← offset env
    consume 1
    let first ← positiveTest env self closing
    if ← acceptSymbol .dotDot then
      let form ← intervalEnd env self first false
      return [← spanned env form start]
    let tests ← moreItems (positiveTest env self closing) (← remaining) [first]
    expectSymbol env .rparen
    return tests
  else return [← positiveTest env self closing]

/-- Comparisons from the left, after the first operand. The number of tokens left bounds
their number. -/
def comparisons (env : Setting) (self : Rule) (closing : Bool) (start : Nat) :
    Nat → Surface → Parse Surface
  | 0, left => return left
  | n + 1, left => do
    match ← peek with
    | some (.keyword .between) => do
      consume 1
      let low ← sum env self closing
      expect env (.keyword .and)
      let high ← sum env self closing
      comparisons env self closing start n (← spanned env (.between left low high) start)
    | some (.keyword .in) => do
      consume 1
      let tests ← inTests env self closing
      comparisons env self closing start n (← spanned env (.isIn left tests) start)
    | some (.keyword .instanceWord) => do
      consume 1
      expect env (.keyword .of)
      let target ← TypeExpr.read env
      comparisons env self closing start n (← spanned env (.instanceOf left target) start)
    | token =>
      match token.bind comparisonOperator? with
      | some op => do
        consume 1
        let right ← sum env self closing
        comparisons env self closing start n (binary op left right)
      | none => return left

def comparison (env : Setting) (self : Rule) (closing : Bool) : Parse Surface := do
  let start ← offset env
  let first ← sum env self closing
  comparisons env self closing start (← remaining) first

def conjunction (env : Setting) (self : Rule) (closing : Bool) : Parse Surface :=
  leftAssociative andOperator? (comparison env self closing)

def disjunction (env : Setting) (self : Rule) (closing : Bool) : Parse Surface :=
  leftAssociative orOperator? (conjunction env self closing)

/-! ### Whole expressions -/

/-- A whole expression, in terms of the expressions inside it. -/
def expressionRule (env : Setting) (self : Rule) : Rule := fun closing => do
  if (← peek).any beginsTextual then textual env self closing
  else disjunction env self closing

/-- An expression with at most `n` levels. -/
def expressionWithin (env : Setting) : (n : Nat) → Rule
  | 0 => fun _ => do fail env (.unexpected (← peek))
  | n + 1 => expressionRule env (expressionWithin env n)

/-- The rule for expressions, with enough levels for the tokens that are left. -/
def expression (env : Setting) : Rule := fun closing => do
  expressionWithin env ((← remaining) + 1) closing

/-- Fails unless every token was read. -/
def endOfText (env : Setting) : Parse Unit := do
  match ← peek with
  | none => return ()
  | found => fail env (.unexpected found)

/-- An expression that is the whole text; comments behind it belong to it. -/
def wholeExpression (env : Setting) (trailing : List String) : Parse Surface := do
  let tree ← expression env false
  endOfText env
  return tree.withTrailing trailing

/-- One or more tests. -/
def positiveTests (env : Setting) : Parse (List Surface) := do
  let self := expressionWithin env ((← remaining) + 1)
  commaSeparated (positiveTest env self false)

/-- Negated tests that are the whole text, if the text has that form. -/
def negatedTests (env : Setting) : Parse (List Surface) := do
  consume 2
  let tests ← positiveTests env
  expectSymbol env .rparen
  endOfText env
  return tests

/-- Unary tests that are the whole text: a dash, negated tests, or tests. An attempt at
negated tests that fails leaves only the names that it made known. -/
def wholeTests (env : Setting) : Parse Surface := do
  let start ← offset env
  let before ← get
  if before.rest.map (·.token) == [.symbol .minus] then
    consume 1
    spanned env .dash start
  else
    let plain : Parse Surface := do
      let tests ← positiveTests env
      endOfText env
      spanned env (.tests false tests) start
    if (← peek) == some (.name "not") && (← peekSecond) == some (.symbol .lparen) then
      match (negatedTests env).run before with
      | .ok tests after => do
        set after
        spanned env (.tests true tests) start
      | .error _ after => do
        set { before with known := after.known }
        plain
    else plain

/-! ### Texts -/

/-- The multi-word members that every range has. -/
def rangeMembers : List String := ["start included", "end included"]

/-- Reads a text by a rule, at first with only known names merged. The rule gets the comments
behind the last token. -/
def parseWith (rule : Setting → List String → Parse Surface) (source : String)
    (known : List String) : Except ParseError Surface :=
  match Token.scan source with
  | .error e => .error (.malformed (.lexical e.fault) (Position.ofOffset source e.start))
  | .ok lexemes =>
    let (pieces, trailing) := Piece.ofLexemes lexemes []
    if pieces.isEmpty then .error .empty
    else
      let known := known.filter (·.toList.contains ' ') ++ rangeMembers
      let attempt (mergeNames : Bool) : Except ParseError Surface :=
        match (rule ⟨source, mergeNames⟩ trailing).run ⟨pieces, 0, known⟩ with
        | .ok tree _ => .ok tree
        | .error e _ => .error e
      match attempt false with
      | .ok tree => .ok tree
      | .error _ => attempt true

/-- Reads an expression; `known` are the names it can refer to. -/
def parseExpression (source : String) (known : List String) : Except ParseError Surface :=
  parseWith wholeExpression source known

/-- Reads unary tests; `known` are the names they can refer to. -/
def parseTests (source : String) (known : List String) : Except ParseError Surface :=
  parseWith (fun env _ => wholeTests env) source known

end Surface

end Feel
