import Feel.Proofs.ReadingForms

/-!
# Trees as they are written

A tree is written with every part in parentheses that does not stand by itself. What stands by
itself are literals, names and the value under test, and in a bare style also what has brackets
of its own. A type that ends in the name `range` reaches beyond its end, so the number of brackets
behind such a type matters where an angle follows.

* `Surface.Style`: the choices of writing.
* `Surface.print`, `Surface.operand`: the tokens of a tree, and of a tree that is a part.
* `Surface.isExpression`: the trees that are expressions of single words.
* `Surface.behind`: the brackets behind a type that ends in `range`, at the end of a tree.
* `Surface.avoidsRange`: no angle follows such a type with one or two brackets in between.
-/

namespace Feel

/-- How trees are written where there is a choice. -/
structure Surface.Style where
  /-- Lists, contexts and intervals are parts without parentheses. -/
  bare : Bool
  /-- An excluded end of an interval is a bracket that faces outward, and no parenthesis. -/
  outward : Bool

namespace Surface.Style

/-- The bracket at the start of an interval. -/
def opening (style : Style) (included : Bool) : Symbol :=
  if included then .lbracket else if style.outward then .rbracket else .lparen

/-- The bracket at the end of an interval. -/
def closing (style : Style) (included : Bool) : Symbol :=
  if included then .rbracket else if style.outward then .lbracket else .rparen

theorem opensInterval_opening (style : Style) (included : Bool) :
    opensInterval (style.opening included) = some included := by
  obtain ⟨bare, outward⟩ := style
  cases included <;> cases outward <;> rfl

theorem closesInterval_closing (style : Style) (included : Bool) :
    closesInterval (style.closing included) = some included := by
  obtain ⟨bare, outward⟩ := style
  cases included <;> cases outward <;> rfl

end Surface.Style

open Surface (Style)

namespace Form

variable {ε δ : Type}

/-! ### Writing -/

/-- Whether a form is a test of the value under test, and no expression. -/
def isTest : Form ε → Bool
  | dash | comparison _ _ => true
  | _ => false

/-- Whether a form is a part without parentheses. Outward brackets at the start of a part would
make an empty list with a bracket before them. -/
def stands (style : Style) : Form ε → Bool
  | list _ | context _ => style.bare
  | interval _ _ _ _ => style.bare && !style.outward
  | form => form.isTest || form.atom?.isSome

/-- A number alone would take a sign that stands before it. -/
def signless : List Token → List Token
  | [.number text] => [.symbol .lparen, .number text, .symbol .rparen]
  | ts => ts

/-- The tokens of a form, given the tokens of its parts. -/
def write (style : Style) : Form (List Token) → List Token
  | dash => [.symbol .minus]
  | list items => .symbol .lbracket :: (Token.commas items ++ [.symbol .rbracket])
  | context entries =>
    .symbol .lbrace :: (Token.commas (entries.map (Surface.keyed id)) ++ [.symbol .rbrace])
  | interval start finish si ei =>
    .symbol (style.opening si) ::
      (start ++ .symbol .dotDot :: (finish ++ [.symbol (style.closing ei)]))
  | binary op l r => l ++ op.token :: r
  | negation o => .symbol .minus :: signless o
  | between value low high => value ++ .keyword .between :: (low ++ .keyword .and :: high)
  | isIn value ts =>
    value ++ .keyword .in :: .symbol .lparen :: (Token.commas ts ++ [.symbol .rparen])
  | instanceOf value target => value ++ .keyword .instanceWord :: .keyword .of :: target.tokens
  | ite condition yes no =>
    .keyword .if :: (condition ++ .keyword .then :: (yes ++ .keyword .else :: no))
  | forIn its body =>
    .keyword .for ::
      (Token.commas (its.map (Surface.iteratorTokens id)) ++ .keyword .return :: body)
  | quantified every its condition =>
    .keyword (if every then .every else .some) ::
      (Token.commas (its.map (Surface.iteratorTokens id)) ++ .keyword .satisfies :: condition)
  | filter source test => source ++ .symbol .lbracket :: (test ++ [.symbol .rbracket])
  | function params body =>
    .keyword .function :: .symbol .lparen ::
      (Token.commas (params.map Surface.paramTokens) ++ .symbol .rparen :: body)
  | invocation callee (.positional args) =>
    callee ++ .symbol .lparen :: (Token.commas args ++ [.symbol .rparen])
  | invocation callee (.named args) =>
    callee ++ .symbol .lparen ::
      (Token.commas (args.map (Surface.keyed id)) ++ [.symbol .rparen])
  | path source member => source ++ [.symbol .dot, .name member]
  | comparison op value => op.token :: value
  | form => form.atom?.getD []

/-- The tokens of a form that is a part. -/
def writePart (style : Style) (form : Form (List Token)) : List Token :=
  if form.stands style then form.write style
  else .symbol .lparen :: (form.write style ++ [.symbol .rparen])

theorem atom?_map (f : ε → δ) (form : Form ε) : (form.map f).atom? = form.atom? := by
  cases form <;> rfl

theorem stands_map (style : Style) (f : ε → δ) (form : Form ε) :
    (form.map f).stands style = form.stands style := by
  cases form <;> rfl

/-! ### Brackets behind a range type -/

/-- The number of brackets behind a type that ends in `range`, if a form ends so, given the number
for each part. -/
def closers : Form (Option Nat) → Option Nat
  | instanceOf _ target => if target.endsInRange then some 0 else none
  | binary _ _ last | negation last | between _ _ last | ite _ _ last | forIn _ last => last
  | quantified _ _ last | function _ last | comparison _ last => last
  | interval _ last _ _ | filter _ last => last.map (· + 1)
  | list items | isIn _ items => items.getLast?.join.map (· + 1)
  | invocation _ args => args.parts.getLast?.join.map (· + 1)
  | _ => none

/-- The same for a form that is a part. -/
def closersPart (style : Style) (form : Form (Option Nat)) : Option Nat :=
  if form.stands style then form.closers else form.closers.map (· + 1)

/-! ### Expressions -/

/-- Whether the texts in a form are words or numbers where they have to be, and whether what has to
have members has some. -/
def isProper : Form ε → Bool
  | number text => match text.toList with
    | '-' :: digits => Token.isNumeral (String.ofList digits)
    | _ => Token.isNumeral text
  | name w | path _ w => Token.isWord w
  | context entries => entries.all fun p => Token.isWord p.1
  | isIn _ ts => !ts.isEmpty
  | instanceOf _ target => target.isWorded
  | forIn its _ | quantified _ its _ => !its.isEmpty && its.all fun it => Token.isWord it.name
  | function params _ => params.all fun p => Token.isWord p.1 && p.2.all (·.isWorded)
  | invocation _ (.named args) => !args.isEmpty && args.all fun p => Token.isWord p.1
  | comparison op _ => op.level == 3
  | tests _ _ => false
  | _ => true

/-- The parts that are expressions; the tests of `in` need not be. -/
def operands : Form ε → List ε
  | isIn value _ => [value]
  | form => form.parts

end Form

namespace Surface

/-- The tokens of a tree that is a part. -/
def operand (style : Style) : Surface → List Token := fold fun _ parts => parts.writePart style

/-- The tokens of a tree. -/
def print (style : Style) (s : Surface) : List Token := (s.form.map (operand style)).write style

/-- The number of brackets behind a type that ends in `range`, if a tree that is a part ends so. -/
def behind (style : Style) : Surface → Option Nat := fold fun _ parts => parts.closersPart style

def isExpressionNode : Surface → Bool
  | node form _ comments =>
    comments.isEmpty && form.isProper && form.operands.all fun t => !t.form.isTest

/-- Whether a tree is an expression without comments, in which all names are single words, numbers
are numerals with or without a sign, and tests, iterators and named arguments are not missing. -/
def isExpression (s : Surface) : Bool := everywhere isExpressionNode s && !s.form.isTest

/-- Whether the left operand of an angle, as it is written, does not end in a type that ends in
`range` and has one or two brackets behind it. -/
def avoidsRangeNode (style : Style) : Surface → Bool
  | node (.binary .lt l _) _ _ => behind style l != some 1 && behind style l != some 2
  | _ => true

/-- Whether no angle in a tree can be taken for that of a range type. -/
def avoidsRange (style : Style) : Surface → Bool := everywhere (avoidsRangeNode style)

section Nodes

variable {style : Style} {form : Form Surface} {span : Span} {comments : List String}

theorem keyed_map (f : Surface → List Token) (ps : List (String × Surface)) :
    (ps.map fun p => (p.1, f p.2)).map (keyed id) = ps.map (keyed f) := by
  rw [List.map_map]
  rfl

theorem iteratorTokens_map (f : Surface → List Token) (its : List (Iterator Surface)) :
    (its.map (·.map f)).map (iteratorTokens id) = its.map (iteratorTokens f) := by
  rw [List.map_map]
  refine List.map_congr_left fun it _ => ?_
  obtain ⟨name, domain, finish⟩ := it
  cases finish <;> rfl

theorem operand_node :
    operand style (node form span comments) = (form.map (operand style)).writePart style := by
  rw [operand, fold_eq]

theorem behind_node :
    behind style (node form span comments) = (form.map (behind style)).closersPart style := by
  rw [behind, fold_eq]

end Nodes

end Surface

/-! ### How operands begin -/

namespace Token

/-- Tokens that begin like an operand. A name or a number is one by itself, a sign has a number
behind it, and a bracket has anything but an angle behind it. -/
inductive Leads : List Token → Prop
  | name (w : String) : Leads [name w]
  | number (text : String) : Leads [number text]
  | negative (text : String) (us : List Token) : Leads (symbol .minus :: number text :: us)
  | bracket {t u : Token} (us : List Token) (ht : t.begins = true)
      (hbracket : TypeExpr.isBracket t = true) (hu : u ≠ symbol .lt) : Leads (t :: u :: us)
  | other {t : Token} (us : List Token) (ht : t.begins = true)
      (hbracket : TypeExpr.isBracket t = false) (hminus : t ≠ symbol .minus)
      (hword : t.word? = none) (hnumber : ∀ text, t ≠ Token.number text) : Leads (t :: us)

theorem ne_lt_of_begins {t : Token} (h : t.begins = true) : t ≠ symbol .lt := by
  rintro rfl
  cases h

/-! #### Angles behind brackets -/

section Angles

variable {k : Nat} {us : List Token} {t : Token}

theorem angleBehind_bracket (ht : TypeExpr.isBracket t = true) :
    angleBehind k (t :: us) = angleBehind (k + 1) us := by
  simp only [angleBehind, List.takeWhile_cons_of_pos ht, List.dropWhile_cons_of_pos ht,
    List.length_cons]
  congr 2
  simp only [eq_iff_iff]
  omega

theorem angleBehind_other (ht : TypeExpr.isBracket t = false) (hlt : t ≠ symbol .lt) :
    angleBehind k (t :: us) = false := by
  have ht' : ¬TypeExpr.isBracket t = true := by simp [ht]
  simp [angleBehind, List.dropWhile_cons_of_neg ht', hlt]

theorem angleBehind_of_lt (hk : 2 < k) : angleBehind k us = false := by
  simp only [angleBehind, Bool.and_eq_false_imp, decide_eq_true_eq]
  omega

theorem angleBehind_nil : angleBehind k [] = false := by simp [angleBehind]

end Angles

namespace Leads

variable {ts us : List Token} {k : Nat}

theorem begins (h : Leads ts) : ∃ t us, ts = t :: us ∧ t.begins = true := by
  cases h with
  | name w => exact ⟨_, _, rfl, rfl⟩
  | number text => exact ⟨_, _, rfl, rfl⟩
  | negative text us => exact ⟨_, _, rfl, rfl⟩
  | bracket us ht => exact ⟨_, _, rfl, ht⟩
  | other us ht => exact ⟨_, _, rfl, ht⟩

/-- A bracket before an operand has more than two brackets behind it, or no angle. -/
theorem angleBehind (h : Leads ts) (hk : 1 ≤ k) : angleBehind k (ts ++ us) = false := by
  cases h with
  | name w => exact angleBehind_other rfl (by simp)
  | number text => exact angleBehind_other rfl (by simp)
  | negative text vs => exact angleBehind_other rfl (by simp)
  | other vs ht hbracket => exact angleBehind_other hbracket (ne_lt_of_begins ht)
  | @bracket t u vs ht hbracket hu =>
    rw [List.cons_append, List.cons_append, angleBehind_bracket hbracket]
    by_cases hu' : TypeExpr.isBracket u = true
    · rw [angleBehind_bracket hu', angleBehind_of_lt (by omega)]
    · exact angleBehind_other (by simpa using hu') hu

/-- An operand is no dash. -/
theorem isDash (h : Leads ts) :
    Surface.isDash (ts ++ us).head? ((ts ++ us).drop 1).head? = false := by
  have hminus {t : Token} {vs : List Token} (ht : t ≠ symbol .minus) :
      Surface.isDash (t :: vs).head? ((t :: vs).drop 1).head? = false := by
    simp [Surface.isDash, ht]
  cases h with
  | name w => rfl
  | number text => rfl
  | negative text vs => rfl
  | bracket vs ht hbracket => exact hminus (by rintro rfl; cases hbracket)
  | other vs ht hbracket hm => exact hminus hm

/-- An operand does not begin with a word and a colon. -/
theorem beginsNamed (h : Leads ts)
    (hus : us.head? = some (symbol .comma) ∨ us.head? = some (symbol .rparen)) :
    Surface.beginsNamed (ts ++ us) = false := by
  have hword {t : Token} {vs : List Token} (ht : t.word? = none) :
      Surface.beginsNamed (t :: vs) = false := by
    simp [Surface.beginsNamed, Parse.Reads.wordsOf, ht]
  cases h with
  | name w =>
    rcases hus with h | h <;> obtain ⟨vs, rfl⟩ := List.head?_eq_some_iff.mp h <;> rfl
  | number text => exact hword rfl
  | negative text vs => exact hword rfl
  | @bracket t u vs ht hbracket hu =>
    refine hword ?_
    cases t with
    | symbol s => rfl
    | _ => cases hbracket
  | other vs ht hbracket hm hw => exact hword hw

theorem ne_nil (h : Leads ts) : ts ≠ [] := by
  obtain ⟨t, us, rfl, -⟩ := h.begins
  exact List.cons_ne_nil t us

/-- A number has nothing behind it. -/
theorem number_head (h : Leads ts) (hts : ∀ text, ts ≠ [Token.number text]) (text : String) :
    (ts ++ us).head? ≠ some (Token.number text) := by
  cases h with
  | name w => simp
  | number text => exact absurd rfl (hts text)
  | negative text vs => simp
  | bracket vs ht hbracket =>
    intro heq
    rw [Option.some.inj heq] at hbracket
    cases hbracket
  | other vs ht hbracket hminus hword hnumber => simpa using hnumber text

/-- The first token, with anything behind the operand. -/
theorem head? (h : Leads ts) {t : Token} (ht : (ts ++ us).head? = some t) : t.begins = true := by
  obtain ⟨u, vs, rfl, hu⟩ := h.begins
  rwa [← Option.some.inj ht]

end Leads

end Token

namespace Form

variable {ε : Type} {style : Style}

theorem leads_of_atom? {form : Form ε} {ts : List Token} (h : form.atom? = some ts) :
    Token.Leads ts := by
  cases form with
  | number text =>
    simp only [atom?, Option.some.injEq] at h
    split at h <;> rw [← h]
    · exact .negative _ _
    · exact .number text
  | name w => exact Option.some.inj h ▸ .name w
  | boolean b => cases b <;> exact Option.some.inj h ▸ .other _ rfl rfl (by simp) rfl (by simp)
  | null | string _ | temporal _ | testInput =>
    exact Option.some.inj h ▸ .other _ rfl rfl (by simp) rfl (by simp)
  | _ => cases h

theorem write_of_atom? {form : Form (List Token)} {ts : List Token} (h : form.atom? = some ts) :
    form.write style = ts := by
  cases form with
  | number _ | name _ | boolean _ | null | string _ | temporal _ | testInput =>
    exact congrArg (·.getD []) h
  | _ => cases h

/-- A form does not begin with an angle, unless it is a test. -/
theorem write_head {form : Form (List Token)} (htest : form.isTest = false)
    (hproper : form.isProper = true) (hleads : ∀ ts ∈ form.operands, Token.Leads ts) :
    ∃ t us, form.write style = t :: us ∧ t ≠ .symbol .lt := by
  have hfirst {ts us : List Token} (h : Token.Leads ts) :
      ∃ t vs, ts ++ us = t :: vs ∧ t ≠ .symbol .lt := by
    obtain ⟨t, vs, rfl, ht⟩ := h.begins
    exact ⟨t, vs ++ us, rfl, Token.ne_lt_of_begins ht⟩
  cases form with
  | tests negated ts => cases hproper
  | dash | comparison _ _ => cases htest
  | binary op l r => exact hfirst (hleads l (by simp [operands, parts]))
  | between value low high => exact hfirst (hleads value (by simp [operands, parts]))
  | isIn value ts => exact hfirst (hleads value (by simp [operands]))
  | instanceOf value target => exact hfirst (hleads value (by simp [operands, parts]))
  | filter source test => exact hfirst (hleads source (by simp [operands, parts]))
  | invocation callee args =>
    cases args <;> exact hfirst (hleads callee (by simp [operands, parts]))
  | path source member => exact hfirst (hleads source (by simp [operands, parts]))
  | interval start finish si ei =>
    refine ⟨_, _, rfl, ?_⟩
    obtain ⟨bare, outward⟩ := style
    cases si <;> cases outward <;> simp [Style.opening]
  | number text =>
    obtain ⟨t, us, hts, ht⟩ := (@leads_of_atom? (List Token) (.number text) _ rfl).begins
    exact ⟨t, us, hts, Token.ne_lt_of_begins ht⟩
  | boolean b => exact ⟨_, _, rfl, by simp⟩
  | _ => exact ⟨_, _, rfl, by simp⟩

/-- A form that is a part begins like an operand, unless it is a test. -/
theorem leads_writePart {form : Form (List Token)} (htest : form.isTest = false)
    (hproper : form.isProper = true) (hleads : ∀ ts ∈ form.operands, Token.Leads ts) :
    Token.Leads (form.writePart style) := by
  unfold writePart
  split
  case isFalse =>
    obtain ⟨t, us, hwrite, ht⟩ := @write_head style form htest hproper hleads
    rw [hwrite]
    exact .bracket _ rfl rfl ht
  case isTrue hstands =>
    have hatom {ts : List Token} (h : form.atom? = some ts) : Token.Leads (form.write style) :=
      write_of_atom? h ▸ leads_of_atom? h
    cases form with
    | list items =>
      cases items with
      | nil => exact .bracket _ rfl rfl (by simp)
      | cons item items =>
        obtain ⟨t, us, rfl, ht⟩ := (hleads item (by simp [operands, parts])).begins
        exact .bracket _ rfl rfl (Token.ne_lt_of_begins ht)
    | context entries => exact .other _ rfl rfl (by simp) rfl (by simp)
    | interval start finish si ei =>
      obtain ⟨bare, outward⟩ := style
      obtain ⟨t, us, rfl, ht⟩ := (hleads start (by simp [operands, parts])).begins
      cases outward with
      | true => simp [stands] at hstands
      | false => cases si <;> exact .bracket _ rfl rfl (Token.ne_lt_of_begins ht)
    | number _ | name _ | boolean _ | null | string _ | temporal _ | testInput =>
      exact hatom rfl
    | dash | comparison _ _ => cases htest
    | _ => cases hstands

/-! ### Lengths -/

theorem length_le_signless (ts : List Token) : ts.length ≤ (signless ts).length := by
  unfold signless
  split <;> simp

theorem length_iterator {it : Iterator (List Token)} {ts : List Token} (h : ts ∈ it.parts) :
    ts.length ≤ (Surface.iteratorTokens id it).length := by
  obtain ⟨name, domain, finish⟩ := it
  cases finish with
  | none =>
    simp only [Iterator.parts, Option.toList, List.mem_singleton] at h
    simp [Surface.iteratorTokens, h]
    omega
  | some finish =>
    simp only [Iterator.parts, Option.toList, List.mem_cons, List.not_mem_nil, or_false] at h
    rcases h with rfl | rfl <;> simp [Surface.iteratorTokens] <;> omega

/-- A part has fewer tokens than the form. -/
theorem length_lt_write {form : Form (List Token)} (hproper : form.isProper = true)
    {ts : List Token} (h : ts ∈ form.parts) : ts.length < (form.write style).length := by
  have hcommas {items : List (List Token)} (h : ts ∈ items) := Token.length_le_commas h
  have hkeyed {entries : List (String × List Token)} (h : ts ∈ entries.map (·.2)) :
      ts.length ≤ (Token.commas (entries.map (Surface.keyed id))).length := by
    obtain ⟨p, hp, rfl⟩ := List.mem_map.mp h
    have hle := Token.length_le_commas (List.mem_map_of_mem (f := Surface.keyed id) hp)
    simp only [Surface.keyed, List.length_cons, id_eq] at hle
    omega
  have hits {its : List (Iterator (List Token))} (h : ts ∈ its.flatMap (·.parts)) :
      ts.length ≤ (Token.commas (its.map (Surface.iteratorTokens id))).length := by
    obtain ⟨it, hit, hts⟩ := List.mem_flatMap.mp h
    exact Nat.le_trans (length_iterator hts) (Token.length_le_commas (List.mem_map_of_mem hit))
  cases form with
  | tests negated ts => cases hproper
  | list items =>
    have := @hcommas items h
    simp only [write, List.length_cons, List.length_append]
    omega
  | context entries =>
    have := @hkeyed entries h
    simp only [write, List.length_cons, List.length_append]
    omega
  | isIn value tests =>
    simp only [write, List.length_cons, List.length_append]
    rcases List.mem_cons.mp h with rfl | h
    · omega
    · have := hcommas h
      omega
  | forIn its body | quantified _ its body =>
    simp only [write, List.length_cons, List.length_append]
    rcases List.mem_append.mp h with h | h
    · have := hits h
      omega
    · rw [List.mem_singleton.mp h]
      omega
  | invocation callee args =>
    cases args with
    | positional args =>
      simp only [write, List.length_cons, List.length_append]
      rcases List.mem_cons.mp h with rfl | h
      · omega
      · have := @hcommas args h
        omega
    | named args =>
      simp only [write, List.length_cons, List.length_append]
      rcases List.mem_cons.mp h with rfl | h
      · omega
      · have := @hkeyed args h
        omega
  | negation o =>
    have := length_le_signless o
    simp only [parts, List.mem_singleton] at h
    simp only [write, List.length_cons, h]
    omega
  | number _ | name _ | boolean _ | null | string _ | temporal _ | testInput | dash => cases h
  | _ =>
    simp only [parts, List.mem_cons, List.not_mem_nil, or_false] at h
    simp only [write, List.length_cons, List.length_append]
    grind

/-! ### Plain tokens -/

theorem isPlain_atom {form : Form ε} (hproper : form.isProper = true) {ts : List Token}
    (h : form.atom? = some ts) : ts.all Token.isPlain = true := by
  cases form with
  | number text =>
    simp only [isProper] at hproper
    simp only [atom?, Option.some.injEq] at h
    split at h <;> rw [← h]
    · next htext => simpa [htext, Token.isPlain] using hproper
    · next htext =>
      have : Token.isNumeral text = true := by
        split at hproper
        · next digits heq => exact absurd heq (htext digits)
        · exact hproper
      simpa [Token.isPlain] using this
  | name w => exact Option.some.inj h ▸ by simpa [Token.isPlain, isProper] using hproper
  | boolean b => cases b <;> exact Option.some.inj h ▸ rfl
  | null | string _ | temporal _ | testInput => exact Option.some.inj h ▸ rfl
  | _ => cases h

theorem isPlain_signless {ts : List Token} (h : ts.all Token.isPlain = true) :
    (signless ts).all Token.isPlain = true := by
  unfold signless
  split
  · simpa [Token.isPlain] using h
  · exact h

theorem isPlain_keyed {entries : List (String × List Token)}
    (hwords : entries.all (fun p => Token.isWord p.1) = true)
    (h : ∀ ts ∈ entries.map (·.2), ts.all Token.isPlain = true) :
    (Token.commas (entries.map (Surface.keyed id))).all Token.isPlain = true := by
  refine Token.all_commas rfl fun item hitem => ?_
  obtain ⟨p, hp, rfl⟩ := List.mem_map.mp hitem
  have hword := List.all_eq_true.mp hwords p hp
  simp [Surface.keyed, Token.isPlain, hword, h p.2 (List.mem_map_of_mem hp)]

theorem isPlain_iterators {its : List (Iterator (List Token))}
    (hwords : its.all (fun it => Token.isWord it.name) = true)
    (h : ∀ ts ∈ its.flatMap (·.parts), ts.all Token.isPlain = true) :
    (Token.commas (its.map (Surface.iteratorTokens id))).all Token.isPlain = true := by
  refine Token.all_commas rfl fun item hitem => ?_
  obtain ⟨it, hit, rfl⟩ := List.mem_map.mp hitem
  have hword := List.all_eq_true.mp hwords it hit
  have hparts := fun ts hts => h ts (List.mem_flatMap.mpr ⟨it, hit, hts⟩)
  obtain ⟨name, domain, finish⟩ := it
  have hdomain := hparts domain List.mem_cons_self
  cases finish with
  | none => simp [Surface.iteratorTokens, Token.isPlain, hword, hdomain]
  | some finish =>
    have hfinish := hparts finish (by simp [Iterator.parts])
    simp [Surface.iteratorTokens, Token.isPlain, hword, hdomain, hfinish]

theorem isPlain_params {params : List (String × Option TypeExpr)}
    (h : params.all (fun p => Token.isWord p.1 && p.2.all (·.isWorded)) = true) :
    (Token.commas (params.map Surface.paramTokens)).all Token.isPlain = true := by
  refine Token.all_commas rfl fun item hitem => ?_
  obtain ⟨⟨name, type⟩, hp, rfl⟩ := List.mem_map.mp hitem
  obtain ⟨hword, htype⟩ := Bool.and_eq_true _ _ ▸ List.all_eq_true.mp h _ hp
  cases type with
  | none => simp [Surface.paramTokens, Token.isPlain, hword]
  | some type =>
    have htokens := TypeExpr.isPlain_tokens type htype
    simp [Surface.paramTokens, Token.isPlain, hword, htokens]

/-- The tokens of a proper form are plain, if those of its parts are. -/
theorem isPlain_write {form : Form (List Token)} (hproper : form.isProper = true)
    (h : ∀ ts ∈ form.parts, ts.all Token.isPlain = true) :
    (form.write style).all Token.isPlain = true := by
  have hatom {ts : List Token} (ha : form.atom? = some ts) :
      (form.write style).all Token.isPlain = true :=
    write_of_atom? ha ▸ isPlain_atom hproper ha
  cases form with
  | number _ | name _ | boolean _ | null | string _ | temporal _ | testInput => exact hatom rfl
  | tests negated ts => cases hproper
  | dash => rfl
  | list items =>
    have hitems : (Token.commas items).all Token.isPlain = true := Token.all_commas rfl h
    simp [write, Token.isPlain, hitems]
  | context entries => simp [write, Token.isPlain, isPlain_keyed hproper h]
  | interval start finish si ei =>
    simp [write, Token.isPlain, h start (by simp [parts]), h finish (by simp [parts])]
  | binary op l r =>
    have hop : op.token.isPlain = true := by cases op <;> rfl
    simp [write, hop, h l (by simp [parts]), h r (by simp [parts])]
  | negation o =>
    simp [write, Token.isPlain, isPlain_signless (h o (by simp [parts]))]
  | between value low high =>
    simp [write, Token.isPlain, h value (by simp [parts]), h low (by simp [parts]),
      h high (by simp [parts])]
  | isIn value ts =>
    have hts := Token.all_commas rfl fun t ht => h t (List.mem_cons_of_mem value ht)
    simp [write, Token.isPlain, h value (by simp [parts]), hts]
  | instanceOf value target =>
    have htarget := TypeExpr.isPlain_tokens target hproper
    simp [write, Token.isPlain, h value (by simp [parts]), htarget]
  | ite condition yes no =>
    simp [write, Token.isPlain, h condition (by simp [parts]), h yes (by simp [parts]),
      h no (by simp [parts])]
  | forIn its body =>
    have hits := isPlain_iterators (Bool.and_eq_true _ _ ▸ hproper).2
      fun ts hts => h ts (List.mem_append_left _ hts)
    simp [write, Token.isPlain, hits, h body (by simp [parts])]
  | quantified every its condition =>
    have hits := isPlain_iterators (Bool.and_eq_true _ _ ▸ hproper).2
      fun ts hts => h ts (List.mem_append_left _ hts)
    simp [write, Token.isPlain, hits, h condition (by simp [parts])]
  | filter source test =>
    simp [write, Token.isPlain, h source (by simp [parts]), h test (by simp [parts])]
  | function params body =>
    simp [write, Token.isPlain, isPlain_params hproper, h body (by simp [parts])]
  | invocation callee args =>
    have hcallee := h callee (by simp [parts])
    cases args with
    | positional args =>
      have hargs : (Token.commas args).all Token.isPlain = true :=
        Token.all_commas rfl fun t ht => h t (List.mem_cons_of_mem callee ht)
      simp [write, Token.isPlain, hcallee, hargs]
    | named args =>
      have hargs := isPlain_keyed (Bool.and_eq_true _ _ ▸ hproper).2
        fun ts hts => h ts (List.mem_cons_of_mem callee hts)
      simp [write, Token.isPlain, hcallee, hargs]
  | path source member =>
    have hmember : Token.isWord member = true := hproper
    simp [write, Token.isPlain, h source (by simp [parts]), hmember]
  | comparison op value =>
    have hop : op.token.isPlain = true := by cases op <;> rfl
    simp [write, hop, h value (by simp [parts])]

/-! ### Forms of other parts -/

variable {δ : Type} (f : ε → δ)

theorem isTest_map (form : Form ε) : (form.map f).isTest = form.isTest := by
  cases form <;> rfl

theorem isProper_map (form : Form ε) : (form.map f).isProper = form.isProper := by
  cases form with
  | context entries => simp [map, isProper, Function.comp_def]
  | isIn value ts => simp [map, isProper]
  | forIn its body => simp [map, isProper, Iterator.map, Function.comp_def]
  | quantified every its condition => simp [map, isProper, Iterator.map, Function.comp_def]
  | invocation callee args => cases args <;> simp [map, isProper, Arguments.map, Function.comp_def]
  | _ => rfl

theorem operands_map (form : Form ε) : (form.map f).operands = form.operands.map f := by
  have hparts := parts_map f form
  cases form with
  | isIn value ts => rfl
  | _ => exact hparts

theorem mem_parts_of_operands {form : Form ε} {x : ε} (h : x ∈ form.operands) : x ∈ form.parts := by
  cases form with
  | isIn value ts => exact List.mem_cons.mpr (.inl (List.mem_singleton.mp h))
  | _ => exact h

end Form

/-! ### Trees -/

namespace Surface

variable {style : Style} {form : Form Surface} {span : Span} {comments : List String}

/-- What an expression node says of its form and of its operands. -/
theorem isExpressionNode_iff :
    isExpressionNode (node form span comments) = true ↔
      comments = [] ∧ form.isProper = true ∧ ∀ t ∈ form.operands, t.form.isTest = false := by
  simp [isExpressionNode, and_assoc]

theorem leads_operands (h : ∀ t ∈ form.operands, Token.Leads (operand style t)) :
    ∀ ts ∈ (form.map (operand style)).operands, Token.Leads ts := by
  intro ts hts
  rw [Form.operands_map] at hts
  obtain ⟨t, ht, rfl⟩ := List.mem_map.mp hts
  exact h t ht

theorem leads_operand (style : Style) : ∀ s : Surface, everywhere isExpressionNode s = true →
    s.form.isTest = false → Token.Leads (operand style s) := by
  refine partsInduction fun form span comments ih hs htest => ?_
  obtain ⟨hnode, hparts⟩ := everywhere_iff.mp hs
  obtain ⟨-, hproper, hoperands⟩ := isExpressionNode_iff.mp hnode
  rw [operand_node]
  refine Form.leads_writePart ((Form.isTest_map _ form).trans htest)
    ((Form.isProper_map _ form).trans hproper) (leads_operands fun t ht => ?_)
  have hmem := Form.mem_parts_of_operands ht
  exact ih t hmem (hparts t hmem) (hoperands t ht)

theorem print_ne_nil (style : Style) {s : Surface} (hs : everywhere isExpressionNode s = true)
    (htest : s.form.isTest = false) : print style s ≠ [] := by
  obtain ⟨form, span, comments⟩ := s
  obtain ⟨hnode, hparts⟩ := everywhere_iff.mp hs
  obtain ⟨-, hproper, hoperands⟩ := isExpressionNode_iff.mp hnode
  have hleads : ∀ t ∈ form.operands, Token.Leads (operand style t) := fun t ht =>
    leads_operand style t (hparts t (Form.mem_parts_of_operands ht)) (hoperands t ht)
  obtain ⟨t, ts, hwrite, -⟩ := @Form.write_head style (form.map (operand style))
    ((Form.isTest_map _ form).trans htest) ((Form.isProper_map _ form).trans hproper)
    (leads_operands hleads)
  rw [print, Surface.form, hwrite]
  exact List.cons_ne_nil t ts

theorem isPlain_operand (style : Style) : ∀ s : Surface, everywhere isExpressionNode s = true →
    (operand style s).all Token.isPlain = true := by
  refine partsInduction fun form span comments ih hs => ?_
  obtain ⟨hnode, hparts⟩ := everywhere_iff.mp hs
  obtain ⟨-, hproper, -⟩ := isExpressionNode_iff.mp hnode
  have hwrite : ((form.map (operand style)).write style).all Token.isPlain = true := by
    refine Form.isPlain_write ((Form.isProper_map _ form).trans hproper) fun ts hts => ?_
    rw [Form.parts_map] at hts
    obtain ⟨t, ht, rfl⟩ := List.mem_map.mp hts
    exact ih t ht (hparts t ht)
  rw [operand_node, Form.writePart]
  split
  · exact hwrite
  · simpa [Token.isPlain] using hwrite

theorem isPlain_print (style : Style) {s : Surface} (hs : everywhere isExpressionNode s = true) :
    (print style s).all Token.isPlain = true := by
  obtain ⟨form, span, comments⟩ := s
  have hoperand := isPlain_operand style _ hs
  rw [operand_node, Form.writePart] at hoperand
  split at hoperand
  · exact hoperand
  · simpa [print, Surface.form, Token.isPlain] using hoperand

theorem length_lt_print (hproper : form.isProper = true) {t : Surface} (ht : t ∈ form.parts) :
    (operand style t).length < (print style (node form span comments)).length := by
  refine Form.length_lt_write ((Form.isProper_map _ form).trans hproper) ?_
  rw [Form.parts_map]
  exact List.mem_map_of_mem ht

/-- A range type at the end of an operand has brackets behind it. -/
theorem behind_pos {s : Surface} (hs : s.form.isTest = false) {k : Nat}
    (hk : behind style s = some k) : 1 ≤ k := by
  obtain ⟨form, span, comments⟩ := s
  rw [behind_node, Form.closersPart] at hk
  have hmap {o : Option Nat} (h : o.map (· + 1) = some k) : 1 ≤ k := by
    obtain ⟨j, -, rfl⟩ := Option.map_eq_some_iff.mp h
    omega
  split at hk
  case isTrue hstands =>
    rw [Form.stands_map] at hstands
    cases form with
    | list items => exact hmap hk
    | interval _ _ _ _ => exact hmap hk
    | dash | comparison _ _ => cases hs
    | number _ | name _ | boolean _ | null | string _ | temporal _ | testInput => cases hk
    | context _ => cases hk
    | _ => cases hstands
  case isFalse => exact hmap hk

end Surface

end Feel
