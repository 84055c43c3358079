import Feel.Proofs.Reading
import Feel.Proofs.TreeParts
import Feel.Proofs.WrittenTokens

/-!
# Levels of operators

Expressions are read in levels, from disjunctions, the loosest, to signs. Each level but the last
reads something of the next level and then turns in a loop, once for each operator of its own. So
it matters how tightly the token behind some text holds on to that text: a level takes an operator
that is its own or tighter, and leaves a looser one where it is.

Trees of operators and signs over numbers, booleans, null and names are written with as few
parentheses as the levels of the operators allow: an operand is put in parentheses if it is looser
than its operator, and on the right also if it is equally tight. Parsing gives the trees back.

* `Surface.level`, `Surface.loop`: the rule of a level, and the loop in it.
* `Token.hold`: how tightly the next token holds on to what stands before it.
* `Surface.Enters`: a rule has read a tree and is in its loop.
* `Surface.climb`: what a tight level has read counts for looser levels.
* `Surface.enters_binary`: an operator and its right operand.
* `Surface.parenthesized_reads`, `Surface.enters_of_primary`: what stands alone.
* `Surface.scarce`: the tokens of a tree with few parentheses, and the level of what they show.
* `Surface.parseExpression_scarce`: every tree of operators is read back.
-/

namespace Feel

/-! ## Rules and loops -/

/-! ### Operators and tokens -/

namespace Operator

/-- The level of an operator; the loosest is the first. -/
def level : Operator → Nat
  | or => 1
  | and => 2
  | eq | ne | lt | le | gt | ge => 3
  | add | sub => 4
  | mul | div => 5
  | pow => 6

def token : Operator → Token
  | add => .symbol .plus
  | sub => .symbol .minus
  | mul => .symbol .star
  | div => .symbol .slash
  | pow => .symbol .pow
  | lt => .symbol .lt
  | le => .symbol .le
  | gt => .symbol .gt
  | ge => .symbol .ge
  | eq => .symbol .eq
  | ne => .symbol .ne
  | and => .keyword .and
  | or => .keyword .or

theorem level_pos (op : Operator) : 1 ≤ op.level := by cases op <;> decide

theorem level_le (op : Operator) : op.level ≤ 6 := by cases op <;> decide

end Operator

namespace Token

/-- How tightly a token holds on to what stands before it: an operator with the strength of its
level, filters, paths and calls with more, and a name with the most, since it could be the next
word of a name. At the end of an interval a bracket does not hold. -/
def strength (closing : Bool) : Token → Nat
  | keyword .or => 1
  | keyword .and => 2
  | keyword .between | keyword .in | keyword .instanceWord => 3
  | symbol .eq | symbol .ne | symbol .lt | symbol .le | symbol .gt | symbol .ge => 3
  | symbol .plus | symbol .minus => 4
  | symbol .star | symbol .slash => 5
  | symbol .pow => 6
  | symbol .dot | symbol .lparen => 8
  | symbol .lbracket => if closing then 0 else 8
  | name _ => 9
  | _ => 0

/-- How tightly the next token holds on. -/
def hold (closing : Bool) : List Token → Nat
  | [] => 0
  | t :: _ => t.strength closing

theorem no_name_of_hold {closing : Bool} {ts : List Token} (h : hold closing ts < 9) (w : String) :
    ts.head? ≠ some (name w) := by
  intro hw
  obtain ⟨us, rfl⟩ := List.head?_eq_some_iff.mp hw
  exact absurd h (Nat.lt_irrefl 9)

theorem hold_operator (closing : Bool) (op : Operator) (ts : List Token) :
    hold closing (op.token :: ts) = op.level := by
  cases op <;> rfl

end Token

/-- The tokens of a form that stands for itself: a literal, a name, or the value under test. A
number below zero has its sign in front. -/
def Form.atom? {ε : Type} : Form ε → Option (List Token)
  | .null => some [.keyword .null]
  | .boolean b => some [.keyword (if b then .true else .false)]
  | .number text =>
    some (match text.toList with
      | '-' :: digits => [.symbol .minus, .number (String.ofList digits)]
      | _ => [.number text])
  | .string s => some [.string s]
  | .temporal s => some [.symbol .at, .string s]
  | .name n => some [.name n]
  | .testInput => some [.symbol .question]
  | _ => none

/-- Whether an operand can begin with a token. -/
def Token.begins : Token → Bool
  | number _ | string _ | name _ | keyword .true | keyword .false | keyword .null => true
  | symbol .question | symbol .at | symbol .minus => true
  | symbol .lparen | symbol .lbracket | symbol .lbrace => true
  | _ => false

theorem Token.not_textual_of_begins {t : Token} (h : t.begins = true) :
    Surface.beginsTextual t = false := by
  cases t with
  | keyword k => cases k <;> first | rfl | cases h
  | _ => rfl

theorem Form.atom?_begins {ε : Type} {form : Form ε} {ts : List Token}
    (h : form.atom? = some ts) : ∃ t us, ts = t :: us ∧ t.begins = true := by
  cases form with
  | number text =>
    simp only [Form.atom?, Option.some.injEq] at h
    split at h <;> exact ⟨_, _, h.symm, rfl⟩
  | boolean b => cases b <;> exact ⟨_, _, (Option.some.inj h).symm, rfl⟩
  | null | string _ | temporal _ | name _ | testInput => exact ⟨_, _, (Option.some.inj h).symm, rfl⟩
  | _ => simp [Form.atom?] at h

/-- A numeral has no sign. -/
theorem Form.atom?_numeral {ε : Type} {text : String} (h : Token.isNumeral text = true) :
    (Form.number text : Form ε).atom? = some [.number text] := by
  simp only [Form.atom?]
  split
  · next htext =>
    rw [Token.isNumeral, htext] at h
    cases h
  · rfl

namespace Surface

open Parse

variable {env : Setting} {self : Rule} {closing : Bool} {ts us vs : List Token}
  {s t l r : Surface}

/-! ### Trees up to spans -/

theorem withLeading_nil (s : Surface) : s.withLeading [] = s := by cases s; rfl

theorem withTrailing_nil (s : Surface) : s.withTrailing [] = s := by
  obtain ⟨form, span, comments⟩ := s
  rw [withTrailing, List.append_nil]

/-! ### Levels -/

/-- The rule of a level. -/
def level (env : Setting) (self : Rule) (closing : Bool) : Nat → Parse Surface
  | 1 => disjunction env self closing
  | 2 => conjunction env self closing
  | 3 => comparison env self closing
  | 4 => sum env self closing
  | 5 => product env self closing
  | 6 => power env self closing
  | _ => unary env self closing

/-- The operators that the chain of a level joins. -/
def operatorAt : Nat → Token → Option Operator
  | 1 => orOperator?
  | 2 => andOperator?
  | 4 => sumOperator?
  | 5 => productOperator?
  | _ => powerOperator?

/-- The loop of a level, at a byte where the text of the level starts. -/
def loop (env : Setting) (self : Rule) (closing : Bool) (L start : Nat) :
    Nat → Surface → Parse Surface :=
  if L = 3 then comparisons env self closing start
  else chain (operatorAt L) (level env self closing (L + 1))

/-- A rule comes to its loop with a tree like `t`, before the tokens `us`. The loop has turns left
for all of them. -/
def Enters (p : Parse Surface) (loop : Nat → Nat → Surface → Parse Surface) (ts us : List Token)
    (t : Surface) : Prop :=
  ∀ c : Cursor, c.Holds ts → ∃ start n left c', us.length ≤ n ∧ left.Like t ∧ c'.Holds us ∧
    p.run c = (loop start n left).run c'

namespace Enters

variable {p : Parse Surface} {loop : Nat → Nat → Surface → Parse Surface}

theorem refl {start n : Nat} (hn : us.length ≤ n) (ht : s.Like t) :
    Enters (loop start n s) loop us us t := fun c hc => ⟨start, n, s, c, hn, ht, hc, rfl⟩

/-- Some reading before the loop. -/
theorem bind {α : Type} {q : Parse α} {R : α → Prop} {f : α → Parse Surface}
    (hq : Reads q ts us R) (hf : ∀ a, R a → Enters (f a) loop us vs t) :
    Enters (q >>= f) loop ts vs t := by
  intro c hc
  obtain ⟨a, c', hrun, ha, hc'⟩ := hq c hc
  obtain ⟨start, n, left, c'', hn, ht, hc'', hrun'⟩ := hf a ha c' hc'
  exact ⟨start, n, left, c'', hn, ht, hc'', by rw [EStateM.run_bind, hrun]; exact hrun'⟩

theorem next {α : Type} {q : Parse α} {a : α} {f : α → Parse Surface}
    (hq : Reads q ts us (· = a)) (hf : Enters (f a) loop us vs t) :
    Enters (q >>= f) loop ts vs t := by
  refine bind hq fun b hb => ?_
  rw [hb]
  exact hf

/-- A turn of the loop. -/
theorem turn (h : Enters p loop ts us s)
    (hturn : ∀ start n left, us.length ≤ n → left.Like s →
      Enters (loop start n left) loop us vs t) : Enters p loop ts vs t := by
  intro c hc
  obtain ⟨start, n, left, c', hn, hs, hc', hrun⟩ := h c hc
  obtain ⟨start', n', left', c'', hn', ht, hc'', hrun'⟩ := hturn start n left hn hs c' hc'
  exact ⟨start', n', left', c'', hn', ht, hc'', hrun.trans hrun'⟩

/-- The loop ends. -/
theorem reads (h : Enters p loop ts us t)
    (hloop : ∀ start n left, Reads (loop start n left) us us (· = left)) :
    Reads p ts us (·.Like t) := by
  intro c hc
  obtain ⟨start, n, left, c', hn, ht, hc', hrun⟩ := h c hc
  obtain ⟨a, c'', hrun', rfl, hc''⟩ := hloop start n left c' hc'
  exact ⟨a, c'', hrun.trans hrun', ht, hc''⟩

end Enters

/-! ### Loops that end -/

/-- A chain ends before what is none of its operators. -/
theorem chain_done {operator? : Token → Option Operator} {operand : Parse Surface}
    (h : us.head?.bind operator? = none) (n : Nat) (left : Surface) :
    Reads (chain operator? operand n left) us us (· = left) := by
  cases n with
  | zero => exact .pure rfl
  | succ n =>
    refine Reads.peek.next ?_
    rw [h]
    exact .pure rfl

theorem comparisons_done (h : Token.hold closing us < 3) (start n : Nat) (left : Surface) :
    Reads (comparisons env self closing start n left) us us (· = left) := by
  cases n with
  | zero => exact .pure rfl
  | succ n =>
    refine Reads.peek.next ?_
    cases us with
    | nil => exact .pure rfl
    | cons t us =>
      cases t with
      | keyword k => cases k <;> first | exact .pure rfl | exact absurd h (Nat.lt_irrefl 3)
      | symbol s => cases s <;> first | exact .pure rfl | exact absurd h (Nat.lt_irrefl 3)
      | _ => exact .pure rfl

/-- The operators of a level hold as tightly as the level says. -/
theorem strength_of_operatorAt {L : Nat} {t : Token} {op : Operator} (h1 : 1 ≤ L) (h6 : L ≤ 6)
    (h3 : L ≠ 3) (h : operatorAt L t = some op) : t.strength closing = L := by
  obtain rfl | rfl | rfl | rfl | rfl : L = 1 ∨ L = 2 ∨ L = 4 ∨ L = 5 ∨ L = 6 := by omega
  all_goals
    cases t with
    | keyword k => cases k <;> first | rfl | cases h
    | symbol s => cases s <;> first | rfl | cases h
    | _ => cases h

/-- A loop ends before a token that holds less tightly than its level. -/
theorem loop_done {L : Nat} (h1 : 1 ≤ L) (h6 : L ≤ 6) (h : Token.hold closing us < L)
    (start n : Nat) (left : Surface) :
    Reads (loop env self closing L start n left) us us (· = left) := by
  unfold loop
  split
  · next h3 => exact comparisons_done (h3 ▸ h) start n left
  · next h3 =>
    refine chain_done ?_ n left
    cases us with
    | nil => rfl
    | cons t us =>
      by_contra hne
      obtain ⟨op, hop⟩ := Option.ne_none_iff_exists'.mp hne
      exact absurd (strength_of_operatorAt h1 h6 h3 hop) (Nat.ne_of_lt h)

/-! ### From level to level -/

/-- What the next level reads is the first operand of a level. -/
theorem enters_of_succ {L : Nat} (h1 : 1 ≤ L) (h6 : L ≤ 6)
    (h : Reads (level env self closing (L + 1)) ts us (·.Like t)) :
    Enters (level env self closing L) (loop env self closing L) ts us t := by
  have hloop {start n : Nat} {left : Surface} (hn : us.length ≤ n) (ht : left.Like t) :
      Enters (loop env self closing L start n left) (loop env self closing L) us us t :=
    .refl hn ht
  obtain rfl | rfl | rfl | rfl | rfl | rfl :
    L = 1 ∨ L = 2 ∨ L = 3 ∨ L = 4 ∨ L = 5 ∨ L = 6 := by omega
  case inr.inr.inl =>
    exact .bind .offset fun start _ => .bind h fun first hfirst =>
      .next .remaining (@hloop start _ _ (Nat.le_refl _) hfirst)
  all_goals
    exact .bind h fun first hfirst => .next .remaining (@hloop 0 _ _ (Nat.le_refl _) hfirst)

/-- What a level reads up to a token that holds less tightly, looser levels read too. -/
theorem climb {L M : Nat} (h1 : 1 ≤ L) (hLM : L ≤ M) (h7 : M ≤ 7)
    (hold : Token.hold closing us < L) (h : Reads (level env self closing M) ts us (·.Like t)) :
    Reads (level env self closing L) ts us (·.Like t) := by
  induction hLM with
  | refl => exact h
  | @step M hLM ih =>
    have hM : 1 ≤ M := Nat.le_trans h1 hLM
    exact ih (by omega) ((enters_of_succ hM (by omega) h).reads
      (loop_done hM (by omega) (Nat.lt_of_lt_of_le hold hLM)))

/-- An operator and its right operand are a turn of the loop. -/
theorem enters_binary {op : Operator} {start n : Nat} {left : Surface} {span : Span}
    (hn : (op.token :: (ts ++ us)).length ≤ n) (hl : left.Like l)
    (hr : Reads (level env self closing (op.level + 1)) (ts ++ us) us (·.Like r)) :
    Enters (loop env self closing op.level start n left) (loop env self closing op.level)
      (op.token :: (ts ++ us)) us (node (.binary op l r) span []) := by
  cases n with
  | zero => simp at hn
  | succ n =>
    have hus : us.length ≤ n := by
      simp only [List.length_cons, List.length_append] at hn
      omega
    have hturned {right : Surface} (h : right.Like r) :
        Enters (loop env self closing op.level start n (binary op left right))
          (loop env self closing op.level) us us (node (.binary op l r) span []) :=
      .refl hus (like_node (by simp only [Form.map]; rw [hl, h]) _ _ _)
    cases op <;>
      exact .next .peek (.next (.consume 1) (.bind hr fun right hright => hturned hright))

/-! ### Whole expressions -/

theorem expressionRule_reads (htextual : ∀ t, ts.head? = some t → beginsTextual t = false)
    (h : Reads (level env self closing 1) ts us (·.Like t)) :
    Reads (expressionRule env self closing) ts us (·.Like t) := by
  refine Reads.peek.next ?_
  rw [if_neg]
  · exact h
  · cases ts with
    | nil => simp
    | cons t ts => simp [htextual t rfl]

/-! ### Filters, paths and calls -/

/-- The loop of filters, paths and calls ends before what is none of them. -/
theorem suffixes_done (h : Token.hold closing us < 8) (start n : Nat) (left : Surface) :
    Reads (suffixes env self closing start n left) us us (· = left) := by
  cases n with
  | zero => exact .pure rfl
  | succ n =>
    refine Reads.peek.next ?_
    cases us with
    | nil => exact .pure rfl
    | cons t us =>
      cases t with
      | symbol s =>
        cases s
        case dot => exact absurd h (Nat.lt_irrefl 8)
        case lparen => exact absurd h (Nat.lt_irrefl 8)
        case lbracket =>
          cases closing with
          | true => exact .pure rfl
          | false => exact absurd h (Nat.lt_irrefl 8)
        all_goals exact .pure rfl
      | _ => exact .pure rfl

theorem enters_withSuffixes (ht : s.Like t) :
    Enters (withSuffixes env self closing s) (suffixes env self closing) us us t :=
  .next .remaining (.refl (Nat.le_refl _) ht)

/-- Something that stands alone, without a sign before it. -/
theorem enters_of_primary (hminus : ts.head? ≠ some (.symbol .minus))
    (h : Reads (primary env self) ts us (·.Like t)) (n : Nat) :
    Enters (signed env self closing n) (suffixes env self closing) ts us t := by
  have hprimary : Enters (do withSuffixes env self closing (← primary env self))
      (suffixes env self closing) ts us t :=
    .bind h fun s hs => enters_withSuffixes hs
  cases n with
  | zero => exact hprimary
  | succ n =>
    refine .next (.isNext .minus) ?_
    rw [if_neg (by simpa using hminus)]
    exact hprimary

/-- A sign and a number are a number. -/
theorem enters_negative {text : String} {span : Span} {n : Nat} (hn : 1 ≤ n) :
    Enters (signed env self closing n) (suffixes env self closing)
      (.symbol .minus :: .number text :: us) us (node (.number ("-" ++ text)) span []) := by
  cases n with
  | zero => omega
  | succ n =>
    refine .next (.isNext .minus) ?_
    rw [if_pos (by rfl)]
    refine .bind .offset fun start _ => .next .leading (.next (.consume 1) (.next .peek ?_))
    refine .next .leading (.next (.consume 1) (.bind (.spanned _ start) fun s hs => ?_))
    obtain ⟨span', rfl⟩ := hs
    rw [List.append_nil, withLeading_nil]
    exact enters_withSuffixes (like_node rfl _ _ _)

/-- A sign before what is no number. -/
theorem signed_negation {span : Span} {n : Nat} (hnumber : ∀ text, ts.head? ≠ some (.number text))
    (h : Reads (signed env self closing n) ts us (·.Like t)) :
    Reads (signed env self closing (n + 1)) (.symbol .minus :: ts) us
      (·.Like (node (.negation t) span [])) := by
  refine (Reads.isNext .minus).next ?_
  rw [if_pos (by rfl)]
  refine Reads.offset.bind fun start _ => Reads.leading.next ((Reads.consume 1).next ?_)
  refine Reads.peek.next ?_
  have hnegation : Reads (do
      let operand ← signed env self closing n
      return (← spanned env (.negation operand) start).withLeading []) ts us
      (·.Like (node (.negation t) span [])) := by
    refine h.bind fun s hs => (Reads.spanned _ start).bind fun u hu => .pure ?_
    obtain ⟨span', rfl⟩ := hu
    rw [withLeading_nil]
    exact like_node (by simp only [Form.map]; rw [hs]) _ _ _
  cases ts with
  | nil => exact hnegation
  | cons t ts =>
    cases t with
    | number text => exact absurd rfl (hnumber text)
    | _ => exact hnegation

/-! ### What stands alone -/

/-- A form that stands alone, but for parentheses and textual forms. -/
theorem primary_reads {form : Form Surface} {span : Span}
    (hhead : ∀ t, ts.head? = some t → t ≠ .symbol .lparen ∧ beginsTextual t = false)
    (h : Reads (primaryForm env self) ts us fun f => f.map forget = form.map forget) :
    Reads (primary env self) ts us (·.Like (node form span [])) := by
  have hparen : ¬(ts.head? == some (.symbol .lparen)) = true := by
    intro heq
    exact (hhead _ (eq_of_beq heq)).1 rfl
  have htextual : ¬ts.head?.any beginsTextual = true := by
    cases ts with
    | nil => simp
    | cons t ts => simp [(hhead t rfl).2]
  refine Reads.peek.next ?_
  rw [if_neg hparen, if_neg htextual]
  refine Reads.offset.bind fun start _ => Reads.leading.next (h.bind fun f hf => ?_)
  refine (Reads.spanned f start).bind fun s hs => .pure ?_
  obtain ⟨span', rfl⟩ := hs
  rw [withLeading_nil]
  exact like_node hf _ _ _

/-- Parentheses around an expression. -/
theorem parenthesized_reads (h : Reads (self false) ts (.symbol .rparen :: us) (·.Like t)) :
    Reads (primary env self) (.symbol .lparen :: ts) us (·.Like t) := by
  refine Reads.peek.next ?_
  rw [if_pos (by rfl)]
  refine Reads.offset.bind fun start _ => Reads.leading.next ((Reads.expect _).next ?_)
  refine h.bind fun s hs => .refused (by simp) ((Reads.expect _).next (.pure ?_))
  rw [withLeading_nil]
  exact hs

/-- Literals, names and the value under test. Another name must not follow a name. -/
theorem enters_atom {form : Form Surface} {span : Span} {n : Nat} (henv : env.mergeNames = false)
    (hform : form.atom? = some ts) (hname : ∀ w, form = .name w → ' ' ∉ w.toList)
    (hold : Token.hold closing us < 9) (hn : 1 ≤ n) :
    Enters (signed env self closing n) (suffixes env self closing) (ts ++ us) us
      (node form span []) := by
  have hatom {t : Token} {vs : List Token} {f : Form Surface}
      (ht : t ≠ .symbol .lparen ∧ beginsTextual t = false) (hminus : t ≠ .symbol .minus)
      (h : Reads (primaryForm env self) (t :: vs) us (· = f)) :
      Enters (signed env self closing n) (suffixes env self closing) (t :: vs) us
        (node f span []) := by
    refine enters_of_primary (by simpa using hminus) (primary_reads ?_ ?_) n
    · simpa using ht
    · exact h.imp fun a ha => congrArg (Form.map forget) ha
  cases form with
  | number text =>
    simp only [Form.atom?, Option.some.injEq] at hform
    split at hform
    · next digits htext =>
      rw [← hform, show text = "-" ++ String.ofList digits by
        rw [← String.toList_inj]; simp [htext]]
      exact enters_negative hn
    · rw [← hform]
      exact hatom (by simp [beginsTextual]) (by simp)
        (Reads.peek.next ((Reads.consume 1).next (.pure rfl)))
  | boolean b =>
    rw [← Option.some.inj hform]
    cases b <;>
      exact hatom (by simp [beginsTextual]) (by simp)
        (Reads.peek.next ((Reads.consume 1).next (.pure rfl)))
  | null | string _ | testInput =>
    rw [← Option.some.inj hform]
    exact hatom (by simp [beginsTextual]) (by simp)
      (Reads.peek.next ((Reads.consume 1).next (.pure rfl)))
  | temporal s =>
    rw [← Option.some.inj hform]
    refine hatom (by simp [beginsTextual]) (by simp) (Reads.peek.next ((Reads.expect _).next ?_))
    exact Reads.peek.next ((Reads.consume 1).next (.pure rfl))
  | name w =>
    rw [← Option.some.inj hform]
    have hus := Token.no_name_of_hold hold
    exact hatom (by simp [beginsTextual]) (by simp)
      (Reads.peek.next ((Reads.readName henv (hname w rfl) hus).next (.pure rfl)))
  | _ => simp [Form.atom?] at hform

/-! ### Whole texts -/

theorem wholeExpression_reads (h : Reads (expression env false) ts [] (·.Like s)) :
    Reads (wholeExpression env []) ts [] (·.Like s) := by
  refine h.bind fun tree htree => ?_
  have hend : Reads (endOfText env) [] [] (· = ()) := Reads.peek.next (.pure rfl)
  refine hend.next (.pure ?_)
  rw [withTrailing_nil]
  exact htree

/-- A text whose tokens are read as an expression. -/
theorem parseExpression_spaced (hplain : ts.all Token.isPlain = true) (hne : ts ≠ [])
    (h : ∀ env : Setting, env.mergeNames = false →
      Reads (expression env false) ts [] (·.Like s)) :
    (parseExpression (Token.spaced ts) []).map forget = .ok s.forget := by
  obtain ⟨lexemes, pieces, hscan, hpieces, htokens, hcomments⟩ := Token.pieces_spaced hplain
  have hempty : pieces.isEmpty = false := by
    cases pieces with
    | nil => exact absurd htokens.symm hne
    | cons p ps => rfl
  have hholds : Cursor.Holds ⟨pieces, 0, rangeMembers⟩ ts := ⟨htokens, hcomments, rfl⟩
  obtain ⟨tree, c, hrun, hlike, -⟩ :=
    wholeExpression_reads (h ⟨Token.spaced ts, false⟩ rfl) _ hholds
  have hparse : parseExpression (Token.spaced ts) [] = .ok tree := by
    simp only [parseExpression, parseWith, hscan, hpieces, hempty, Bool.false_eq_true, if_false,
      List.filter_nil, List.nil_append, hrun]
  rw [hparse]
  exact congrArg Except.ok hlike

end Surface

/-! ## Precedence and associativity -/

namespace Surface

open Parse

/-! ### Writing -/

/-- Tokens with the level of what they show: the level of an operator, seven for a sign, and eight
for what stands alone. -/
abbrev Leveled := Nat × List Token

/-- Puts tokens in parentheses where a condition holds. -/
def enclose (condition : Bool) (p : Leveled) : Leveled :=
  if condition then (8, .symbol .lparen :: (p.2 ++ [.symbol .rparen])) else p

/-- A form whose parts are written. A sign below a sign is put in parentheses only if `apart`. -/
def scarceForm (apart : Bool) : Form Leveled → Leveled
  | .binary op l r =>
    (op.level, (enclose (l.1 < op.level) l).2 ++ op.token :: (enclose (r.1 ≤ op.level) r).2)
  | .negation o => (7, .symbol .minus :: (enclose (o.1 < if apart then 8 else 7) o).2)
  | form => (8, form.atom?.getD [])

/-- The tokens of a tree of operators, with as few parentheses as possible. -/
def scarce (apart : Bool) : Surface → Leveled := fold fun _ parts => scarceForm apart parts

theorem le_enclose {L : Nat} (p : Leveled) (hL : L ≤ 8) : L ≤ (enclose (p.1 < L) p).1 := by
  unfold enclose
  split
  · exact hL
  · next h => exact Nat.le_of_not_lt (by simpa using h)

theorem lt_enclose {L : Nat} (p : Leveled) (hL : L < 8) : L < (enclose (p.1 ≤ L) p).1 := by
  unfold enclose
  split
  · exact hL
  · next h => exact Nat.lt_of_not_le (by simpa using h)

theorem enclose_plain {p : Leveled} (h : p.2.all Token.isPlain = true) (condition : Bool) :
    (enclose condition p).2.all Token.isPlain = true := by
  cases condition with
  | false => exact h
  | true => simpa [enclose, Token.isPlain] using h

/-- Whether a node is part of a tree of operators: a number without a sign, a boolean, null, a
name of one word, an operator, or a sign before anything but a number. -/
def isOperatorNode : Surface → Bool
  | node form _ comments => comments.isEmpty && match form with
    | .number text => Token.isNumeral text
    | .name w => Token.isWord w
    | .negation (node (.number _) _ _) => false
    | .null | .boolean _ | .binary _ _ _ | .negation _ => true
    | _ => false

/-! ### Reading back -/

/-- With `n` levels of nesting left, tokens of level `L` are read as a tree like `s`: operators by
the loop of their level, and the rest by the rule for signs. -/
structure ReadBack (env : Setting) (n : Nat) (s : Surface) (L : Nat) (ts : List Token) : Prop where
  pos : 1 ≤ L
  ne : ts ≠ []
  textual : ∀ t, ts.head? = some t → beginsTextual t = false
  number : 7 ≤ L → (∀ text, s.form ≠ .number text) → ∀ text, ts.head? ≠ some (.number text)
  enters : L ≤ 6 → ∀ us, Token.hold false us ≤ L →
    Enters (level env (expressionWithin env n) false L) (loop env (expressionWithin env n) false L)
      (ts ++ us) us s
  signed : 7 ≤ L → ∀ us, Token.hold false us < 7 → ∀ m, (ts ++ us).length ≤ m →
    Reads (signed env (expressionWithin env n) false m) (ts ++ us) us (·.Like s)

section Reading

variable {env : Setting} {n L M : Nat} {s l r : Surface} {ts us : List Token}

namespace ReadBack

/-- Tokens of a level are read by the rules of all looser levels. -/
theorem level_reads (h : ReadBack env n s L ts) (hM : 1 ≤ M) (hML : M ≤ L) (h7 : M ≤ 7)
    (hus : Token.hold false us < M) :
    Reads (level env (expressionWithin env n) false M) (ts ++ us) us (·.Like s) := by
  rcases Nat.lt_or_ge 6 L with hL | hL
  · have hunary : Reads (level env (expressionWithin env n) false 7) (ts ++ us) us (·.Like s) :=
      Reads.remaining.next (h.signed hL us (Nat.lt_of_lt_of_le hus h7) _ (Nat.le_refl _))
    exact climb hM h7 (Nat.le_refl _) hus hunary
  · have hlevel := (h.enters hL us (Nat.le_of_lt (Nat.lt_of_lt_of_le hus hML))).reads
      (loop_done h.pos hL (Nat.lt_of_lt_of_le hus hML))
    exact climb hM hML (by omega) hus hlevel

/-- Tokens are read as a whole expression. -/
theorem expression_reads (h : ReadBack env n s L ts) (hus : Token.hold false us < 1) :
    Reads (expressionWithin env (n + 1) false) (ts ++ us) us (·.Like s) := by
  refine expressionRule_reads (fun t ht => h.textual t ?_)
    (h.level_reads (Nat.le_refl 1) h.pos (by omega) hus)
  rwa [List.head?_append_of_ne_nil _ h.ne] at ht

/-- What stands alone is read back by the rule for signs. -/
theorem ofAlone (hne : ts ≠ []) (htextual : ∀ t, ts.head? = some t → beginsTextual t = false)
    (hnumber : (∀ text, s.form ≠ .number text) → ∀ text, ts.head? ≠ some (.number text))
    (h : ∀ us, Token.hold false us < 9 → ∀ m, 1 ≤ m →
      Enters (Surface.signed env (expressionWithin env n) false m)
        (suffixes env (expressionWithin env n) false) (ts ++ us) us s) :
    ReadBack env n s 8 ts where
  pos := by omega
  ne := hne
  textual := htextual
  number := fun _ => hnumber
  enters := by omega
  signed := by
    intro _ us hus m hm
    have hpos := List.length_pos_of_ne_nil hne
    rw [List.length_append] at hm
    exact (h us (by omega) m (by omega)).reads (suffixes_done (by omega))

/-- Parentheses around tokens that are read back. -/
theorem parenthesized (h : ReadBack env n s L ts) :
    ReadBack env (n + 1) s 8 (.symbol .lparen :: (ts ++ [.symbol .rparen])) := by
  refine ofAlone (by simp) (by simp [beginsTextual]) (by simp) fun us _ m _ => ?_
  have hinner : Reads (expressionWithin env (n + 1) false) (ts ++ .symbol .rparen :: us)
      (.symbol .rparen :: us) (·.Like s) := h.expression_reads (Nat.lt_one_iff.mpr rfl)
  have hreads : Reads (primary env (expressionWithin env (n + 1))) _ us (·.Like s) :=
    parenthesized_reads hinner
  simpa using enters_of_primary (by simp) hreads m

end ReadBack

/-- Leveled tokens are read back with any nesting that is enough for them. -/
def Readable (env : Setting) (s : Surface) (p : Leveled) : Prop :=
  ∀ n, p.2.length ≤ n + 1 → ReadBack env n s p.1 p.2

namespace Readable

variable {p q : Leveled} {span : Span}

theorem enclose (h : Readable env s p) (condition : Bool) :
    Readable env s (enclose condition p) := by
  unfold Surface.enclose
  cases condition with
  | false => exact h
  | true =>
    intro n hn
    cases n with
    | zero => simp at hn
    | succ n =>
      refine (h n ?_).parenthesized
      simp only [if_true, List.length_cons, List.length_append, List.length_nil] at hn
      omega

/-- Operators: the left operand may be of the same level, the right one must be tighter. -/
theorem binary {op : Operator} (hl : Readable env l p) (hr : Readable env r q)
    (hp : op.level ≤ p.1) (hq : op.level < q.1) :
    Readable env (node (.binary op l r) span []) (op.level, p.2 ++ op.token :: q.2) := by
  intro n hn
  simp only [List.length_append, List.length_cons] at hn
  have hleft := hl n (by omega)
  have hright := hr n (by omega)
  have h1 := op.level_pos
  have h6 := op.level_le
  refine ⟨h1, by simp, ?_, by omega, fun _ us hus => ?_, by omega⟩
  · intro t ht
    rw [List.head?_append_of_ne_nil _ hleft.ne] at ht
    exact hleft.textual t ht
  · have hopHold := Token.hold_operator false op (q.2 ++ us)
    -- the left operand leaves the loop of its own level at this operator, or is in its loop
    have hfirst : Enters (level env (expressionWithin env n) false op.level)
        (loop env (expressionWithin env n) false op.level) (p.2 ++ op.token :: (q.2 ++ us))
        (op.token :: (q.2 ++ us)) l := by
      rcases Nat.eq_or_lt_of_le hp with heq | hlt
      · have henters := hleft.enters (by omega) (op.token :: (q.2 ++ us)) (by omega)
        rwa [← heq] at henters
      · exact enters_of_succ h1 h6
          (hleft.level_reads (by omega) (by omega) (by omega) (by omega))
    rw [List.append_assoc, List.cons_append]
    refine hfirst.turn fun start m left hm hleftLike => ?_
    exact enters_binary hm hleftLike
      (hright.level_reads (by omega) (by omega) (by omega) (by omega))

/-- A sign before what is as tight as a sign and no number. -/
theorem negation (h : Readable env s p) (hp : 7 ≤ p.1) (hs : ∀ text, s.form ≠ .number text) :
    Readable env (node (.negation s) span []) (7, .symbol .minus :: p.2) := by
  intro n hn
  simp only [List.length_cons] at hn
  have hoperand := h n (by omega)
  refine ⟨by omega, by simp, by simp [beginsTextual], by simp, by omega, fun _ us hus m hm => ?_⟩
  cases m with
  | zero => simp at hm
  | succ m =>
    rw [List.cons_append] at hm ⊢
    refine signed_negation (fun text => ?_)
      (hoperand.signed hp us hus m (Nat.le_of_succ_le_succ hm))
    rw [List.head?_append_of_ne_nil _ hoperand.ne]
    exact hoperand.number hp hs text

theorem atom {form : Form Surface} (henv : env.mergeNames = false) (hform : form.atom? = some ts)
    (hname : ∀ w, form = .name w → ' ' ∉ w.toList) :
    Readable env (node form span []) (8, ts) := by
  obtain ⟨t, rest, rfl, ht⟩ := Form.atom?_begins hform
  intro n _
  refine .ofAlone (by simp) ?_ (fun hnumber text heq => ?_)
    fun us hus m hm => enters_atom henv hform hname hus hm
  · simpa using Token.not_textual_of_begins ht
  · have ht' : t = .number text := Option.some.inj heq
    cases form <;> simp_all [Form.atom?, Surface.form]

end Readable

end Reading

/-- Every tree of operators is read back. -/
theorem readable_scarce {env : Setting} (henv : env.mergeNames = false) (apart : Bool) :
    ∀ s : Surface, everywhere isOperatorNode s = true → Readable env s (scarce apart s) := by
  refine partsInduction fun form span comments ih hs => ?_
  obtain ⟨hnode, hparts⟩ := everywhere_iff.mp hs
  obtain ⟨hcomments, hform⟩ := Bool.and_eq_true _ _ ▸ hnode
  rw [List.isEmpty_iff.mp hcomments, scarce, fold_eq]
  have hatom {ts : List Token} (h : form.atom? = some ts)
      (hname : ∀ w, form = .name w → ' ' ∉ w.toList) :
      Readable env (node form span []) (8, ts) := .atom henv h hname
  cases form with
  | number _ | boolean _ | null => exact hatom rfl (by simp)
  | name w =>
    refine hatom rfl fun v hv => ?_
    rw [← Form.name.inj hv]
    exact Token.not_blank_of_isWord hform
  | binary op l r =>
    have hl := ih l (by simp [Form.parts]) (hparts l (by simp [Form.parts]))
    have hr := ih r (by simp [Form.parts]) (hparts r (by simp [Form.parts]))
    have h6 := op.level_le
    exact (hl.enclose _).binary (hr.enclose _) (le_enclose _ (by omega)) (lt_enclose _ (by omega))
  | negation o =>
    have ho := ih o (by simp [Form.parts]) (hparts o (by simp [Form.parts]))
    refine (ho.enclose _).negation ?_ ?_
    · refine Nat.le_trans ?_ (le_enclose _ ?_) <;> cases apart <;> decide
    · intro text htext
      obtain ⟨f, sp, cs⟩ := o
      rw [show f = .number text from htext] at hform
      cases hform
  | _ => cases hform

theorem isPlain_scarce (apart : Bool) : ∀ s : Surface, everywhere isOperatorNode s = true →
    (scarce apart s).2.all Token.isPlain = true := by
  refine partsInduction fun form span comments ih hs => ?_
  obtain ⟨hnode, hparts⟩ := everywhere_iff.mp hs
  obtain ⟨-, hform⟩ := Bool.and_eq_true _ _ ▸ hnode
  rw [scarce, fold_eq]
  cases form with
  | number text =>
    have hatom : (Form.number text : Form Leveled).atom? = some [.number text] :=
      Form.atom?_numeral hform
    simpa [scarceForm, Form.map, hatom, Token.isPlain] using hform
  | boolean b => cases b <;> rfl
  | null => rfl
  | name w => simpa [scarceForm, Form.map, Form.atom?, Token.isPlain] using hform
  | binary op l r =>
    have hl := ih l (by simp [Form.parts]) (hparts l (by simp [Form.parts]))
    have hr := ih r (by simp [Form.parts]) (hparts r (by simp [Form.parts]))
    have hop : op.token.isPlain = true := by cases op <;> rfl
    simp only [scarceForm, Form.map, List.all_append, List.all_cons, hop, Bool.true_and]
    rw [Bool.and_eq_true]
    exact ⟨enclose_plain hl _, enclose_plain hr _⟩
  | negation o =>
    have ho := ih o (by simp [Form.parts]) (hparts o (by simp [Form.parts]))
    exact enclose_plain ho _
  | _ => cases hform

/-- **Precedence and associativity.** Every tree of operators is written with as few parentheses
as possible, and parsing the text gives the tree back up to its spans. -/
theorem parseExpression_scarce (apart : Bool) {s : Surface}
    (hs : everywhere isOperatorNode s = true) :
    (parseExpression (Token.spaced (scarce apart s).2) []).map forget = .ok s.forget := by
  have hback {env : Setting} (henv : env.mergeNames = false) :
      ReadBack env (scarce apart s).2.length s (scarce apart s).1 (scarce apart s).2 :=
    readable_scarce henv apart s hs _ (Nat.le_succ _)
  have hne : (scarce apart s).2 ≠ [] := (@hback ⟨"", false⟩ rfl).ne
  refine parseExpression_spaced (isPlain_scarce apart s hs) hne fun env henv => ?_
  refine Reads.remaining.next ?_
  have hreads := (hback henv).expression_reads (Nat.lt_one_iff.mpr (rfl : Token.hold false [] = 0))
  rwa [List.append_nil] at hreads

/-- A sign is tighter than a power, and on the right a difference keeps its parentheses. -/
theorem parseExpression_scarce_mixed :
    let leaf (form : Form Surface) : Surface := .plain form default
    let join (op : Operator) (l r : Surface) : Surface := .plain (.binary op l r) default
    let difference := join .sub (leaf (.name "a")) (join .sub (leaf (.number "1")) (leaf .null))
    let power := join .pow (.plain (.negation (leaf (.name "x"))) default) (leaf (.number "2"))
    let tree := join .or (join .lt (join .mul difference power) (leaf (.number "3.5")))
      (leaf (.boolean true))
    let text := "( a - ( 1 - null ) ) * - x ** 2 < 3.5 or true"
    everywhere isOperatorNode tree = true ∧ Token.spaced (scarce false tree).2 = text ∧
      (parseExpression text []).map forget = .ok tree.forget := by
  intro leaf join difference power tree text
  have htree : everywhere isOperatorNode tree = true := by decide +kernel
  have htext : Token.spaced (scarce false tree).2 = text := by decide +kernel
  refine ⟨htree, htext, ?_⟩
  rw [← htext]
  exact parseExpression_scarce false htree

end Surface

end Feel
