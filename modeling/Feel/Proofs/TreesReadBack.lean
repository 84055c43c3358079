import Feel.Proofs.WrittenTrees

/-!
# Written trees are read back

Every expression of single words is written by any style and read back, up to its spans, unless
some angle stands where it is taken for the angle of a range type.

* `Surface.Operand`: a tree that is a part is read wherever something can follow it.
* `Surface.Prints`: a tree is read between parentheses, or alone.
* `Surface.reads_back`: every expression is read as a part, and every test of `in` as a test.
* `Surface.parseExpression_print`: every expression is read back.
-/

namespace Feel

namespace Surface

open Parse

/-! ### What may follow -/

/-- What follows does not make a range type of a type that ends in `range`. The number is that of
the brackets behind such a type. -/
def Clear (o : Option Nat) (us : List Token) : Prop :=
  ∀ k, o = some k → Token.angleBehind k us = false

/-- Nothing follows, or a closing parenthesis. -/
def Closed (us : List Token) : Prop := us = [] ∨ us.head? = some (.symbol .rparen)

section Following

variable {o : Option Nat} {us ts : List Token} {t : Token} {closing : Bool}

theorem clear_other (ht : TypeExpr.isBracket t = false) (hlt : t ≠ .symbol .lt) :
    Clear o (t :: us) := fun _ _ => Token.angleBehind_other ht hlt

theorem clear_bracket (ht : TypeExpr.isBracket t = true) :
    Clear o (t :: us) ↔ Clear (o.map (· + 1)) us := by
  cases o with
  | none => simp [Clear]
  | some k => simp [Clear, Token.angleBehind_bracket ht]

theorem hold_of_closed (h : Closed us) : Token.hold closing us = 0 := by
  rcases h with rfl | h
  · rfl
  · obtain ⟨vs, rfl⟩ := List.head?_eq_some_iff.mp h
    rfl

theorem hold_of_separated
    (h : us.head? = some (.symbol .comma) ∨ us.head? = some (.symbol .rparen)) :
    Token.hold closing us = 0 := by
  rcases h with h | h <;> obtain ⟨vs, rfl⟩ := List.head?_eq_some_iff.mp h <;> rfl

/-- Behind brackets nothing is an angle, or a closing bracket is one bracket too many. -/
theorem angleBehind_of_closed (h : Closed us) {k : Nat} (hk : 2 ≤ k) :
    Token.angleBehind k us = false := by
  rcases h with rfl | h
  · exact Token.angleBehind_nil
  · obtain ⟨vs, rfl⟩ := List.head?_eq_some_iff.mp h
    rw [Token.angleBehind_bracket rfl]
    exact Token.angleBehind_of_lt (by omega)

end Following

/-! ### Trees that are parts -/

/-- A tree that is a part begins like an operand and is read wherever something can follow it. -/
structure Operand (env : Setting) (style : Style) (s : Surface) : Prop where
  leads : Token.Leads (operand style s)
  pos : ∀ k, behind style s = some k → 1 ≤ k
  enters : ∀ n closing us m, (operand style s).length ≤ n + 1 → Clear (behind style s) us →
    Token.hold closing us < 9 → (operand style s ++ us).length ≤ m →
      Enters (signed env (expressionWithin env n) closing m)
        (suffixes env (expressionWithin env n) closing) (operand style s ++ us) us s

variable {env : Setting} {style : Style} {n : Nat} {closing : Bool} {ts us vs : List Token}
  {s t l r : Surface} {span : Span}

/-- A part of a tree that is read with `n` levels of nesting inside. -/
structure Part (env : Setting) (style : Style) (n : Nat) (s : Surface) : Prop
    extends Operand env style s where
  fits : (operand style s).length ≤ n

namespace Part

/-- A part is read by the rules of all levels. -/
theorem level_reads (h : Part env style n s) {L : Nat} (hclear : Clear (behind style s) us)
    (h1 : 1 ≤ L) (h7 : L ≤ 7) (hus : Token.hold closing us < L) :
    Reads (level env (expressionWithin env n) closing L) (operand style s ++ us) us (·.Like s) := by
  refine climb h1 h7 (Nat.le_refl 7) hus (Reads.remaining.next ?_)
  exact (h.enters n closing us _ (Nat.le_succ_of_le h.fits) hclear (by omega)
    (Nat.le_refl _)).reads (suffixes_done (by omega))

/-- A part is read by the rule for expressions. -/
theorem within_reads (h : Part env style n s) (hclear : Clear (behind style s) us)
    (hus : Token.hold closing us < 1) :
    Reads (expressionWithin env n closing) (operand style s ++ us) us (·.Like s) := by
  cases n with
  | zero => exact absurd (List.length_eq_zero_iff.mp (Nat.le_zero.mp h.fits)) h.leads.ne_nil
  | succ n =>
    have hlevel : Reads (level env (expressionWithin env n) closing 7) (operand style s ++ us) us
        (·.Like s) :=
      Reads.remaining.next ((h.enters n closing us _ h.fits hclear (by omega)
        (Nat.le_refl _)).reads (suffixes_done (by omega)))
    exact expressionRule_reads (fun t ht => Token.not_textual_of_begins (h.leads.head? ht))
      (climb (Nat.le_refl 1) (by omega) (Nat.le_refl 7) hus hlevel)

/-- A bracket follows, and behind it what is no angle behind brackets. -/
theorem clear_open (h : Part env style n s) {b : Token} (hb : TypeExpr.isBracket b = true)
    (hts : ∀ k, 2 ≤ k → Token.angleBehind k ts = false) : Clear (behind style s) (b :: ts) := by
  intro k hk
  rw [Token.angleBehind_bracket hb]
  exact hts (k + 1) (Nat.succ_le_succ (h.pos k hk))

/-- Parts with commas between them. -/
theorem items {β : Type} {f : β → Surface} {xs : List β} (h : ∀ x ∈ xs, Part env style n (f x))
    (hus : Token.hold closing us < 1)
    (hclear : ∀ x, xs.getLast? = some x → Clear (behind style (f x)) us) :
    Reads.Items (expressionWithin env n closing) (fun x => operand style (f x))
      (fun x s => s.Like (f x)) xs us where
  inner := by
    intro x hx vs hvs
    obtain ⟨vs, rfl⟩ := List.head?_eq_some_iff.mp hvs
    exact (h x hx).within_reads (clear_other rfl (by simp)) Nat.zero_lt_one
  last := fun x hx => (h x (List.mem_of_getLast? hx)).within_reads (hclear x hx) hus

end Part

/-! ### Trees between parentheses -/

/-- The brackets behind a range type at the end of a tree that is no part. -/
def closersOf (style : Style) (s : Surface) : Option Nat := (s.form.map (behind style)).closers

/-- With `n` levels of nesting left inside, a tree is read before `us`. -/
abbrev PrintReads (env : Setting) (style : Style) (n : Nat) (us : List Token) (s : Surface) :
    Prop :=
  Reads (expressionRule env (expressionWithin env n) false) (print style s ++ us) us (·.Like s)

/-- A tree that is read by the rule of a level. -/
theorem reads_of_level {L : Nat} (h1 : 1 ≤ L) (h7 : L ≤ 7) (hus : Closed us)
    (htextual : ∀ t, ts.head? = some t → beginsTextual t = false)
    (h : Reads (level env (expressionWithin env n) false L) ts us (·.Like s)) :
    Reads (expressionRule env (expressionWithin env n) false) ts us (·.Like s) := by
  have hold : Token.hold false us < 1 := by
    rw [hold_of_closed hus]
    exact Nat.zero_lt_one
  exact expressionRule_reads htextual (climb (Nat.le_refl 1) h1 h7 hold h)

/-- An operand and a turn of the loop of a level behind it. -/
theorem reads_of_turn {L : Nat} (hl : Part env style n l) (h1 : 1 ≤ L) (h6 : L ≤ 6)
    (hclear : Clear (behind style l) ts) (hts : Token.hold false ts ≤ L) (hus : Closed us)
    (hturn : ∀ start m left, ts.length ≤ m → left.Like l →
      Enters (loop env (expressionWithin env n) false L start m left)
        (loop env (expressionWithin env n) false L) ts us s) :
    Reads (expressionRule env (expressionWithin env n) false) (operand style l ++ ts) us
      (·.Like s) := by
  have hfirst : Reads (level env (expressionWithin env n) false (L + 1)) (operand style l ++ ts) ts
      (·.Like l) := hl.level_reads hclear (by omega) (by omega) (by omega)
  have hold : Token.hold false us = 0 := hold_of_closed hus
  refine reads_of_level h1 (by omega) hus
    (fun t ht => Token.not_textual_of_begins (hl.leads.head? ht)) ?_
  exact ((enters_of_succ h1 h6 hfirst).turn hturn).reads (loop_done h1 h6 (by omega))

/-- An operand and a filter, a path or a call behind it. -/
theorem reads_of_suffix (hl : Part env style n l) (hclear : Clear (behind style l) ts)
    (hts : Token.hold false ts < 9) (hus : Closed us)
    (hturn : ∀ start m left, ts.length ≤ m → left.Like l →
      Enters (suffixes env (expressionWithin env n) false start m left)
        (suffixes env (expressionWithin env n) false) ts us s) :
    Reads (expressionRule env (expressionWithin env n) false) (operand style l ++ ts) us
      (·.Like s) := by
  have hold : Token.hold false us = 0 := hold_of_closed hus
  refine reads_of_level (by omega) (Nat.le_refl 7) hus
    (fun t ht => Token.not_textual_of_begins (hl.leads.head? ht)) (Reads.remaining.next ?_)
  exact ((hl.enters n false ts _ (Nat.le_succ_of_le hl.fits) hclear hts (Nat.le_refl _)).turn
    hturn).reads (suffixes_done (by omega))

/-! ### Forms with operators, tests and suffixes -/

section Forms

theorem binary_reads {op : Operator} (hl : Part env style n l) (hr : Part env style n r)
    (hlt : op = .lt → behind style l ≠ some 1 ∧ behind style l ≠ some 2) (hus : Closed us)
    (hclear : Clear (behind style r) us) :
    PrintReads env style n us (node (.binary op l r) span []) := by
  have hold : Token.hold false us = 0 := hold_of_closed hus
  have hpos := op.level_pos
  have h6 := op.level_le
  have htokens : print style (node (.binary op l r) span []) ++ us =
      operand style l ++ op.token :: (operand style r ++ us) := by
    simp [print, Surface.form, Form.map, Form.write]
  have hangle : Clear (behind style l) (op.token :: (operand style r ++ us)) := by
    by_cases hop : op = .lt
    · intro k hk
      have hne := hlt hop
      have hk1 := hl.pos k hk
      simp only [hk, ne_eq, Option.some.injEq] at hne
      exact Token.angleBehind_of_lt (by omega)
    · exact clear_other (by cases op <;> rfl) (by cases op <;> simp_all [Operator.token])
  rw [PrintReads, htokens]
  refine reads_of_turn hl hpos h6 hangle (Nat.le_of_eq (Token.hold_operator _ _ _)) hus
    fun start m left hm hleft => ?_
  exact enters_binary hm hleft (hr.level_reads hclear (by omega) (by omega) (by omega))

/-- A sign before a part; a number has parentheses here. -/
theorem negation_reads (hs : Part env style n s) (hus : Closed us)
    (hclear : Clear (behind style s) us) :
    PrintReads env style n us (node (.negation s) span []) := by
  have hold : Token.hold false us = 0 := hold_of_closed hus
  have htokens : print style (node (.negation s) span []) ++ us =
      .symbol .minus :: (Form.signless (operand style s) ++ us) := by
    simp [print, Surface.form, Form.map, Form.write]
  rw [PrintReads, htokens]
  have hoperand (m : Nat) (hm : (Form.signless (operand style s) ++ us).length ≤ m) :
      Reads (signed env (expressionWithin env n) false m) (Form.signless (operand style s) ++ us) us
        (·.Like s) ∧
      ∀ text, (Form.signless (operand style s) ++ us).head? ≠ some (.number text) := by
    unfold Form.signless at hm ⊢
    split at hm
    · next text heq =>
      have hinner : Reads (expressionWithin env n false)
          (operand style s ++ .symbol .rparen :: us) (.symbol .rparen :: us) (·.Like s) :=
        hs.within_reads (hs.clear_open rfl fun k hk => angleBehind_of_closed hus hk)
          Nat.zero_lt_one
      rw [heq] at hinner
      exact ⟨(enters_of_primary (by simp) (parenthesized_reads hinner) m).reads
        (suffixes_done (by omega)), by simp⟩
    · next hne =>
      refine ⟨?_, fun text => ?_⟩
      · exact (hs.enters n false us m (Nat.le_succ_of_le hs.fits) hclear (by omega) hm).reads
          (suffixes_done (by omega))
      · exact hs.leads.number_head (fun text heq => hne text heq) text
  refine reads_of_level (by omega) (Nat.le_refl 7) hus (by simp [beginsTextual])
    (Reads.remaining.next ?_)
  obtain ⟨hreads, hnumber⟩ := hoperand _ (Nat.le_refl _)
  exact signed_negation hnumber hreads

theorem between_reads {low high : Surface} (hs : Part env style n s) (hlow : Part env style n low)
    (hhigh : Part env style n high) (hus : Closed us) (hclear : Clear (behind style high) us) :
    PrintReads env style n us (node (.between s low high) span []) := by
  have hold : Token.hold false us = 0 := hold_of_closed hus
  have htokens : print style (node (.between s low high) span []) ++ us =
      operand style s ++ .keyword .between ::
        (operand style low ++ .keyword .and :: (operand style high ++ us)) := by
    simp [print, Surface.form, Form.map, Form.write]
  rw [PrintReads, htokens]
  refine reads_of_turn hs (by omega : 1 ≤ 3) (by omega) (clear_other rfl (by simp)) (Nat.le_refl 3)
    hus fun start m left hm hleft => enters_between hm hleft ?_ ?_
  · exact hlow.level_reads (clear_other rfl (by simp)) (by omega) (by omega)
      (by decide : 2 < 4)
  · exact hhigh.level_reads hclear (by omega) (by omega) (by omega)

theorem instanceOf_reads {target : TypeExpr} (hs : Part env style n s) (hus : Closed us)
    (hclear : target.endsInRange = true → Token.angleBehind 0 us = false) :
    PrintReads env style n us (node (.instanceOf s target) span []) := by
  have htokens : print style (node (.instanceOf s target) span []) ++ us =
      operand style s ++ .keyword .instanceWord :: .keyword .of :: (target.tokens ++ us) := by
    simp [print, Surface.form, Form.map, Form.write]
  have hfollows : target.Follows us := by
    refine ⟨?_, hclear⟩
    rcases hus with rfl | h
    · simp
    · simp [h]
  rw [PrintReads, htokens]
  exact reads_of_turn hs (by omega : 1 ≤ 3) (by omega) (clear_other rfl (by simp)) (Nat.le_refl 3)
    hus fun start m left hm hleft => enters_instanceOf hm hleft hfollows

/-- A node that is one of the tests of `in` is read up to a comma or a closing parenthesis. -/
def Tested (env : Setting) (style : Style) (n : Nat) (s : Surface) : Prop :=
  ∀ us, us.head? = some (.symbol .comma) ∨ us.head? = some (.symbol .rparen) →
    Clear (behind style s) us →
      Reads (positiveTest env (expressionWithin env n) false) (operand style s ++ us) us (·.Like s)

theorem isIn_reads {tests : List Surface} (hs : Part env style n s) (hne : tests ≠ [])
    (htests : ∀ t ∈ tests, Tested env style n t) (hus : Closed us)
    (hclear : ∀ t, tests.getLast? = some t → Clear (behind style t) (.symbol .rparen :: us)) :
    PrintReads env style n us (node (.isIn s tests) span []) := by
  have htokens : print style (node (.isIn s tests) span []) ++ us =
      operand style s ++ .keyword .in :: .symbol .lparen ::
        (Token.commas (tests.map (operand style)) ++ .symbol .rparen :: us) := by
    simp [print, Surface.form, Form.map, Form.write]
  rw [PrintReads, htokens]
  refine reads_of_turn hs (by omega : 1 ≤ 3) (by omega) (clear_other rfl (by simp)) (Nat.le_refl 3)
    hus fun start m left hm hleft => enters_isIn hm hleft hne ?_
  refine ⟨fun t ht vs hvs => ?_, fun t ht => ?_⟩
  · obtain ⟨vs, rfl⟩ := List.head?_eq_some_iff.mp hvs
    exact htests t ht _ (.inl rfl) (clear_other rfl (by simp))
  · exact htests t (List.mem_of_getLast? ht) _ (.inr rfl) (hclear t ht)

theorem path_reads {member : String} (henv : env.mergeNames = false) (hs : Part env style n s)
    (hmember : ' ' ∉ member.toList) (hus : Closed us) :
    PrintReads env style n us (node (.path s member) span []) := by
  have hold : Token.hold false us = 0 := hold_of_closed hus
  have htokens : print style (node (.path s member) span []) ++ us =
      operand style s ++ .symbol .dot :: .name member :: us := by
    simp [print, Surface.form, Form.map, Form.write]
  rw [PrintReads, htokens]
  exact reads_of_suffix hs (clear_other rfl (by simp)) (by decide : 8 < 9) hus
    fun start m left hm hleft => enters_path henv hm hleft hmember (by omega)

theorem filter_reads (hs : Part env style n s) (ht : Part env style n t) (hus : Closed us)
    (hclear : Clear (behind style t) (.symbol .rbracket :: us)) :
    PrintReads env style n us (node (.filter s t) span []) := by
  have htokens : print style (node (.filter s t) span []) ++ us =
      operand style s ++ .symbol .lbracket :: (operand style t ++ .symbol .rbracket :: us) := by
    simp [print, Surface.form, Form.map, Form.write]
  rw [PrintReads, htokens]
  refine reads_of_suffix hs ?_ (by decide : 8 < 9) hus
    fun start m left hm hleft => enters_filter hm hleft (ht.within_reads hclear Nat.zero_lt_one)
  exact hs.clear_open rfl fun k hk => ht.leads.angleBehind (by omega)

theorem call_reads {args : Arguments Surface} (hs : Part env style n s) (hus : Closed us)
    (hangle : ∀ k, 2 ≤ k → Token.angleBehind k (ts ++ us) = false)
    (hargs : Reads (arguments env (expressionWithin env n)) (.symbol .lparen :: (ts ++ us)) us
      fun a => a.map forget = args.map forget) :
    Reads (expressionRule env (expressionWithin env n) false)
      (operand style s ++ .symbol .lparen :: (ts ++ us)) us
      (·.Like (node (.invocation s args) span [])) :=
  reads_of_suffix hs (hs.clear_open rfl hangle) (by decide : 8 < 9) hus
    fun start m left hm hleft => enters_invocation hm hleft hargs

theorem positionalCall_reads {args : List Surface} (hs : Part env style n s)
    (hargs : ∀ a ∈ args, Part env style n a) (hus : Closed us)
    (hclear : ∀ a, args.getLast? = some a → Clear (behind style a) (.symbol .rparen :: us)) :
    PrintReads env style n us (node (.invocation s (.positional args)) span []) := by
  have htokens : print style (node (.invocation s (.positional args)) span []) ++ us =
      operand style s ++ .symbol .lparen ::
        (Token.commas (args.map (operand style)) ++ [.symbol .rparen] ++ us) := by
    simp [print, Surface.form, Form.map, Form.write, Arguments.map]
  rw [PrintReads, htokens]
  cases args with
  | nil =>
    refine call_reads hs hus (fun k hk => ?_) ((Reads.expect _).next (.accepted (.pure rfl)))
    exact (Token.angleBehind_bracket rfl).trans (Token.angleBehind_of_lt (by omega))
  | cons x xs =>
    have hx := (hargs x List.mem_cons_self).leads
    have hrest := head?_afterCommas (s := .rparen) (xs.map (operand style)) us
    have heq : Token.commas ((x :: xs).map (operand style)) ++ .symbol .rparen :: us =
        operand style x ++
          (Token.afterCommas (xs.map (operand style)) ++ .symbol .rparen :: us) := by
      simp [Token.commas]
    refine call_reads hs hus ?_ ?_ <;> rw [List.append_assoc, List.singleton_append]
    · intro k hk
      rw [heq]
      exact hx.angleBehind (by omega)
    · refine positional_reads (List.cons_ne_nil x xs) ?_ ?_
        (Part.items hargs Nat.zero_lt_one hclear)
      · rw [heq]
        intro hhead
        exact absurd (hx.head? hhead) (by decide)
      · rw [heq]
        exact hx.beginsNamed hrest

theorem namedCall_reads {args : List (String × Surface)} (hs : Part env style n s) (hne : args ≠ [])
    (hargs : ∀ p ∈ args, Part env style n p.2) (hus : Closed us)
    (hclear : ∀ p, args.getLast? = some p → Clear (behind style p.2) (.symbol .rparen :: us)) :
    PrintReads env style n us (node (.invocation s (.named args)) span []) := by
  have htokens : print style (node (.invocation s (.named args)) span []) ++ us =
      operand style s ++ .symbol .lparen ::
        (Token.commas (args.map (keyed (operand style))) ++ [.symbol .rparen] ++ us) := by
    simp only [print, Surface.form, Form.map, Form.write, Arguments.map, keyed_map,
      List.append_assoc, List.cons_append]
  rw [PrintReads, htokens]
  refine call_reads hs hus ?_ ?_ <;> rw [List.append_assoc, List.singleton_append]
  · intro k hk
    cases args with
    | nil => exact absurd rfl hne
    | cons p ps => exact Token.angleBehind_other rfl (by simp)
  · exact named_reads hne (Part.items hargs Nat.zero_lt_one hclear)

/-! ### Textual forms -/

theorem conditional_part_reads {condition yes no : Surface}
    (hcondition : Part env style n condition) (hyes : Part env style n yes)
    (hno : Part env style n no) (hus : Closed us) (hclear : Clear (behind style no) us) :
    PrintReads env style n us (node (.ite condition yes no) span []) := by
  have htokens : print style (node (.ite condition yes no) span []) ++ us =
      .keyword .if :: (operand style condition ++ .keyword .then ::
        (operand style yes ++ .keyword .else :: (operand style no ++ us))) := by
    simp [print, Surface.form, Form.map, Form.write]
  have hold : Token.hold false us = 0 := hold_of_closed hus
  rw [PrintReads, htokens]
  exact conditional_reads (hcondition.within_reads (clear_other rfl (by simp)) Nat.zero_lt_one)
    (hyes.within_reads (clear_other rfl (by simp)) Nat.zero_lt_one)
    (hno.within_reads hclear (by omega))

/-- Iterators over parts, before a keyword that ends them. -/
theorem iterator_items {its : List (Iterator Surface)} {k : Keyword}
    (hnames : its.all (fun it => Token.isWord it.name) = true)
    (h : ∀ it ∈ its, ∀ part ∈ it.parts, Part env style n part)
    (hk : (Token.keyword k).strength false = 0) :
    Reads.Items (iterator env (expressionWithin env n) false) (iteratorTokens (operand style))
      (fun it a => a.map forget = it.map forget) its (.keyword k :: us) := by
  have hit {it : Iterator Surface} (hit : it ∈ its) {vs : List Token}
      (hvs : (∃ ws, vs = .symbol .comma :: ws) ∨ vs = .keyword k :: us) :
      Reads (iterator env (expressionWithin env n) false)
        (iteratorTokens (operand style) it ++ vs) vs fun a => a.map forget = it.map forget := by
    have hname := Token.not_blank_of_isWord (List.all_eq_true.mp hnames it hit)
    have hend : vs.head? ≠ some (.symbol .dotDot) ∧ Token.hold false vs < 1 ∧
        ∀ o, Clear o vs := by
      rcases hvs with ⟨ws, rfl⟩ | rfl
      · exact ⟨by simp, Nat.zero_lt_one, fun o => clear_other rfl (by simp)⟩
      · exact ⟨by simp, Nat.lt_one_iff.mpr hk, fun o => clear_other rfl (by simp)⟩
    refine iterator_reads hname hend.1 fun part hpart ws hws => ?_
    rcases hws with hdot | rfl
    · obtain ⟨ws, rfl⟩ := List.head?_eq_some_iff.mp hdot
      exact (h it hit part hpart).within_reads (clear_other rfl (by simp)) Nat.zero_lt_one
    · exact (h it hit part hpart).within_reads (hend.2.2 _) hend.2.1
  refine ⟨fun it hmem vs hvs => ?_, fun it hlast => hit (List.mem_of_getLast? hlast) (.inr rfl)⟩
  exact hit hmem (.inl (List.head?_eq_some_iff.mp hvs))

theorem forIn_reads {its : List (Iterator Surface)} {body : Surface} (hne : its ≠ [])
    (hnames : its.all (fun it => Token.isWord it.name) = true)
    (hits : ∀ it ∈ its, ∀ part ∈ it.parts, Part env style n part) (hbody : Part env style n body)
    (hus : Closed us) (hclear : Clear (behind style body) us) :
    PrintReads env style n us (node (.forIn its body) span []) := by
  have htokens : print style (node (.forIn its body) span []) ++ us =
      .keyword .for :: (Token.commas (its.map (iteratorTokens (operand style))) ++
        .keyword .return :: (operand style body ++ us)) := by
    simp only [print, Surface.form, Form.map, Form.write, iteratorTokens_map, List.append_assoc,
      List.cons_append]
  have hold : Token.hold false us = 0 := hold_of_closed hus
  rw [PrintReads, htokens]
  exact iteration_reads hne (iterator_items hnames hits rfl)
    (hbody.within_reads hclear (by omega))

theorem quantified_reads {every : Bool} {its : List (Iterator Surface)} {body : Surface}
    (hne : its ≠ []) (hnames : its.all (fun it => Token.isWord it.name) = true)
    (hits : ∀ it ∈ its, ∀ part ∈ it.parts, Part env style n part) (hbody : Part env style n body)
    (hus : Closed us) (hclear : Clear (behind style body) us) :
    PrintReads env style n us (node (.quantified every its body) span []) := by
  have htokens : print style (node (.quantified every its body) span []) ++ us =
      .keyword (if every then .every else .some) ::
        (Token.commas (its.map (iteratorTokens (operand style))) ++
          .keyword .satisfies :: (operand style body ++ us)) := by
    simp only [print, Surface.form, Form.map, Form.write, iteratorTokens_map, List.append_assoc,
      List.cons_append]
  have hold : Token.hold false us = 0 := hold_of_closed hus
  rw [PrintReads, htokens]
  exact quantification_reads hne (iterator_items hnames hits rfl)
    (hbody.within_reads hclear (by omega))

theorem function_part_reads {params : List (String × Option TypeExpr)} {body : Surface}
    (hparams : params.all (fun p => Token.isWord p.1 && p.2.all (·.isWorded)) = true)
    (hbody : Part env style n body) (hus : Closed us) (hclear : Clear (behind style body) us) :
    PrintReads env style n us (node (.function params body) span []) := by
  have htokens : print style (node (.function params body) span []) ++ us =
      .keyword .function :: .symbol .lparen :: (Token.commas (params.map paramTokens) ++
        .symbol .rparen :: (operand style body ++ us)) := by
    simp [print, Surface.form, Form.map, Form.write]
  have hold : Token.hold false us = 0 := hold_of_closed hus
  have hangle : Token.angleBehind 0 (.symbol .rparen :: (operand style body ++ us)) = false :=
    (Token.angleBehind_bracket rfl).trans (hbody.leads.angleBehind (Nat.le_refl 1))
  rw [PrintReads, htokens]
  refine function_reads ⟨fun p hp vs hvs => ?_, fun p hp => ?_⟩
    (hbody.within_reads hclear (by omega))
  · obtain ⟨vs, rfl⟩ := List.head?_eq_some_iff.mp hvs
    have hword := (Bool.and_eq_true _ _ ▸ List.all_eq_true.mp hparams p hp).1
    exact param_reads (Token.not_blank_of_isWord hword) (.inl rfl)
      fun type _ => TypeExpr.follows_symbol (.inl rfl)
  · have hword := (Bool.and_eq_true _ _ ▸
      List.all_eq_true.mp hparams p (List.mem_of_getLast? hp)).1
    exact param_reads (Token.not_blank_of_isWord hword) (.inr rfl)
      fun type _ => ⟨by simp, fun _ => hangle⟩

/-! ### Forms with brackets of their own -/

theorem list_part_reads {items : List Surface} (h : ∀ x ∈ items, Part env style n x)
    (hclear : ∀ x, items.getLast? = some x → Clear (behind style x) (.symbol .rbracket :: us)) :
    Reads (primary env (expressionWithin env n)) (print style (node (.list items) span []) ++ us) us
      (·.Like (node (.list items) span [])) := by
  have htokens : print style (node (.list items) span []) ++ us =
      .symbol .lbracket ::
        (Token.commas (items.map (operand style)) ++ .symbol .rbracket :: us) := by
    simp [print, Surface.form, Form.map, Form.write]
  rw [htokens]
  refine list_reads (fun x hx vs hhead => ?_) (Part.items h Nat.zero_lt_one hclear)
  exact absurd ((h x hx).leads.head? hhead) (by decide)

theorem context_part_reads {entries : List (String × Surface)}
    (hkeys : entries.all (fun p => Token.isWord p.1) = true)
    (h : ∀ p ∈ entries, Part env style n p.2) :
    Reads (primary env (expressionWithin env n))
      (print style (node (.context entries) span []) ++ us) us
      (·.Like (node (.context entries) span [])) := by
  have htokens : print style (node (.context entries) span []) ++ us =
      .symbol .lbrace ::
        (Token.commas (entries.map (keyed (operand style))) ++ .symbol .rbrace :: us) := by
    simp only [print, Surface.form, Form.map, Form.write, keyed_map, List.append_assoc,
      List.cons_append, List.nil_append]
  rw [htokens]
  exact context_reads (fun p hp => Token.not_blank_of_isWord (List.all_eq_true.mp hkeys p hp))
    (Part.items h Nat.zero_lt_one fun _ _ => clear_other rfl (by simp))

theorem interval_part_reads {start finish : Surface} {si ei : Bool}
    (hstart : Part env style n start) (hfinish : Part env style n finish)
    (hclear : Clear (behind style finish) (.symbol (style.closing ei) :: us)) :
    Reads (primary env (expressionWithin env n))
      (print style (node (.interval start finish si ei) span []) ++ us) us
      (·.Like (node (.interval start finish si ei) span [])) := by
  have htokens : print style (node (.interval start finish si ei) span []) ++ us =
      .symbol (style.opening si) :: (operand style start ++ .symbol .dotDot ::
        (operand style finish ++ .symbol (style.closing ei) :: us)) := by
    simp [print, Surface.form, Form.map, Form.write]
  have hclosing : Token.hold true (.symbol (style.closing ei) :: us) < 1 := by
    obtain ⟨bare, outward⟩ := style
    cases ei <;> cases outward <;> exact Nat.zero_lt_one
  rw [htokens]
  refine interval_reads (style.opensInterval_opening si) (style.closesInterval_closing ei)
    (fun hhead => ?_) (hstart.within_reads (clear_other rfl (by simp)) Nat.zero_lt_one)
    (hfinish.within_reads hclear hclosing)
  exact absurd (hstart.leads.head? hhead) (by decide)

end Forms

/-! ### All forms -/

/-- A tree that begins and ends by itself is read wherever something can follow it. -/
structure Tight (env : Setting) (style : Style) (s : Surface) : Prop where
  head : ∃ t ts, print style s = t :: ts ∧ beginsTextual t = false
  enters : ∀ n closing us m, (print style s).length ≤ n + 1 → Clear (closersOf style s) us →
    Token.hold closing us < 9 → (print style s ++ us).length ≤ m →
      Enters (signed env (expressionWithin env n) closing m)
        (suffixes env (expressionWithin env n) closing) (print style s ++ us) us s

/-- A tree is read between parentheses, or alone. -/
def Prints (env : Setting) (style : Style) (s : Surface) : Prop :=
  ∀ n us, (print style s).length ≤ n + 1 → Closed us → Clear (closersOf style s) us →
    PrintReads env style n us s

theorem tight_of_primary {t : Token} {ts : List Token} (hprint : print style s = t :: ts)
    (htextual : beginsTextual t = false) (hminus : t ≠ .symbol .minus)
    (h : ∀ n us, (print style s).length ≤ n + 1 → Clear (closersOf style s) us →
      Reads (primary env (expressionWithin env n)) (print style s ++ us) us (·.Like s)) :
    Tight env style s := by
  refine ⟨⟨t, ts, hprint, htextual⟩, fun n closing us m hn hclear _ _ => ?_⟩
  refine enters_of_primary ?_ (h n us hn hclear) m
  rw [hprint]
  simpa using hminus

theorem Tight.prints (h : Tight env style s) : Prints env style s := by
  intro n us hn hus hclear
  have hold : Token.hold false us = 0 := hold_of_closed hus
  obtain ⟨t, ts, hprint, htextual⟩ := h.head
  refine reads_of_level (by omega) (Nat.le_refl 7) hus ?_ (Reads.remaining.next ?_)
  · simpa [hprint] using htextual
  · exact (h.enters n false us _ hn hclear (by omega) (Nat.le_refl _)).reads
      (suffixes_done (by omega))

/-- The last of some parts, before a bracket. -/
theorem clear_last {β : Type} {f : β → Surface} {xs : List β} {b : Token}
    (hb : TypeExpr.isBracket b = true)
    (h : Clear ((xs.map fun x => behind style (f x)).getLast?.join.map (· + 1)) us) {x : β}
    (hx : xs.getLast? = some x) : Clear (behind style (f x)) (b :: us) := by
  rw [clear_bracket hb]
  rwa [List.getLast?_map, hx] at h

section AllForms

variable {form : Form Surface}

/-- A form whose parts are read is read itself: wherever something can follow it, or if it does
not stand as a part, between parentheses. -/
theorem tight_or_prints (henv : env.mergeNames = false) (hproper : form.isProper = true)
    (htest : form.isTest = false)
    (havoids : avoidsRangeNode style (node form span []) = true)
    (hparts : ∀ n, (print style (node form span [])).length ≤ n + 1 →
      ∀ t ∈ form.operands, Part env style n t)
    (htests : ∀ n, (print style (node form span [])).length ≤ n + 1 →
      ∀ value tests, form = .isIn value tests → ∀ t ∈ tests, Tested env style n t) :
    Tight env style (node form span []) ∨
      form.stands style = false ∧ Prints env style (node form span []) := by
  have hatom {ts : List Token} (h : form.atom? = some ts)
      (hname : ∀ w, form = .name w → ' ' ∉ w.toList) : Tight env style (node form span []) := by
    have hprint : print style (node form span []) = ts :=
      Form.write_of_atom? ((Form.atom?_map _ form).trans h)
    obtain ⟨t, vs, rfl, ht⟩ := Form.atom?_begins h
    refine ⟨⟨t, vs, hprint, Token.not_textual_of_begins ht⟩, fun n closing us m _ _ hus hm => ?_⟩
    rw [hprint, List.length_append, List.length_cons] at hm
    rw [hprint]
    exact enters_atom henv h hname hus (by omega)
  cases form with
  | tests _ _ => cases hproper
  | dash | comparison _ _ => cases htest
  | null | boolean _ | number _ | string _ | temporal _ | testInput =>
    exact .inl (hatom rfl (by simp))
  | name w =>
    refine .inl (hatom rfl fun v hv => ?_)
    rw [← Form.name.inj hv]
    exact Token.not_blank_of_isWord hproper
  | list items =>
    refine .inl (tight_of_primary rfl rfl (by simp) fun n us hn hclear => ?_)
    exact list_part_reads (hparts n hn) fun x hx => clear_last rfl hclear hx
  | context entries =>
    refine .inl (tight_of_primary rfl rfl (by simp) fun n us hn hclear => ?_)
    exact context_part_reads hproper fun p hp => hparts n hn p.2 (List.mem_map_of_mem hp)
  | interval start finish si ei =>
    have hminus : Token.symbol (style.opening si) ≠ .symbol .minus := by
      obtain ⟨bare, outward⟩ := style
      cases si <;> cases outward <;> simp [Style.opening]
    have htextual : beginsTextual (.symbol (style.opening si)) = false := rfl
    have hbracket : TypeExpr.isBracket (.symbol (style.closing ei)) = true := by
      obtain ⟨bare, outward⟩ := style
      cases ei <;> cases outward <;> rfl
    refine .inl (tight_of_primary rfl htextual hminus fun n us hn hclear => ?_)
    exact interval_part_reads (hparts n hn start (by simp [Form.operands, Form.parts]))
      (hparts n hn finish (by simp [Form.operands, Form.parts]))
      ((clear_bracket hbracket).mpr hclear)
  | binary op l r =>
    refine .inr ⟨rfl, fun n us hn hus hclear => ?_⟩
    refine binary_reads (hparts n hn l (by simp [Form.operands, Form.parts]))
      (hparts n hn r (by simp [Form.operands, Form.parts])) ?_ hus hclear
    rintro rfl
    simpa [avoidsRangeNode] using havoids
  | negation o =>
    exact .inr ⟨rfl, fun n us hn hus hclear =>
      negation_reads (hparts n hn o (by simp [Form.operands, Form.parts])) hus hclear⟩
  | between value low high =>
    exact .inr ⟨rfl, fun n us hn hus hclear =>
      between_reads (hparts n hn value (by simp [Form.operands, Form.parts]))
        (hparts n hn low (by simp [Form.operands, Form.parts]))
        (hparts n hn high (by simp [Form.operands, Form.parts])) hus hclear⟩
  | isIn value tests =>
    refine .inr ⟨rfl, fun n us hn hus hclear => ?_⟩
    exact isIn_reads (hparts n hn value (by simp [Form.operands]))
      (by simpa [Form.isProper] using hproper) (htests n hn value tests rfl) hus
      fun t ht => clear_last rfl hclear ht
  | instanceOf value target =>
    refine .inr ⟨rfl, fun n us hn hus hclear => ?_⟩
    refine instanceOf_reads (hparts n hn value (by simp [Form.operands, Form.parts])) hus
      fun hrange => hclear 0 ?_
    simp [closersOf, Surface.form, Form.map, Form.closers, hrange]
  | ite condition yes no =>
    exact .inr ⟨rfl, fun n us hn hus hclear =>
      conditional_part_reads (hparts n hn condition (by simp [Form.operands, Form.parts]))
        (hparts n hn yes (by simp [Form.operands, Form.parts]))
        (hparts n hn no (by simp [Form.operands, Form.parts])) hus hclear⟩
  | forIn its body =>
    refine .inr ⟨rfl, fun n us hn hus hclear => ?_⟩
    obtain ⟨hne, hnames⟩ := Bool.and_eq_true _ _ ▸ hproper
    exact forIn_reads (by simpa using hne) hnames
      (fun it hit part hpart => hparts n hn part
        (List.mem_append_left _ (List.mem_flatMap.mpr ⟨it, hit, hpart⟩)))
      (hparts n hn body (by simp [Form.operands, Form.parts])) hus hclear
  | quantified every its body =>
    refine .inr ⟨rfl, fun n us hn hus hclear => ?_⟩
    obtain ⟨hne, hnames⟩ := Bool.and_eq_true _ _ ▸ hproper
    exact quantified_reads (by simpa using hne) hnames
      (fun it hit part hpart => hparts n hn part
        (List.mem_append_left _ (List.mem_flatMap.mpr ⟨it, hit, hpart⟩)))
      (hparts n hn body (by simp [Form.operands, Form.parts])) hus hclear
  | filter source test =>
    exact .inr ⟨rfl, fun n us hn hus hclear =>
      filter_reads (hparts n hn source (by simp [Form.operands, Form.parts]))
        (hparts n hn test (by simp [Form.operands, Form.parts])) hus
        ((clear_bracket rfl).mpr hclear)⟩
  | function params body =>
    exact .inr ⟨rfl, fun n us hn hus hclear => function_part_reads hproper
      (hparts n hn body (by simp [Form.operands, Form.parts])) hus hclear⟩
  | invocation callee args =>
    have hcallee {n : Nat}
        (hn : (print style (node (.invocation callee args) span [])).length ≤ n + 1) :
        Part env style n callee := hparts n hn callee (by simp [Form.operands, Form.parts])
    cases args with
    | positional args =>
      exact .inr ⟨rfl, fun n us hn hus hclear => positionalCall_reads (hcallee hn)
        (fun a ha => hparts n hn a (List.mem_cons_of_mem callee ha)) hus
        fun a ha => clear_last rfl hclear ha⟩
    | named args =>
      obtain ⟨hne, -⟩ := Bool.and_eq_true _ _ ▸ hproper
      refine .inr ⟨rfl, fun n us hn hus hclear => ?_⟩
      have hlast : Clear ((args.map fun p => behind style p.2).getLast?.join.map (· + 1)) us := by
        simpa [closersOf, Surface.form, Form.map, Form.closers, Arguments.map, Arguments.parts,
          Function.comp_def] using hclear
      exact namedCall_reads (hcallee hn) (by simpa using hne)
        (fun p hp => hparts n hn p.2 (List.mem_cons_of_mem callee (List.mem_map_of_mem hp))) hus
        fun p hp => clear_last rfl hlast hp
  | path source member =>
    exact .inr ⟨rfl, fun n us hn hus hclear =>
      path_reads henv (hparts n hn source (by simp [Form.operands, Form.parts]))
        (Token.not_blank_of_isWord hproper) hus⟩

/-- A part stands by itself or is put in parentheses. -/
theorem operand_of_prints (hleads : Token.Leads (operand style (node form span [])))
    (htest : form.isTest = false)
    (htight : form.stands style = true → Tight env style (node form span []))
    (hprints : Prints env style (node form span [])) :
    Operand env style (node form span []) := by
  have hnode : (node form span []).form.isTest = false := htest
  refine ⟨hleads, fun k hk => behind_pos hnode hk, fun n closing us m hn hclear hus hm => ?_⟩
  have hoperand : operand style (node form span []) = (form.map (operand style)).writePart style :=
    operand_node
  have hbehind : behind style (node form span []) = (form.map (behind style)).closersPart style :=
    behind_node
  cases hstands : form.stands style with
  | true =>
    rw [Form.writePart, if_pos ((Form.stands_map style _ form).trans hstands)] at hoperand
    rw [Form.closersPart, if_pos ((Form.stands_map style _ form).trans hstands)] at hbehind
    rw [hoperand] at hn hm ⊢
    rw [hbehind] at hclear
    exact (htight hstands).enters n closing us m hn hclear hus hm
  | false =>
    rw [Form.writePart, if_neg (by simp [Form.stands_map, hstands])] at hoperand
    rw [Form.closersPart, if_neg (by simp [Form.stands_map, hstands])] at hbehind
    rw [hoperand, List.length_cons, List.length_append, List.length_singleton] at hn
    rw [hoperand]
    cases n with
    | zero => omega
    | succ n =>
      have hinner : Reads (expressionWithin env (n + 1) false)
          (print style (node form span []) ++ .symbol .rparen :: us) (.symbol .rparen :: us)
          (·.Like (node form span [])) := by
        refine hprints n (.symbol .rparen :: us) ?_ (.inr rfl) ?_
        · exact Nat.le_of_succ_le (Nat.le_of_succ_le_succ hn)
        · rw [hbehind] at hclear
          exact (clear_bracket rfl).mpr hclear
      have hreads : Reads (primary env (expressionWithin env (n + 1)))
          (.symbol .lparen :: (print style (node form span []) ++ .symbol .rparen :: us)) us
          (·.Like (node form span [])) := parenthesized_reads hinner
      have henters : Enters (signed env (expressionWithin env (n + 1)) closing m) _ _ us _ :=
        enters_of_primary (by simp) hreads m
      simpa [print, Surface.form] using henters

end AllForms

/-! ### Tests of `in` -/

/-- No operand begins like a comparison of the value under test. -/
theorem comparisonOperator?_begins {u : Token} (hu : u.begins = true) :
    comparisonOperator? u = none := by
  cases u with
  | symbol s => cases s <;> first | rfl | cases hu
  | _ => rfl

/-- An expression is a test. -/
theorem tested_of_part (h : Part env style n s) : Tested env style n s := by
  intro us hus hclear
  have hold : Token.hold false us = 0 := hold_of_separated hus
  have hreads : Reads (expressionWithin env n false) (operand style s ++ us) us (·.Like s) :=
    h.within_reads hclear (by omega)
  have hdash : isDash (operand style s ++ us).head? ((operand style s ++ us).drop 1).head? = false :=
    h.leads.isDash
  obtain ⟨u, ts, heq, hu⟩ := h.leads.begins
  rw [heq] at hreads hdash ⊢
  exact expressionTest_reads hdash (comparisonOperator?_begins hu) hreads

/-- A comparison of the value under test with a part. -/
theorem comparison_tested {op : Operator} (hop : op.level = 3) (h : Part env style n s) :
    Tested env style n (node (.comparison op s) span []) := by
  intro us hus hclear
  have hold : Token.hold false us = 0 := hold_of_separated hus
  rw [behind_node] at hclear
  rw [operand_node]
  exact comparison_reads hop (h.level_reads hclear (by omega) (by omega) (by omega))

theorem dash_tested : Tested env style n (node .dash span []) := by
  intro us hus _
  rw [operand_node]
  exact dash_reads hus

/-! ### All trees -/

/-- Every expression is read as a part, and by itself; and with the levels of nesting that it has,
every test of `in` is read as a test. -/
structure Understood (env : Setting) (style : Style) (s : Surface) : Prop where
  operand : s.form.isTest = false → Operand env style s
  prints : s.form.isTest = false → Prints env style s
  tested : ∀ n, (Surface.operand style s).length ≤ n → Tested env style n s

theorem reads_back (henv : env.mergeNames = false) : ∀ s : Surface,
    everywhere isExpressionNode s = true → avoidsRange style s = true → Understood env style s := by
  refine partsInduction fun form span comments ih hs havoids => ?_
  obtain ⟨hnode, hnodes⟩ := everywhere_iff.mp hs
  obtain ⟨hrange, hranges⟩ := everywhere_iff.mp havoids
  obtain ⟨rfl, hproper, hoperands⟩ := isExpressionNode_iff.mp hnode
  have hread (t : Surface) (ht : t ∈ form.parts) : Understood env style t :=
    ih t ht (hnodes t ht) (hranges t ht)
  have hfits {n : Nat} (hn : (print style (node form span [])).length ≤ n + 1) {t : Surface}
      (ht : t ∈ form.parts) : (operand style t).length ≤ n :=
    Nat.le_of_lt_succ (Nat.lt_of_lt_of_le (length_lt_print hproper ht) hn)
  have hparts (n : Nat) (hn : (print style (node form span [])).length ≤ n + 1) (t : Surface)
      (ht : t ∈ form.operands) : Part env style n t :=
    have hmem := Form.mem_parts_of_operands ht
    ⟨(hread t hmem).operand (hoperands t ht), hfits hn hmem⟩
  have htests (n : Nat) (hn : (print style (node form span [])).length ≤ n + 1)
      (value : Surface) (tests : List Surface) (hform : form = .isIn value tests) (t : Surface)
      (ht : t ∈ tests) : Tested env style n t :=
    have hmem : t ∈ form.parts := hform ▸ List.mem_cons_of_mem value ht
    (hread t hmem).tested n (hfits hn hmem)
  have hexpression (htest : form.isTest = false) :
      Operand env style (node form span []) ∧ Prints env style (node form span []) := by
    have hleads := leads_operand style (node form span []) hs htest
    rcases tight_or_prints henv hproper htest hrange hparts htests with htight | ⟨hstands, hprints⟩
    · exact ⟨operand_of_prints hleads htest (fun _ => htight) htight.prints, htight.prints⟩
    · refine ⟨operand_of_prints hleads htest (fun h => ?_) hprints, hprints⟩
      rw [hstands] at h
      cases h
  refine ⟨fun h => (hexpression h).1, fun h => (hexpression h).2, fun n hn => ?_⟩
  cases htest : form.isTest with
  | false => exact tested_of_part ⟨(hexpression htest).1, hn⟩
  | true =>
    cases form with
    | dash => exact dash_tested
    | comparison op value =>
      have hop : op.level = 3 := by simpa [Form.isProper] using hproper
      refine comparison_tested hop (hparts n (Nat.le_succ_of_le ?_) value List.mem_cons_self)
      rwa [operand_node] at hn
    | _ => cases htest

/-- **Written expressions are read back.** Every expression of single words, written in any style,
is parsed into the same tree up to its spans, unless an angle in it stands behind the type `range`
and one or two brackets. -/
theorem parseExpression_print (style : Style) {s : Surface} (hs : isExpression s = true)
    (hrange : avoidsRange style s = true) :
    (parseExpression (Token.spaced (print style s)) []).map forget = .ok s.forget := by
  obtain ⟨hnodes, htest⟩ := Bool.and_eq_true _ _ ▸ hs
  replace htest : s.form.isTest = false := by simpa using htest
  refine parseExpression_spaced (isPlain_print style hnodes) (print_ne_nil style hnodes htest)
    fun env henv => Reads.remaining.next ?_
  have hreads := (reads_back henv s hnodes hrange).prints htest (print style s).length []
    (Nat.le_succ _) (.inl rfl) fun _ _ => Token.angleBehind_nil
  rwa [PrintReads, List.append_nil] at hreads

/-- A loop over a range of numbers that filters a call by tests. -/
theorem parseExpression_print_nested :
    let leaf (form : Form Surface) : Surface := .plain form default
    let items := leaf (.list [leaf (.number "1"), leaf (.string "x")])
    let call := leaf (.invocation (leaf (.name "f"))
      (.named [("a", leaf (.name "i")), ("b", items)]))
    let interval := leaf (.interval (leaf (.number "1")) (leaf (.name "n")) false true)
    let test := leaf (.isIn (leaf (.name "item"))
      [leaf (.comparison .lt (leaf (.number "2"))), leaf .dash, interval])
    let types := leaf (.instanceOf (leaf (.filter call test)) (.context [("a", .named "range")]))
    let finish := leaf (.negation (leaf (.number "3")))
    let tree := leaf (.forIn [⟨"i", leaf (.number "-3"), some finish⟩]
      (leaf (.ite types (leaf .null) (leaf (.temporal "2024-01-31")))))
    let style : Style := ⟨true, false⟩
    let text := "for i in - 3 .. ( - ( 3 ) ) return ( if ( ( ( f ( a : i , b : [ 1 , \"x\" ] ) )" ++
      " [ ( item in ( < 2 , - , ( 1 .. n ] ) ) ] ) instance of context < a : range > )" ++
      " then null else @ \"2024-01-31\" )"
    isExpression tree = true ∧ avoidsRange style tree = true ∧
      Token.spaced (print style tree) = text ∧
        (parseExpression text []).map forget = .ok tree.forget := by
  intro leaf items call interval test types finish tree style text
  have htree : isExpression tree = true := by decide +kernel
  have hrange : avoidsRange style tree = true := by decide +kernel
  have htext : Token.spaced (print style tree) = text := by decide +kernel
  refine ⟨htree, hrange, htext, ?_⟩
  rw [← htext]
  exact parseExpression_print style htree hrange

/-- The angle of a comparison is taken for that of a range type: only a parenthesis is between it
and the name `range`. -/
theorem not_parseExpression_print_range :
    let leaf (form : Form Surface) : Surface := .plain form default
    let left := leaf (.instanceOf (leaf (.name "x")) (.named "range"))
    let tree := leaf (.binary .lt left (leaf (.name "y")))
    let text := "( x instance of range ) < y"
    isExpression tree = true ∧
      (∀ bare outward : Bool, Token.spaced (print ⟨bare, outward⟩ tree) = text) ∧
        (parseExpression text []).map forget ≠ .ok tree.forget := by
  intro leaf left tree text
  refine ⟨by decide +kernel, by decide +kernel, fun h => ?_⟩
  have herror : (parseExpression text []).isOk = false := by decide +kernel
  cases hparse : parseExpression text [] with
  | error e =>
    rw [hparse] at h
    cases h
  | ok t =>
    rw [hparse] at herror
    cases herror

end Surface

end Feel
