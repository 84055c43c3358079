import Feel.Proofs.OperatorLevels
import Feel.Proofs.WrittenTypes

/-!
# Forms are read from their parts

For each form of expressions: if the parts are read where they stand, the form is read from its
tokens. Comparisons and suffixes are turns of the loops of their levels, brackets and parentheses
stand alone, and textual forms take all that follows.

* `Surface.enters_between`, `Surface.enters_isIn`, `Surface.enters_instanceOf`: tests of a value.
* `Surface.enters_path`, `Surface.enters_filter`, `Surface.enters_invocation`: suffixes.
* `Surface.list_reads`, `Surface.context_reads`, `Surface.interval_reads`: brackets.
* `Surface.conditional_reads`, `Surface.iteration_reads`, `Surface.quantification_reads`,
  `Surface.function_reads`: textual forms.
-/

namespace Feel

namespace Surface

open Parse

variable {env : Setting} {self : Rule} {closing : Bool} {ts us vs : List Token}
  {s t l r : Surface} {span : Span} {n start : Nat} {left : Surface}

/-- Trees like those that were written. -/
theorem map_forget_of_forall₂ {ss ts : List Surface}
    (h : List.Forall₂ (fun t s => s.Like t) ts ss) : ss.map forget = ts.map forget := by
  induction h with
  | nil => rfl
  | cons hs _ ih => rw [List.map_cons, List.map_cons, hs, ih]

/-- A form from where the text of the level starts, and back to the loop. -/
theorem Enters.spanned {loop : Nat → Nat → Surface → Parse Surface} {form form' : Form Surface}
    (hn : us.length ≤ n) (hform : form.map forget = form'.map forget) :
    Enters (Parse.spanned env form start >>= fun s => loop start n s) loop us us
      (node form' span []) := by
  refine .bind (.spanned form start) fun s hs => ?_
  obtain ⟨span', rfl⟩ := hs
  exact .refl hn (like_node hform _ _ _)

/-! ### Tests of a value -/

theorem enters_between {value low high : Surface} {lo hi : List Token}
    (hn : (.keyword .between :: (lo ++ .keyword .and :: (hi ++ us))).length ≤ n)
    (hvalue : left.Like value)
    (hlow : Reads (level env self closing 4) (lo ++ .keyword .and :: (hi ++ us))
      (.keyword .and :: (hi ++ us)) (·.Like low))
    (hhigh : Reads (level env self closing 4) (hi ++ us) us (·.Like high)) :
    Enters (loop env self closing 3 start n left) (loop env self closing 3)
      (.keyword .between :: (lo ++ .keyword .and :: (hi ++ us))) us
      (node (.between value low high) span []) := by
  simp only [List.length_cons, List.length_append] at hn
  cases n with
  | zero => omega
  | succ n =>
    refine .next .peek (.next (.consume 1) (.bind hlow fun a ha => .next (.expect _) ?_))
    refine .bind hhigh fun b hb => .spanned (by omega) ?_
    simp only [Form.map]
    rw [hvalue, ha, hb]

theorem enters_instanceOf {value : Surface} {target : TypeExpr}
    (hn : (.keyword .instanceWord :: .keyword .of :: (target.tokens ++ us)).length ≤ n)
    (hvalue : left.Like value) (hus : target.Follows us) :
    Enters (loop env self closing 3 start n left) (loop env self closing 3)
      (.keyword .instanceWord :: .keyword .of :: (target.tokens ++ us)) us
      (node (.instanceOf value target) span []) := by
  simp only [List.length_cons, List.length_append] at hn
  cases n with
  | zero => omega
  | succ n =>
    refine .next .peek (.next (.consume 1) (.next (.expect _) ?_))
    refine .next (TypeExpr.read_tokens env hus) (.spanned (by omega) ?_)
    simp only [Form.map]
    rw [hvalue]

/-- A dash before a comma or a closing parenthesis is a test. -/
theorem dash_reads (hus : us.head? = some (.symbol .comma) ∨ us.head? = some (.symbol .rparen)) :
    Reads (positiveTest env self closing) (.symbol .minus :: us) us
      (·.Like (node .dash span [])) := by
  refine Reads.offset.bind fun start _ => Reads.peek.next (Reads.peekSecond.next ?_)
  rw [if_pos (by rcases hus with h | h <;> simp [isDash, h])]
  refine (Reads.consume 1).next ((Reads.spanned _ start).imp fun s hs => ?_)
  obtain ⟨span', rfl⟩ := hs
  exact like_node rfl _ _ _

theorem comparisonOperator?_token {op : Operator} (h : op.level = 3) :
    comparisonOperator? op.token = some op := by
  cases op <;> first | rfl | cases h

/-- A comparison of the value under test. -/
theorem comparison_reads {op : Operator} {value : Surface} (hop : op.level = 3)
    (h : Reads (level env self closing 4) (ts ++ us) us (·.Like value)) :
    Reads (positiveTest env self closing) (op.token :: (ts ++ us)) us
      (·.Like (node (.comparison op value) span [])) := by
  have hdash : ¬isDash (some op.token) (ts ++ us).head? = true := by
    cases op <;> first | (simp [isDash, Operator.token]; done) | cases hop
  refine Reads.offset.bind fun start _ => Reads.peek.next (Reads.peekSecond.next ?_)
  rw [List.head?_cons, List.drop_one, List.tail_cons, if_neg hdash, Option.bind_some,
    comparisonOperator?_token hop]
  refine (Reads.consume 1).next (h.bind fun a ha => (Reads.spanned _ start).imp fun s hs => ?_)
  obtain ⟨span', rfl⟩ := hs
  exact like_node (by simp only [Form.map]; rw [ha]) _ _ _

/-- A test that is an expression. -/
theorem expressionTest_reads {u : Token} (hdash : isDash (some u) (ts ++ us).head? = false)
    (hop : comparisonOperator? u = none)
    (h : Reads (self closing) (u :: (ts ++ us)) us (·.Like t)) :
    Reads (positiveTest env self closing) (u :: (ts ++ us)) us (·.Like t) := by
  refine Reads.offset.bind fun start _ => Reads.peek.next (Reads.peekSecond.next ?_)
  rw [List.head?_cons, if_neg (by simpa using hdash), Option.bind_some, hop]
  exact h

/-- What stands behind the first item begins with a comma, or with what closes the items. -/
theorem head?_afterCommas {s : Symbol} (items : List (List Token)) (us : List Token) :
    (Token.afterCommas items ++ .symbol s :: us).head? = some (.symbol .comma) ∨
      (Token.afterCommas items ++ .symbol s :: us).head? = some (.symbol s) := by
  cases items with
  | nil => exact .inr rfl
  | cons item items => exact .inl rfl

theorem inTests_reads {tests : List Surface} {toks : Surface → List Token} (hne : tests ≠ [])
    (htests : Reads.Items (positiveTest env self closing) toks (fun t s => s.Like t) tests
      (.symbol .rparen :: us)) :
    Reads (inTests env self closing)
      (.symbol .lparen :: (Token.commas (tests.map toks) ++ .symbol .rparen :: us)) us
      (List.Forall₂ (fun t s => s.Like t) tests) := by
  cases tests with
  | nil => exact absurd rfl hne
  | cons x xs =>
    refine (Reads.isNext .lparen).next ?_
    rw [if_pos (by rfl), List.map_cons, Token.commas, List.append_assoc]
    refine Reads.offset.bind fun start _ => (Reads.consume 1).next ?_
    refine htests.head.bind fun first hfirst => .refused ?_ (Reads.remaining.next ?_)
    · rcases head?_afterCommas (s := .rparen) (xs.map toks) us with h | h <;> rw [h] <;> simp
    · exact (Reads.itemsAfter (by simp) htests hfirst).bind fun as has =>
        (Reads.expect _).next (.pure has)

theorem enters_isIn {value : Surface} {tests : List Surface} {toks : Surface → List Token}
    (hn : (.keyword .in :: .symbol .lparen :: (Token.commas (tests.map toks) ++
      .symbol .rparen :: us)).length ≤ n)
    (hvalue : left.Like value) (hne : tests ≠ [])
    (htests : Reads.Items (positiveTest env self closing) toks (fun t s => s.Like t) tests
      (.symbol .rparen :: us)) :
    Enters (loop env self closing 3 start n left) (loop env self closing 3)
      (.keyword .in :: .symbol .lparen :: (Token.commas (tests.map toks) ++ .symbol .rparen :: us))
      us (node (.isIn value tests) span []) := by
  simp only [List.length_cons, List.length_append] at hn
  cases n with
  | zero => omega
  | succ n =>
    refine .next .peek (.next (.consume 1) (.bind (inTests_reads hne htests) fun as has => ?_))
    refine .spanned (by omega) ?_
    simp only [Form.map]
    rw [hvalue, map_forget_of_forall₂ has]

/-! ### Filters, paths and calls -/

theorem enters_path {source : Surface} {member : String} (henv : env.mergeNames = false)
    (hn : (.symbol .dot :: .name member :: us).length ≤ n) (hsource : left.Like source)
    (hmember : ' ' ∉ member.toList) (hus : Token.hold closing us < 9) :
    Enters (suffixes env self closing start n left) (suffixes env self closing)
      (.symbol .dot :: .name member :: us) us (node (.path source member) span []) := by
  simp only [List.length_cons] at hn
  cases n with
  | zero => omega
  | succ n =>
    have hname : ∀ v, us.head? ≠ some (.name v) := Token.no_name_of_hold hus
    refine .next .peek (.next (.consume 1) (.next (.readName henv hmember hname) ?_))
    refine .spanned (by omega) ?_
    simp only [Form.map]
    rw [hsource]

theorem enters_filter {source test : Surface}
    (hn : (.symbol .lbracket :: (ts ++ .symbol .rbracket :: us)).length ≤ n)
    (hsource : left.Like source)
    (htest : Reads (self false) (ts ++ .symbol .rbracket :: us) (.symbol .rbracket :: us)
      (·.Like test)) :
    Enters (suffixes env self false start n left) (suffixes env self false)
      (.symbol .lbracket :: (ts ++ .symbol .rbracket :: us)) us
      (node (.filter source test) span []) := by
  simp only [List.length_cons, List.length_append] at hn
  cases n with
  | zero => omega
  | succ n =>
    refine .next .peek (.next (.consume 1) (.bind htest fun a ha => .next (.expect _) ?_))
    refine .spanned (by omega) ?_
    simp only [Form.map]
    rw [hsource, ha]

theorem enters_invocation {callee : Surface} {args : Arguments Surface}
    (hn : (ts ++ us).length < n) (hcallee : left.Like callee)
    (hargs : Reads (arguments env self) (.symbol .lparen :: (ts ++ us)) us
      fun a => a.map forget = args.map forget) :
    Enters (suffixes env self closing start n left) (suffixes env self closing)
      (.symbol .lparen :: (ts ++ us)) us (node (.invocation callee args) span []) := by
  simp only [List.length_append] at hn
  cases n with
  | zero => omega
  | succ n =>
    refine .next .peek (.bind hargs fun a ha => .spanned (by omega) ?_)
    simp only [Form.map]
    rw [hcallee, ha]

/-- Whether the tokens begin with words and a colon. -/
def beginsNamed (ts : List Token) : Bool :=
  decide (0 < (Reads.wordsOf ts).length) &&
    (ts.drop (Reads.wordsOf ts).length).head? == some (.symbol .colon)

theorem namedAhead_eq {c : Cursor} (hc : c.Holds ts) : namedAhead c.rest = beginsNamed ts := by
  rw [namedAhead, beginsNamed, Reads.words_eq, hc.tokens, ← hc.tokens, ← List.map_drop,
    List.head?_map]

/-- Arguments without names. -/
theorem positional_reads {args : List Surface} {toks : Surface → List Token} (hne : args ≠ [])
    (hhead : (Token.commas (args.map toks) ++ .symbol .rparen :: us).head? ≠
      some (.symbol .rparen))
    (hnamed : beginsNamed (Token.commas (args.map toks) ++ .symbol .rparen :: us) = false)
    (h : Reads.Items (self false) toks (fun t s => s.Like t) args (.symbol .rparen :: us)) :
    Reads (arguments env self)
      (.symbol .lparen :: (Token.commas (args.map toks) ++ .symbol .rparen :: us)) us
      fun a => a.map forget = Arguments.map forget (.positional args) := by
  refine (Reads.expect _).next (.refused hhead (.get fun c hc => ?_))
  rw [namedAhead_eq hc, if_neg (by simpa using hnamed)]
  have hargs := Reads.commaSeparated hne (by simp) h
  refine (hargs.map (f := Arguments.positional) (S := fun a => a.map forget =
    Arguments.map forget (.positional args)) fun as has => ?_).bind fun a ha =>
      (Reads.expect _).next (.pure ha)
  exact congrArg Arguments.positional (map_forget_of_forall₂ has)

/-- Names with something like what stands behind them. -/
theorem map_snd_of_forall₂ {ps qs : List (String × Surface)}
    (h : List.Forall₂ (fun q p => p.1 = q.1 ∧ p.2.Like q.2) qs ps) :
    ps.map (fun p => (p.1, p.2.forget)) = qs.map fun p => (p.1, p.2.forget) := by
  induction h with
  | nil => rfl
  | cons hp _ ih => rw [List.map_cons, List.map_cons, ih, hp.1, hp.2]

/-- A name and a colon in front of something. -/
def keyed {ε : Type} (toks : ε → List Token) (p : String × ε) : List Token :=
  .name p.1 :: .symbol .colon :: toks p.2

/-- What is read behind a name and a colon. -/
def KeyedLike (q p : String × Surface) : Prop := p.1 = q.1 ∧ p.2.Like q.2

/-- Arguments with names. -/
theorem named_reads {args : List (String × Surface)} {toks : Surface → List Token}
    (hne : args ≠ [])
    (h : Reads.Items (self false) (fun p => toks p.2) (fun p s => s.Like p.2) args
      (.symbol .rparen :: us)) :
    Reads (arguments env self)
      (.symbol .lparen :: (Token.commas (args.map (keyed toks)) ++ .symbol .rparen :: us)) us
      fun a => a.map forget = Arguments.map forget (.named args) := by
  have hitems : Reads.Items (namedArgument env self) (keyed toks) KeyedLike args
      (.symbol .rparen :: us) := by
    refine h.around fun p hp vs hvs => ?_
    refine (Reads.wholeBinder (by simp [Token.word?])).next ((Reads.expect _).next ?_)
    exact hvs.bind fun s hs => .pure ⟨rfl, hs⟩
  have hargs := Reads.commaSeparated hne (by simp) hitems
  have hhead : ∃ name vs, Token.commas (args.map (keyed toks)) ++ .symbol .rparen :: us =
      .name name :: .symbol .colon :: vs := by
    cases args with
    | nil => exact absurd rfl hne
    | cons p ps => exact ⟨p.1, _, rfl⟩
  obtain ⟨name, ws, heq⟩ := hhead
  rw [heq] at hargs ⊢
  refine (Reads.expect _).next (.refused (by simp) (.get fun c hc => ?_))
  rw [namedAhead_eq hc, if_pos (by rfl)]
  refine (hargs.map (f := Arguments.named) (S := fun a => a.map forget =
    Arguments.map forget (.named args)) fun as has => ?_).bind fun a ha =>
      (Reads.expect _).next (.pure ha)
  exact congrArg Arguments.named (map_snd_of_forall₂ has)

/-! ### Brackets -/

theorem list_reads {items : List Surface} {toks : Surface → List Token}
    (hhead : ∀ x ∈ items, ∀ vs, (toks x ++ vs).head? ≠ some (.symbol .rbracket))
    (h : Reads.Items (self false) toks (fun t s => s.Like t) items (.symbol .rbracket :: us)) :
    Reads (primary env self)
      (.symbol .lbracket :: (Token.commas (items.map toks) ++ .symbol .rbracket :: us)) us
      (·.Like (node (.list items) span [])) := by
  refine primary_reads (by simp [beginsTextual]) (Reads.peek.next ((Reads.expect _).next ?_))
  cases items with
  | nil => exact .accepted (.pure rfl)
  | cons x xs =>
    rw [List.map_cons, Token.commas, List.append_assoc]
    refine .refused (hhead x List.mem_cons_self _) (h.head.bind fun first hfirst => ?_)
    refine .refused ?_ (Reads.remaining.next ?_)
    · rcases head?_afterCommas (s := .rbracket) (xs.map toks) us with h | h <;> rw [h] <;> simp
    · exact (Reads.itemsAfter (by simp) h hfirst).bind fun as has =>
        (Reads.expect _).next (.pure (congrArg Form.list (map_forget_of_forall₂ has)))

theorem context_reads {entries : List (String × Surface)} {toks : Surface → List Token}
    (hkeys : ∀ p ∈ entries, ' ' ∉ p.1.toList)
    (h : Reads.Items (self false) (fun p => toks p.2) (fun p s => s.Like p.2) entries
      (.symbol .rbrace :: us)) :
    Reads (primary env self)
      (.symbol .lbrace :: (Token.commas (entries.map (keyed toks)) ++ .symbol .rbrace :: us)) us
      (·.Like (node (.context entries) span [])) := by
  refine primary_reads (by simp [beginsTextual]) (Reads.peek.next ((Reads.expect _).next ?_))
  cases entries with
  | nil => exact .accepted (.pure rfl)
  | cons p ps =>
    have hitems : Reads.Items (entry env self) (keyed toks) KeyedLike (p :: ps)
        (.symbol .rbrace :: us) := by
      refine h.around fun p hp vs hvs => ?_
      have hkey : Reads (entryKey env) (.name p.1 :: .symbol .colon :: (toks p.2 ++ vs))
          (.symbol .colon :: (toks p.2 ++ vs)) (· = p.1) :=
        Reads.peek.next (.wholeBinder (by simp [Token.word?]))
      refine hkey.next ((Reads.expect _).next ((Reads.remember (hkeys p hp)).next ?_))
      exact hvs.bind fun s hs => .pure ⟨rfl, hs⟩
    refine .refused (by simp [Token.commas, keyed]) ?_
    exact (Reads.commaSeparated (List.cons_ne_nil p ps) (by simp) hitems).bind fun as has =>
      (Reads.expect _).next (.pure (congrArg Form.context (map_snd_of_forall₂ has)))

/-- What a bracket at the start of an interval says of the start. -/
def opensInterval : Symbol → Option Bool
  | .lbracket => some true
  | .lparen | .rbracket => some false
  | _ => none

/-- What a bracket at the end of an interval says of the end. -/
def closesInterval : Symbol → Option Bool
  | .rbracket => some true
  | .rparen | .lbracket => some false
  | _ => none

section Intervals

variable {start finish : Surface} {si ei : Bool} {o c : Symbol} {fs : List Token}

theorem intervalEnd_reads (hc : closesInterval c = some ei) (hstart : s.Like start)
    (hfinish : Reads (self true) (fs ++ .symbol c :: us) (.symbol c :: us) (·.Like finish)) :
    Reads (intervalEnd env self s si) (fs ++ .symbol c :: us) us
      fun f => f.map forget = (Form.interval start finish si ei).map forget := by
  have hclose : Reads (intervalClose env) (.symbol c :: us) us (· = ei) := by
    refine Reads.peek.next ?_
    cases c <;> cases hc <;> exact (Reads.consume 1).next (.pure rfl)
  refine hfinish.bind fun a ha => hclose.next (.pure ?_)
  simp only [Form.map]
  rw [hstart, ha]

/-- An interval with any of its brackets. -/
theorem interval_reads (ho : opensInterval o = some si) (hc : closesInterval c = some ei)
    (hhead : (ts ++ .symbol .dotDot :: (fs ++ .symbol c :: us)).head? ≠ some (.symbol .rbracket))
    (hstart : Reads (self false) (ts ++ .symbol .dotDot :: (fs ++ .symbol c :: us))
      (.symbol .dotDot :: (fs ++ .symbol c :: us)) (·.Like start))
    (hfinish : Reads (self true) (fs ++ .symbol c :: us) (.symbol c :: us) (·.Like finish)) :
    Reads (primary env self)
      (.symbol o :: (ts ++ .symbol .dotDot :: (fs ++ .symbol c :: us))) us
      (·.Like (node (.interval start finish si ei) span [])) := by
  cases o <;> cases ho
  case lparen =>
    refine Reads.peek.next ?_
    rw [if_pos (by rfl)]
    refine Reads.offset.bind fun byte _ => Reads.leading.next ((Reads.expect _).next ?_)
    refine hstart.bind fun a ha => .accepted ((intervalEnd_reads hc ha hfinish).bind fun f hf => ?_)
    refine (Reads.spanned f byte).bind fun s hs => .pure ?_
    obtain ⟨span', rfl⟩ := hs
    rw [withLeading_nil]
    exact like_node hf _ _ _
  case lbracket =>
    refine primary_reads (by simp [beginsTextual]) (Reads.peek.next ((Reads.expect _).next ?_))
    exact .refused hhead (hstart.bind fun a ha => .accepted (intervalEnd_reads hc ha hfinish))
  case rbracket =>
    refine primary_reads (by simp [beginsTextual]) (Reads.peek.next ((Reads.expect _).next ?_))
    exact hstart.bind fun a ha => (Reads.expect _).next (intervalEnd_reads hc ha hfinish)

end Intervals

/-! ### Textual forms -/

/-- The rule of the textual form that begins with a keyword. -/
def textualForm (env : Setting) (self : Rule) (closing : Bool) : Keyword → Parse (Form Surface)
  | .if => conditional env self closing
  | .for => iteration env self closing
  | .function => functionDefinition env self closing
  | _ => quantification env self closing

theorem textual_reads {k : Keyword} {form : Form Surface} (hk : beginsTextual (.keyword k) = true)
    (h : Reads (textualForm env self closing k) (.keyword k :: ts) us
      fun f => f.map forget = form.map forget) :
    Reads (expressionRule env self closing) (.keyword k :: ts) us
      (·.Like (node form span [])) := by
  refine Reads.peek.next ?_
  rw [if_pos (by simpa using hk)]
  refine Reads.offset.bind fun byte _ => Reads.leading.next (Reads.peek.next ?_)
  have hspanned {f : Form Surface} (hf : f.map forget = form.map forget) :
      Reads (do return (← spanned env f byte).withLeading []) us us
        (·.Like (node form span [])) := by
    refine (Reads.spanned f byte).bind fun s hs => .pure ?_
    obtain ⟨span', rfl⟩ := hs
    rw [withLeading_nil]
    exact like_node hf _ _ _
  cases k <;> cases hk <;> exact h.bind fun f hf => hspanned hf

theorem conditional_reads {condition yes no : Surface} {cs ys ns : List Token}
    (hcondition : Reads (self closing) (cs ++ .keyword .then :: (ys ++ .keyword .else :: ns))
      (.keyword .then :: (ys ++ .keyword .else :: ns)) (·.Like condition))
    (hyes : Reads (self closing) (ys ++ .keyword .else :: ns) (.keyword .else :: ns) (·.Like yes))
    (hno : Reads (self closing) ns us (·.Like no)) :
    Reads (expressionRule env self closing)
      (.keyword .if :: (cs ++ .keyword .then :: (ys ++ .keyword .else :: ns))) us
      (·.Like (node (.ite condition yes no) span [])) := by
  refine textual_reads rfl ((Reads.consume 1).next (hcondition.bind fun a ha => ?_))
  refine (Reads.expect _).next (hyes.bind fun b hb => (Reads.expect _).next ?_)
  refine hno.bind fun c hc => .pure ?_
  simp only [Form.map]
  rw [ha, hb, hc]

/-- The tokens of a name with what it runs over. -/
def iteratorTokens {ε : Type} (toks : ε → List Token) (it : Iterator ε) : List Token :=
  .name it.name :: .keyword .in :: (toks it.domain ++
    match it.finish with
    | none => []
    | some finish => .symbol .dotDot :: toks finish)

theorem iterator_reads {it : Iterator Surface} {toks : Surface → List Token}
    (hname : ' ' ∉ it.name.toList) (hus : us.head? ≠ some (.symbol .dotDot))
    (h : ∀ part ∈ it.parts, ∀ vs, vs.head? = some (.symbol .dotDot) ∨ vs = us →
      Reads (self closing) (toks part ++ vs) vs (·.Like part)) :
    Reads (iterator env self closing) (iteratorTokens toks it ++ us) us
      fun a => a.map forget = it.map forget := by
  obtain ⟨name, domain, finish⟩ := it
  have hdomain := h domain List.mem_cons_self
  cases finish with
  | none =>
    have htokens : iteratorTokens toks ⟨name, domain, none⟩ ++ us =
        .name name :: .keyword .in :: (toks domain ++ us) := by simp [iteratorTokens]
    rw [htokens]
    refine (Reads.binder rfl (by simp)).next ((Reads.expect _).next ?_)
    refine (hdomain us (.inr rfl)).bind fun a ha => .refused hus ?_
    refine Reads.next (.pure rfl) ((Reads.remember hname).next (.pure ?_))
    simp only [Iterator.map]
    rw [ha, Option.map_none]
  | some finish =>
    have htokens : iteratorTokens toks ⟨name, domain, some finish⟩ ++ us =
        .name name :: .keyword .in :: (toks domain ++ .symbol .dotDot :: (toks finish ++ us)) := by
      simp [iteratorTokens]
    have hfinish := h finish (by simp [Iterator.parts]) us (.inr rfl)
    rw [htokens]
    refine (Reads.binder rfl (by simp)).next ((Reads.expect _).next ?_)
    refine (hdomain _ (.inl rfl)).bind fun a ha => .accepted ?_
    refine (hfinish.map (S := fun o => o.map forget = some finish.forget)
      fun b hb => congrArg some hb).bind fun o ho => (Reads.remember hname).next (.pure ?_)
    simp only [Iterator.map]
    rw [ha, ho]
    rfl

theorem map_of_forall₂ {as its : List (Iterator Surface)}
    (h : List.Forall₂ (fun it a => a.map forget = it.map forget) its as) :
    as.map (·.map forget) = its.map (·.map forget) := by
  induction h with
  | nil => rfl
  | cons ha _ ih => rw [List.map_cons, List.map_cons, ih, ha]

section Iterations

variable {its : List (Iterator Surface)} {toks : Surface → List Token} {body : Surface}

theorem iteration_reads (hne : its ≠ [])
    (hits : Reads.Items (iterator env self closing) (iteratorTokens toks)
      (fun it a => a.map forget = it.map forget) its (.keyword .return :: ts))
    (hbody : Reads (self closing) ts us (·.Like body)) :
    Reads (expressionRule env self closing)
      (.keyword .for :: (Token.commas (its.map (iteratorTokens toks)) ++ .keyword .return :: ts)) us
      (·.Like (node (.forIn its body) span [])) := by
  refine textual_reads rfl ((Reads.consume 1).next ?_)
  refine (Reads.commaSeparated hne (by simp) hits).bind fun as has => (Reads.expect _).next ?_
  refine hbody.bind fun b hb => .pure ?_
  simp only [Form.map]
  rw [map_of_forall₂ has, hb]

theorem quantification_reads {every : Bool} (hne : its ≠ [])
    (hits : Reads.Items (iterator env self closing) (iteratorTokens toks)
      (fun it a => a.map forget = it.map forget) its (.keyword .satisfies :: ts))
    (hbody : Reads (self closing) ts us (·.Like body)) :
    Reads (expressionRule env self closing)
      (.keyword (if every then .every else .some) ::
        (Token.commas (its.map (iteratorTokens toks)) ++ .keyword .satisfies :: ts)) us
      (·.Like (node (.quantified every its body) span [])) := by
  have hform : Reads (quantification env self closing)
      (.keyword (if every then .every else .some) ::
        (Token.commas (its.map (iteratorTokens toks)) ++ .keyword .satisfies :: ts)) us
      fun f => f.map forget = (Form.quantified every its body).map forget := by
    refine Reads.peek.next ((Reads.consume 1).next ?_)
    refine (Reads.commaSeparated hne (by simp) hits).bind fun as has => (Reads.expect _).next ?_
    refine hbody.bind fun b hb => .pure ?_
    simp only [Form.map]
    rw [map_of_forall₂ has, hb]
    cases every <;> rfl
  cases every <;> exact textual_reads rfl hform

end Iterations

/-- The tokens of a parameter. -/
def paramTokens (p : String × Option TypeExpr) : List Token :=
  .name p.1 :: match p.2 with
    | none => []
    | some type => .symbol .colon :: type.tokens

theorem param_reads {p : String × Option TypeExpr} (hname : ' ' ∉ p.1.toList)
    (hhead : us.head? = some (.symbol .comma) ∨ us.head? = some (.symbol .rparen))
    (hus : ∀ type, p.2 = some type → type.Follows us) :
    Reads (param env) (paramTokens p ++ us) us (· = p) := by
  obtain ⟨name, type⟩ := p
  have hword : ∀ t, us.head? = some t → t.word? = none := by
    rintro t ht
    rcases hhead with h | h <;> cases h.symm.trans ht <;> rfl
  cases type with
  | none =>
    refine (Reads.wholeBinder hword).next (.refused ?_ ?_)
    · rcases hhead with h | h <;> simp [h]
    · exact Reads.next (.pure rfl) ((Reads.remember hname).next (.pure rfl))
  | some type =>
    refine (Reads.wholeBinder (by simp [Token.word?])).next (.accepted ?_)
    have htype := TypeExpr.read_tokens env (hus type rfl)
    exact (htype.map (S := (· = some type)) fun a ha => congrArg some ha).next
      ((Reads.remember hname).next (.pure rfl))

theorem function_reads {params : List (String × Option TypeExpr)} {body : Surface}
    (hparams : Reads.Items (param env) paramTokens (fun p a => a = p) params
      (.symbol .rparen :: ts))
    (hbody : Reads (self closing) ts us (·.Like body)) :
    Reads (expressionRule env self closing)
      (.keyword .function :: .symbol .lparen ::
        (Token.commas (params.map paramTokens) ++ .symbol .rparen :: ts)) us
      (·.Like (node (.function params body) span [])) := by
  refine textual_reads rfl ((Reads.consume 1).next ((Reads.expect _).next ?_))
  have hbehind (params : List (String × Option TypeExpr)) :
      Reads (do
        expectSymbol env .rparen
        return Form.function params (← self closing)) (.symbol .rparen :: ts) us
        fun f => f.map forget = (Form.function params body).map forget := by
    refine (Reads.expect _).next (hbody.bind fun b hb => .pure ?_)
    simp only [Form.map]
    rw [hb]
  refine (Reads.isNext .rparen).next ?_
  cases params with
  | nil => exact Reads.next (.pure rfl) (hbehind [])
  | cons p ps =>
    rw [if_neg (by simp [Token.commas, paramTokens])]
    refine (Reads.commaSeparated (List.cons_ne_nil p ps) (by simp) hparams).bind fun as has => ?_
    rw [TypeExpr.eq_of_forall₂ has]
    exact hbehind (p :: ps)

end Surface

end Feel
