import Feel.Surface.Parser
import Mathlib.Data.List.Forall2

/-!
# What steps of reading do

A step that reads is described by the tokens it finds, the tokens it leaves, and what it gives.
The tokens have no comments here. If nothing else is said, the only names of several words that
are known are the members of ranges, so that nothing but the tokens counts.

* `Cursor.Holds`: the tokens before a cursor.
* `Parse.Reads`: a step reads some tokens, leaves some, and gives something with a property.
* `Parse.Reads.bind` and the lemmas behind it: reading one step after another.
* `Parse.Reads.commaSeparated`: items separated by commas.
* `Parse.Reads.readName`, `Parse.Reads.binder`: names of one word.
-/

namespace Feel

/-- The cursor stands before the given tokens, without comments, and knows the given names. -/
structure Cursor.Holds (c : Cursor) (ts : List Token)
    (names : List String := Surface.rangeMembers) : Prop where
  tokens : c.rest.map (·.token) = ts
  comments : ∀ p ∈ c.rest, p.comments = []
  known : c.known = names

/-! ### Tokens of several items -/

namespace Token

/-- Items with a comma before each of them. -/
def afterCommas : List (List Token) → List Token
  | [] => []
  | item :: items => symbol .comma :: (item ++ afterCommas items)

/-- Items with a comma between two of them. -/
def commas : List (List Token) → List Token
  | [] => []
  | item :: items => item ++ afterCommas items

theorem length_le_afterCommas (items : List (List Token)) :
    items.length ≤ (afterCommas items).length := by
  induction items with
  | nil => exact Nat.le_refl 0
  | cons item items ih =>
    simp only [afterCommas, List.length_cons, List.length_append]
    omega

end Token

namespace Parse

/-- A step reads the tokens `ts` down to `us`, and what it gives has a property. -/
def Reads {α : Type} (p : Parse α) (ts us : List Token) (R : α → Prop)
    (names : List String := Surface.rangeMembers) : Prop :=
  ∀ c : Cursor, c.Holds ts names → ∃ a c', p.run c = .ok a c' ∧ R a ∧ c'.Holds us names

namespace Reads

variable {α β : Type} {ts us vs : List Token} {R : α → Prop} {S : β → Prop} {env : Setting}
  {names : List String}

/-! ### One step after another -/

theorem pure {a : α} (h : R a) : Reads (pure a) ts ts R names := fun c hc => ⟨a, c, rfl, h, hc⟩

theorem bind {p : Parse α} {f : α → Parse β} (hp : Reads p ts us R names)
    (hf : ∀ a, R a → Reads (f a) us vs S names) : Reads (p >>= f) ts vs S names := by
  intro c hc
  obtain ⟨a, c', hrun, ha, hc'⟩ := hp c hc
  obtain ⟨b, c'', hrun', hb, hc''⟩ := hf a ha c' hc'
  exact ⟨b, c'', by rw [EStateM.run_bind, hrun]; exact hrun', hb, hc''⟩

/-- What a step gives is known. -/
theorem next {p : Parse α} {f : α → Parse β} {a : α} (hp : Reads p ts us (· = a) names)
    (hf : Reads (f a) us vs S names) : Reads (p >>= f) ts vs S names := by
  refine hp.bind fun b hb => ?_
  rw [hb]
  exact hf

theorem map {p : Parse α} {f : α → β} (hp : Reads p ts us R names) (hf : ∀ a, R a → S (f a)) :
    Reads (f <$> p) ts us S names := by
  rw [map_eq_pure_bind]
  exact hp.bind fun a ha => .pure (hf a ha)

theorem imp {p : Parse α} {R' : α → Prop} (hp : Reads p ts us R names) (h : ∀ a, R a → R' a) :
    Reads p ts us R' names := by
  intro c hc
  obtain ⟨a, c', hrun, ha, hc'⟩ := hp c hc
  exact ⟨a, c', hrun, h a ha, hc'⟩

/-! ### Single steps -/

theorem get {f : Cursor → Parse β}
    (hf : ∀ c : Cursor, c.Holds ts names → Reads (f c) ts us S names) :
    Reads (MonadState.get >>= f) ts us S names := fun c hc => hf c hc c hc

theorem head?_of_holds {c : Cursor} (hc : c.Holds ts names) :
    c.rest.head?.map (·.token) = ts.head? := by
  rw [← hc.tokens, List.head?_map]

theorem peek : Reads peek ts ts (· = ts.head?) names :=
  fun c hc => ⟨_, c, rfl, head?_of_holds hc, hc⟩

theorem peekSecond : Reads peekSecond ts ts (· = (ts.drop 1).head?) names := by
  refine fun c hc => ⟨_, c, rfl, ?_, hc⟩
  rw [← hc.tokens, ← List.map_drop, List.head?_map]

theorem remaining : Reads remaining ts ts (· = ts.length) names :=
  fun c hc => ⟨_, c, rfl, by rw [← hc.tokens, List.length_map], hc⟩

theorem offset : Reads (offset env) ts ts (fun _ => True) names :=
  fun c hc => ⟨_, c, rfl, trivial, hc⟩

theorem leading : Reads leading ts ts (· = []) names := by
  refine fun c hc => ⟨_, c, rfl, ?_, hc⟩
  cases hrest : c.rest with
  | nil => rfl
  | cons p ps => exact hc.comments p (by rw [hrest]; exact List.mem_cons_self)

theorem consume (n : Nat) : Reads (consume n) ts (ts.drop n) (· = ()) names := by
  refine fun c hc => ⟨(), _, rfl, rfl, ?_, ?_, hc.known⟩
  · show (c.rest.drop n).map (·.token) = _
    rw [List.map_drop, hc.tokens]
  · exact fun p hp => hc.comments p (List.mem_of_mem_drop hp)

theorem isNext (s : Symbol) :
    Reads (isNext s) ts ts (· = (ts.head? == some (.symbol s))) names :=
  peek.next (.pure rfl)

theorem spanned (form : Form Surface) (start : Nat) :
    Reads (spanned env form start) ts ts (fun s => ∃ span, s = .plain form span) names :=
  fun c hc => ⟨_, c, rfl, ⟨_, rfl⟩, hc⟩

/-- A name of one word need not be made known. -/
theorem remember {name : String} (h : ' ' ∉ name.toList) :
    Reads (remember name) ts ts (· = ()) names := by
  unfold Parse.remember
  rw [if_neg (by simpa using h)]
  exact .pure rfl

section Accept

variable {t : Token} {f g : Parse β}

/-- A token that may be next is next. -/
theorem accepted (h : Reads f ts us S names) :
    Reads (accept t >>= fun b => if b = true then f else g) (t :: ts) us S names := by
  have haccept : Reads (accept t) (t :: ts) ts (· = true) names :=
    peek.next (by
      rw [List.head?_cons, if_pos (by simp)]
      exact (consume 1).next (.pure rfl))
  exact haccept.next (by rwa [if_pos rfl])

/-- A token that may be next is not. -/
theorem refused (ht : ts.head? ≠ some t) (h : Reads g ts us S names) :
    Reads (accept t >>= fun b => if b = true then f else g) ts us S names := by
  have haccept : Reads (accept t) ts ts (· = false) names :=
    peek.next (by
      rw [if_neg (by simpa using ht)]
      exact .pure rfl)
  exact haccept.next (by rwa [if_neg Bool.false_ne_true])

/-- A token that has to be next. -/
theorem expect (t : Token) : Reads (expect env t) (t :: ts) ts (· = ()) names :=
  accepted (.pure rfl)

end Accept

/-! ### Items separated by commas -/

/-- Each of some items is read before what may stand behind it: the last one before `us`, and the
others before a comma. -/
structure Items (item : Parse α) (toks : β → List Token) (Q : β → α → Prop) (xs : List β)
    (us : List Token) (names : List String := Surface.rangeMembers) : Prop where
  inner : ∀ x ∈ xs, ∀ vs, vs.head? = some (.symbol .comma) →
    Reads item (toks x ++ vs) vs (Q x) names
  last : ∀ x, xs.getLast? = some x → Reads item (toks x ++ us) us (Q x) names

section Items

variable {item : Parse α} {toks : β → List Token} {Q : β → α → Prop} {xs : List β} {x : β}

theorem Items.tail (h : Items item toks Q (x :: xs) us names) :
    Items item toks Q xs us names where
  inner := fun y hy => h.inner y (List.mem_cons_of_mem _ hy)
  last := fun y hy => h.last y (by simp_all [List.getLast?_cons])

/-- Items with something around them. -/
theorem Items.around {γ : Type} {item' : Parse γ} {toks' : β → List Token} {Q' : β → γ → Prop}
    (h : Items item toks Q xs us names)
    (hitem : ∀ x ∈ xs, ∀ vs, Reads item (toks x ++ vs) vs (Q x) names →
      Reads item' (toks' x ++ vs) vs (Q' x) names) : Items item' toks' Q' xs us names where
  inner := fun x hx vs hvs => hitem x hx vs (h.inner x hx vs hvs)
  last := fun x hx => hitem x (List.mem_of_getLast? hx) us (h.last x hx)

/-- What stands behind the first item begins with a comma, unless it is the only one. -/
theorem Items.head (h : Items item toks Q (x :: xs) us names) :
    Reads item (toks x ++ (Token.afterCommas (xs.map toks) ++ us))
      (Token.afterCommas (xs.map toks) ++ us) (Q x) names := by
  cases xs with
  | nil => exact h.last x rfl
  | cons y ys => exact h.inner x List.mem_cons_self _ rfl

theorem moreItems (hus : us.head? ≠ some (.symbol .comma)) (h : Items item toks Q xs us names)
    {n : Nat} (hn : xs.length ≤ n) (before : List α) :
    Reads (moreItems item n before) (Token.afterCommas (xs.map toks) ++ us) us
      (fun as => ∃ bs, as = before.reverse ++ bs ∧ List.Forall₂ Q xs bs) names := by
  induction xs generalizing n before with
  | nil =>
    cases n with
    | zero => exact .pure ⟨[], by simp, .nil⟩
    | succ n => exact refused hus (.pure ⟨[], by simp, .nil⟩)
  | cons x xs ih =>
    cases n with
    | zero => simp at hn
    | succ n =>
      rw [List.map_cons, Token.afterCommas, List.cons_append, List.append_assoc]
      refine accepted (h.head.bind fun a ha => ?_)
      refine (ih h.tail (Nat.le_of_succ_le_succ hn) (a :: before)).imp ?_
      rintro as ⟨bs, rfl, hbs⟩
      exact ⟨a :: bs, by simp, .cons ha hbs⟩

/-- The items behind the first one, with what the first one gave. -/
theorem itemsAfter {a : α} (hus : us.head? ≠ some (.symbol .comma))
    (h : Items item toks Q (x :: xs) us names) (ha : Q x a) :
    Reads (Parse.moreItems item (Token.afterCommas (xs.map toks) ++ us).length [a])
      (Token.afterCommas (xs.map toks) ++ us) us (List.Forall₂ Q (x :: xs)) names := by
  have hn : xs.length ≤ (Token.afterCommas (xs.map toks) ++ us).length := by
    have hle := Token.length_le_afterCommas (xs.map toks)
    rw [List.length_map] at hle
    rw [List.length_append]
    omega
  refine (moreItems hus h.tail hn [a]).imp ?_
  rintro as ⟨bs, rfl, hbs⟩
  exact .cons ha hbs

theorem commaSeparated (hne : xs ≠ []) (hus : us.head? ≠ some (.symbol .comma))
    (h : Items item toks Q xs us names) :
    Reads (commaSeparated item) (Token.commas (xs.map toks) ++ us) us (List.Forall₂ Q xs)
      names := by
  cases xs with
  | nil => exact absurd rfl hne
  | cons x xs =>
    rw [List.map_cons, Token.commas, List.append_assoc]
    exact h.head.bind fun a ha => remaining.next (itemsAfter hus h ha)

end Items

/-! ### Names of one word -/

/-- The words at the start of tokens. -/
def wordsOf (ts : List Token) : List String :=
  ((ts.map (·.word?)).takeWhile (·.isSome)).filterMap id

theorem words_eq (pieces : List Piece) : words pieces = wordsOf (pieces.map (·.token)) := by
  rw [words, wordsOf, List.map_map]
  rfl

/-- What cannot be continued to a known name is read alone. -/
theorem longest_of_unknown {isKnown : String → Bool} {P : String → Prop}
    (hmore : ∀ s w, P s → P (s ++ " " ++ w)) (hunknown : ∀ s, P s → isKnown s = false)
    (best : String × Nat) (candidate : String) (count : Nat) (ws : List String)
    (hfirst : ∀ w, ws.head? = some w → P (candidate ++ " " ++ w)) :
    longest isKnown best candidate count ws = best := by
  induction ws generalizing candidate count with
  | nil => rfl
  | cons w ws ih =>
    have hw := hfirst w rfl
    rw [longest, hunknown _ hw, if_neg Bool.false_ne_true]
    exact ih _ _ fun v _ => hmore _ v hw

/-- No member of a range is a word and a keyword, alone or with more words behind. -/
theorem keyword_not_rangeMember {w : String} {k : Keyword} (hw : ' ' ∉ w.toList)
    (hk : k.isWord = true) {s : String} {rest : List Char}
    (hs : s.toList = w.toList ++ ' ' :: (k.text.toList ++ rest)) (hrest : rest.headD ' ' = ' ') :
    Surface.rangeMembers.contains s = false := by
  have hdrop (t : List Char) : (w.toList ++ ' ' :: t).dropWhile (· != ' ') = ' ' :: t := by
    rw [List.dropWhile_append_of_pos fun c hc => bne_iff_ne.mpr (ne_of_mem_of_not_mem hc hw)]
    rfl
  have hmember : ∀ m ∈ Surface.rangeMembers,
      m.toList.dropWhile (· != ' ') = ' ' :: "included".toList := by decide
  by_contra hcontains
  have hmem : s ∈ Surface.rangeMembers := by simpa using hcontains
  have heq := hmember s hmem
  rw [hs, hdrop, List.cons.injEq] at heq
  -- of the keywords only one begins like the second word, and that one ends too early
  cases k <;> first | exact absurd hk (by decide) | skip
  case «in» =>
    obtain ⟨-, heq⟩ := heq
    have hrest' : rest = "cluded".toList := by simpa [Keyword.text] using heq
    simp [hrest'] at hrest
  all_goals simp [Keyword.text] at heq

theorem words_of_holds {c : Cursor} {w : String} (hc : c.Holds (.name w :: us)) :
    words (c.rest.take maxWords) = w :: wordsOf (us.take (maxWords - 1)) := by
  rw [words_eq, List.map_take, hc.tokens]
  rfl

theorem nameAhead_of_holds {c : Cursor} {w : String} (hw : ' ' ∉ w.toList)
    (hc : c.Holds (.name w :: us)) (hus : ∀ v, us.head? ≠ some (.name v)) :
    nameAhead c.known.contains c = some (w, 1) := by
  rw [nameAhead, words_of_holds hc, hc.known]
  let P (s : String) : Prop := ∃ k : Keyword, k.isWord = true ∧ ∃ rest : List Char,
    s.toList = w.toList ++ ' ' :: (k.text.toList ++ rest) ∧ rest.headD ' ' = ' '
  have hmore (s v : String) : P s → P (s ++ " " ++ v) := by
    rintro ⟨k, hk, rest, hs, hrest⟩
    refine ⟨k, hk, rest ++ ' ' :: v.toList, by simp [hs], ?_⟩
    cases rest with
    | nil => rfl
    | cons c rest => exact hrest
  have hunknown (s : String) : P s → Surface.rangeMembers.contains s = false := by
    rintro ⟨k, hk, rest, hs, hrest⟩
    exact keyword_not_rangeMember hw hk hs hrest
  refine congrArg some (longest_of_unknown hmore hunknown _ _ _ _ fun v hv => ?_)
  cases us with
  | nil => simp [wordsOf] at hv
  | cons t us =>
    cases t with
    | name v => exact absurd rfl (hus v)
    | keyword k =>
      by_cases hk : k.isWord = true
      · have hv' : k.text = v := by simpa [wordsOf, maxWords, Token.word?, hk] using hv
        exact ⟨k, hk, [], by simp [← hv'], rfl⟩
      · simp [wordsOf, maxWords, Token.word?, hk] at hv
    | _ => simp [wordsOf, maxWords, Token.word?] at hv

/-- A name of one word is read alone, if no other name follows. -/
theorem readName {w : String} (henv : env.mergeNames = false) (hw : ' ' ∉ w.toList)
    (hus : ∀ v, us.head? ≠ some (.name v)) :
    Reads (readName env) (.name w :: us) us (· = w) := by
  refine get fun c hc => ?_
  rw [nameAhead_of_holds hw hc hus]
  refine (consume 1).next ?_
  rw [henv]
  exact .pure rfl

/-- A declared name of one word is read up to a token that ends it. -/
theorem binder {w : String} {ends : Token → Bool} (hname : ends (.name w) = false)
    (hus : ∀ t, us.head? = some t → ends t = true ∨ t.word? = none) :
    Reads (binder env ends) (.name w :: us) us (· = w) := by
  refine get fun c hc => ?_
  have hwords : words (c.rest.takeWhile fun p => !ends p.token) = [w] := by
    rw [words_eq, ← Function.comp_def (fun t => !ends t) Piece.token, ← List.takeWhile_map,
      hc.tokens, List.takeWhile_cons_of_pos (by simp [hname])]
    cases us with
    | nil => rfl
    | cons t us =>
      by_cases ht : ends t = true
      · rw [List.takeWhile_cons_of_neg (by simp [ht])]
        rfl
      · rw [List.takeWhile_cons_of_pos (by simp [ht])]
        simp [wordsOf, (hus t rfl).resolve_left ht]
        rfl
  rw [hwords]
  exact (consume 1).next (.pure rfl)

theorem wholeBinder {w : String} (hus : ∀ t, us.head? = some t → t.word? = none) :
    Reads (wholeBinder env) (.name w :: us) us (· = w) :=
  binder rfl fun t ht => .inr (hus t ht)

end Reads

end Parse

end Feel
