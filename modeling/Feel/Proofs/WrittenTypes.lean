import Feel.Proofs.Reading
import Feel.Proofs.WrittenTokens

/-!
# Types as they are written

A type is written with its names as words, and reading it gives it back. One type reaches beyond
its end: after the name `range` up to two brackets and an angle are taken for a range type, so a
type that ends in this name must not be followed by them.

* `TypeExpr.tokens`: the tokens of a type.
* `TypeExpr.endsInRange`, `Token.angleBehind`: the name at the end, and what must not follow it.
* `TypeExpr.read_tokens`: types are read back.
-/

namespace Feel

namespace Token

theorem length_le_commas {items : List (List Token)} {item : List Token} (h : item ∈ items) :
    item.length ≤ (commas items).length := by
  have hafter : ∀ items : List (List Token), item ∈ items →
      item.length ≤ (afterCommas items).length := by
    intro items h
    induction items with
    | nil => simp at h
    | cons i items ih =>
      simp only [afterCommas, List.length_cons, List.length_append]
      rcases List.mem_cons.mp h with rfl | h
      · omega
      · have := ih h
        omega
  cases items with
  | nil => simp at h
  | cons i items =>
    rw [commas, List.length_append]
    rcases List.mem_cons.mp h with rfl | h
    · omega
    · have := hafter items h
      omega

theorem all_commas {p : Token → Bool} {items : List (List Token)}
    (hcomma : p (symbol .comma) = true) (h : ∀ item ∈ items, item.all p = true) :
    (commas items).all p = true := by
  have hafter : ∀ items : List (List Token), (∀ item ∈ items, item.all p = true) →
      (afterCommas items).all p = true := by
    intro items h
    induction items with
    | nil => rfl
    | cons i items ih =>
      rw [afterCommas, List.all_cons, List.all_append, hcomma, h i List.mem_cons_self,
        ih fun j hj => h j (List.mem_cons_of_mem _ hj)]
      rfl
  cases items with
  | nil => rfl
  | cons i items =>
    rw [commas, List.all_append, h i List.mem_cons_self,
      hafter items fun j hj => h j (List.mem_cons_of_mem _ hj)]
    rfl

/-- Whether brackets and an angle follow, no more than two brackets with `n` that stand before
them. -/
def angleBehind (n : Nat) (ts : List Token) : Bool :=
  decide (n + (ts.takeWhile TypeExpr.isBracket).length ≤ 2) &&
    (ts.dropWhile TypeExpr.isBracket).head? == some (symbol .lt)

end Token

namespace TypeExpr

/-! ### Writing -/

/-- The bracket of a bound whose kind is given. -/
def boundTokens (included excluded : Symbol) : Option Bool → List Token
  | some true => [.symbol included]
  | some false => [.symbol excluded]
  | none => []

mutual

/-- The tokens of a type. -/
def tokens : TypeExpr → List Token
  | named name => [.name name]
  | list element => .name "list" :: .symbol .lt :: (tokens element ++ [.symbol .gt])
  | context fields =>
    .name "context" :: .symbol .lt :: (Token.commas (fieldTokens fields) ++ [.symbol .gt])
  | range element s e =>
    .name "range" :: (boundTokens .lbracket .lparen s ++ boundTokens .rbracket .rparen e ++
      .symbol .lt :: (tokens element ++ [.symbol .gt]))
  | function params result =>
    .keyword .function :: .symbol .lt ::
      (Token.commas (listTokens params) ++ .symbol .gt :: .symbol .arrow :: tokens result)

def listTokens : List TypeExpr → List (List Token)
  | [] => []
  | t :: ts => tokens t :: listTokens ts

def fieldTokens : List (String × TypeExpr) → List (List Token)
  | [] => []
  | (name, t) :: fields => (.name name :: .symbol .colon :: tokens t) :: fieldTokens fields

end

theorem listTokens_eq (ts : List TypeExpr) : listTokens ts = ts.map tokens := by
  induction ts with
  | nil => rfl
  | cons t ts ih => rw [listTokens, ih, List.map_cons]

/-- The tokens of a field. -/
def fieldToken (field : String × TypeExpr) : List Token :=
  .name field.1 :: .symbol .colon :: tokens field.2

theorem fieldTokens_eq (fields : List (String × TypeExpr)) :
    fieldTokens fields = fields.map fieldToken := by
  induction fields with
  | nil => rfl
  | cons field fields ih => rw [fieldTokens, ih, List.map_cons]; rfl

mutual

/-- Whether all names in a type are words. -/
def isWorded : TypeExpr → Bool
  | named name => Token.isWord name
  | list element => isWorded element
  | context fields => areFieldsWorded fields
  | range element _ _ => isWorded element
  | function params result => areWorded params && isWorded result

def areWorded : List TypeExpr → Bool
  | [] => true
  | t :: ts => isWorded t && areWorded ts

def areFieldsWorded : List (String × TypeExpr) → Bool
  | [] => true
  | (name, t) :: fields => Token.isWord name && isWorded t && areFieldsWorded fields

end

mutual

theorem isPlain_tokens : ∀ t : TypeExpr, isWorded t = true → t.tokens.all Token.isPlain = true
  | named name, h => by simpa [tokens, Token.isPlain] using (show Token.isWord name = true from h)
  | list element, h => by
    have helement := isPlain_tokens element h
    simp [tokens, helement, Token.isPlain, show Token.isWord "list" = true by decide +kernel]
  | context fields, h => by
    have hfields := Token.all_commas rfl (isPlain_fieldTokens fields h)
    simp [tokens, hfields, Token.isPlain, show Token.isWord "context" = true by decide +kernel]
  | range element s e, h => by
    have helement := isPlain_tokens element h
    have hbounds : (boundTokens .lbracket .lparen s ++
        boundTokens .rbracket .rparen e).all Token.isPlain = true := by
      rcases s with _ | _ | _ <;> rcases e with _ | _ | _ <;> rfl
    rw [List.all_append, Bool.and_eq_true] at hbounds
    simp [tokens, helement, hbounds, Token.isPlain,
      show Token.isWord "range" = true by decide +kernel]
  | function params result, h => by
    simp only [isWorded, Bool.and_eq_true] at h
    obtain ⟨hparams, hresult⟩ := h
    have hlist := Token.all_commas rfl (isPlain_listTokens params hparams)
    simp [tokens, hlist, isPlain_tokens result hresult, Token.isPlain]
termination_by structural t => t

theorem isPlain_listTokens : ∀ ts : List TypeExpr, areWorded ts = true →
    ∀ item ∈ listTokens ts, item.all Token.isPlain = true
  | [], _, item, hitem => by simp [listTokens] at hitem
  | t :: ts, h, item, hitem => by
    simp only [areWorded, Bool.and_eq_true] at h
    obtain ⟨ht, hts⟩ := h
    rcases List.mem_cons.mp hitem with rfl | hitem
    · exact isPlain_tokens t ht
    · exact isPlain_listTokens ts hts item hitem
termination_by structural ts => ts

theorem isPlain_fieldTokens : ∀ fields : List (String × TypeExpr),
    areFieldsWorded fields = true → ∀ item ∈ fieldTokens fields, item.all Token.isPlain = true
  | [], _, item, hitem => by simp [fieldTokens] at hitem
  | (name, t) :: fields, h, item, hitem => by
    simp only [areFieldsWorded, Bool.and_eq_true] at h
    rcases List.mem_cons.mp hitem with rfl | hitem
    · simp [isPlain_tokens t h.1.2, Token.isPlain, h.1.1]
    · exact isPlain_fieldTokens fields h.2 item hitem
termination_by structural fields => fields

end

/-- Whether the last word of a type is the name `range`. -/
def endsInRange : TypeExpr → Bool
  | named name => name == "range"
  | function _ result => endsInRange result
  | _ => false

/-! ### Reading back -/

/-- What may stand behind a type: the end, a comma, or something that closes; and after the name
`range` nothing that makes it a range type. -/
structure Follows (t : TypeExpr) (us : List Token) : Prop where
  closes : us.head? ∈ [none, some (.symbol .comma), some (.symbol .gt), some (.symbol .rparen)]
  noAngle : t.endsInRange = true → Token.angleBehind 0 us = false

theorem follows_symbol {t : TypeExpr} {s : Symbol} {us : List Token} (h : s = .comma ∨ s = .gt) :
    t.Follows (.symbol s :: us) := by
  rcases h with rfl | rfl <;> exact ⟨by simp, fun _ => rfl⟩

theorem rangeAhead_eq (pieces : List Piece) :
    rangeAhead pieces = Token.angleBehind 0 (pieces.map (·.token)) := by
  have hdrop (ts : List Token) :
      ts.drop (ts.takeWhile isBracket).length = ts.dropWhile isBracket := by
    induction ts with
    | nil => rfl
    | cons t ts ih => by_cases ht : isBracket t = true <;> simp [ht, ih]
  simp only [rangeAhead, Token.angleBehind, hdrop, Nat.zero_add]

section Rule

open Parse

variable {env : Setting} {self : Parse TypeExpr} {us vs : List Token} {names : List String}

/-- A type that begins with a word is no function type and not the type of null. -/
theorem rule_word {t : Token} {w : String} (ht : t.word? = some w) {R : TypeExpr → Prop}
    (h : Reads
        (if (w == "list" && us.head? == some (.symbol .lt)) = true then do
          consume 2
          let element ← self
          expectSymbol env .gt
          return .list element
        else if (w == "context" && us.head? == some (.symbol .lt)) = true then do
          consume 2
          let fields ← angleList (field env self)
          expectSymbol env .gt
          return .context fields
        else if (w == "range" && Token.angleBehind 0 us) = true then do
          consume 1
          rangeRule env self
        else namedRule env) (t :: us) vs R names) :
    Reads (rule env self) (t :: us) vs R names := by
  have hkeyword {k : Keyword} (hk : (Token.keyword k).word? = none) :
      (t :: us).head? ≠ some (.keyword k) := by
    intro heq
    rw [Option.some.inj heq, hk] at ht
    cases ht
  refine .refused (hkeyword rfl) (.refused (hkeyword rfl) (.get fun c hc => ?_))
  refine Reads.peek.next (Reads.peekSecond.next ?_)
  have hrest : (c.rest.drop 1).map (·.token) = us := by
    rw [List.map_drop, hc.tokens]
    rfl
  rw [rangeAhead_eq, hrest, List.head?_cons, Option.bind_some, ht]
  exact h

/-- A name that is read as the longest run of words. -/
theorem rule_named {t : Token} {w name : String} (ht : t.word? = some w)
    (hlt : us.head? ≠ some (.symbol .lt)) (hrange : w = "range" → Token.angleBehind 0 us = false)
    (h : Reads (namedRule env) (t :: us) vs (· = named name) names) :
    Reads (rule env self) (t :: us) vs (· = named name) names := by
  refine rule_word ht ?_
  rw [if_neg (by simp [hlt]), if_neg (by simp [hlt]), if_neg (by simpa using hrange)]
  exact h

theorem rule_list {element : TypeExpr} {inner : List Token}
    (h : Reads self (inner ++ .symbol .gt :: us) (.symbol .gt :: us) (· = element) names) :
    Reads (rule env self) (.name "list" :: .symbol .lt :: (inner ++ .symbol .gt :: us)) us
      (· = list element) names := by
  refine rule_word rfl ?_
  rw [if_pos (by rfl)]
  exact (Reads.consume 2).next (h.next ((Reads.expect _).next (.pure rfl)))

theorem eq_of_forall₂ {α : Type} {xs as : List α} (h : List.Forall₂ (fun x a => a = x) xs as) :
    as = xs := by
  induction h with
  | nil => rfl
  | cons ha _ ih => rw [ha, ih]

/-- Items between angles, possibly none. -/
theorem angleList_reads {α : Type} {item : Parse α} {toks : α → List Token} {xs : List α}
    (hgt : ∀ x ∈ xs, ∀ vs, (toks x ++ vs).head? ≠ some (.symbol .gt))
    (h : ∀ x ∈ xs, ∀ s vs, s = .comma ∨ s = .gt →
      Reads item (toks x ++ .symbol s :: vs) (.symbol s :: vs) (· = x) names) :
    Reads (angleList item) (Token.commas (xs.map toks) ++ .symbol .gt :: us) (.symbol .gt :: us)
      (· = xs) names := by
  refine (Reads.isNext .gt).next ?_
  cases xs with
  | nil => exact .pure rfl
  | cons x xs =>
    have hhead := hgt x List.mem_cons_self
      (Token.afterCommas (xs.map toks) ++ .symbol .gt :: us)
    rw [← List.append_assoc] at hhead
    rw [if_neg (by simpa [Token.commas] using hhead)]
    have hitems : Reads (commaSeparated item)
        (Token.commas ((x :: xs).map toks) ++ .symbol .gt :: us) (.symbol .gt :: us)
        (List.Forall₂ (fun y a => a = y) (x :: xs)) names := by
      refine .commaSeparated (List.cons_ne_nil x xs) (by simp) ⟨fun y hy vs hvs => ?_,
        fun y hy => h y (List.mem_of_getLast? hy) .gt us (.inr rfl)⟩
      obtain ⟨vs, rfl⟩ := List.head?_eq_some_iff.mp hvs
      exact h y hy .comma vs (.inl rfl)
    exact hitems.imp fun as has => eq_of_forall₂ has

theorem rule_context {fields : List (String × TypeExpr)} {toks : String × TypeExpr → List Token}
    (hgt : ∀ f ∈ fields, ∀ vs, (toks f ++ vs).head? ≠ some (.symbol .gt))
    (h : ∀ f ∈ fields, ∀ s vs, s = .comma ∨ s = .gt →
      Reads (field env self) (toks f ++ .symbol s :: vs) (.symbol s :: vs) (· = f) names) :
    Reads (rule env self) (.name "context" :: .symbol .lt ::
      (Token.commas (fields.map toks) ++ .symbol .gt :: us)) us (· = context fields) names := by
  refine rule_word rfl ?_
  rw [if_neg (by simp), if_pos (by rfl)]
  exact (Reads.consume 2).next ((angleList_reads hgt h).next ((Reads.expect _).next (.pure rfl)))

theorem rangeFlags_boundTokens (s e : Option Bool) :
    rangeFlags (boundTokens .lbracket .lparen s ++ boundTokens .rbracket .rparen e) = (s, e) := by
  rcases s with _ | _ | _ <;> rcases e with _ | _ | _ <;> rfl

theorem rule_range {element : TypeExpr} {inner : List Token} {s e : Option Bool}
    (h : Reads self (inner ++ .symbol .gt :: us) (.symbol .gt :: us) (· = element) names) :
    Reads (rule env self) (.name "range" ::
      (boundTokens .lbracket .lparen s ++ boundTokens .rbracket .rparen e ++
        .symbol .lt :: (inner ++ .symbol .gt :: us))) us (· = range element s e) names := by
  have hflags := rangeFlags_boundTokens s e
  obtain ⟨bounds, hbounds⟩ : ∃ bounds, bounds =
      boundTokens .lbracket .lparen s ++ boundTokens .rbracket .rparen e := ⟨_, rfl⟩
  have hspan (ts : List Token) :
      (bounds ++ .symbol .lt :: ts).takeWhile isBracket = bounds ∧
      (bounds ++ .symbol .lt :: ts).dropWhile isBracket = .symbol .lt :: ts ∧
      bounds.length ≤ 2 := by
    rw [hbounds]
    rcases s with _ | _ | _ <;> rcases e with _ | _ | _ <;> exact ⟨rfl, rfl, by decide⟩
  rw [← hbounds] at hflags ⊢
  obtain ⟨htake, hdrop, hlength⟩ := hspan (inner ++ .symbol .gt :: us)
  refine rule_word rfl ?_
  rw [if_neg (by simp), if_neg (by simp),
    if_pos (by simp [Token.angleBehind, htake, hdrop, hlength])]
  refine (Reads.consume 1).next (.get fun c hc => ?_)
  rw [hc.tokens, List.drop_one, List.tail_cons, htake]
  refine (Reads.consume _).next ?_
  rw [hflags, List.drop_left]
  exact (Reads.expect _).next (h.next ((Reads.expect _).next (.pure rfl)))

theorem rule_function {params : List TypeExpr} {result : TypeExpr}
    {toks : TypeExpr → List Token}
    (hgt : ∀ t ∈ params, ∀ vs, (toks t ++ vs).head? ≠ some (.symbol .gt))
    (hparams : ∀ t ∈ params, ∀ s vs, s = .comma ∨ s = .gt →
      Reads self (toks t ++ .symbol s :: vs) (.symbol s :: vs) (· = t) names)
    (h : Reads self vs us (· = result) names) :
    Reads (rule env self) (.keyword .function :: .symbol .lt :: (Token.commas (params.map toks) ++
      .symbol .gt :: .symbol .arrow :: vs)) us (· = function params result) names := by
  refine .accepted ((Reads.expect _).next ((angleList_reads hgt hparams).next ?_))
  exact (Reads.expect _).next ((Reads.expect _).next (h.next (.pure rfl)))

end Rule

section Tokens

open Parse

variable {env : Setting} {us : List Token}

theorem head_tokens (t : TypeExpr) (vs : List Token) :
    (tokens t ++ vs).head? ≠ some (.symbol .gt) := by
  cases t <;> simp [tokens]

/-- A name of one word is read alone. -/
theorem namedRule_reads {name : String} (hfollows : (named name).Follows us) :
    Reads (namedRule env) (.name name :: us) us (· = named name) := by
  refine .get fun c hc => ?_
  have hwords : words (c.rest.take maxWords) = [name] := by
    rw [Reads.words_of_holds hc]
    have hcloses := hfollows.closes
    cases us with
    | nil => rfl
    | cons u us =>
      have hu : u.word? = none := by
        simp only [List.head?_cons, List.mem_cons, Option.some.injEq, reduceCtorEq, false_or,
          List.not_mem_nil, or_false] at hcloses
        rcases hcloses with rfl | rfl | rfl <;> rfl
      simp [Reads.wordsOf, maxWords, hu]
  simp only [nameAhead, hwords, longest]
  exact (Reads.consume 1).next (.pure rfl)

theorem field_reads {self : Parse TypeExpr} {f : String × TypeExpr} {vs : List Token}
    (h : Reads self (tokens f.2 ++ vs) vs (· = f.2)) :
    Reads (field env self) (fieldToken f ++ vs) vs (· = f) :=
  (Reads.wholeBinder (by simp [Token.word?])).next ((Reads.expect _).next (h.next (.pure rfl)))

end Tokens

/-! ### All types -/

theorem readWithin_tokens (env : Setting) {n : Nat} {t : TypeExpr} {us : List Token}
    (hn : t.tokens.length ≤ n) (hfollows : t.Follows us) :
    Parse.Reads (readWithin env n) (t.tokens ++ us) us (· = t) := by
  induction n generalizing t us with
  | zero => cases t <;> simp [tokens] at hn
  | succ n ih =>
    cases t with
    | named name =>
      have hlt : us.head? ≠ some (.symbol .lt) := by
        intro h
        have hcloses := hfollows.closes
        simp [h] at hcloses
      refine rule_named rfl hlt (fun h => hfollows.noAngle ?_) (namedRule_reads hfollows)
      simpa [endsInRange] using h
    | list element =>
      have htokens : tokens (list element) ++ us =
          .name "list" :: .symbol .lt :: (tokens element ++ .symbol .gt :: us) := by
        simp [tokens]
      simp only [tokens, List.length_cons, List.length_append] at hn
      rw [htokens]
      exact rule_list (ih (by omega) (follows_symbol (.inr rfl)))
    | context fields =>
      have htokens : tokens (context fields) ++ us = .name "context" :: .symbol .lt ::
          (Token.commas (fields.map fieldToken) ++ .symbol .gt :: us) := by
        simp [tokens, fieldTokens_eq]
      rw [htokens]
      refine rule_context (by simp [fieldToken]) fun f hf s vs hs => field_reads ?_
      refine ih ?_ (follows_symbol hs)
      have hle := Token.length_le_commas (List.mem_map_of_mem (f := fieldToken) hf)
      simp only [tokens, fieldTokens_eq, fieldToken, List.length_cons, List.length_append] at hn hle
      omega
    | range element s e =>
      have htokens : tokens (range element s e) ++ us = .name "range" ::
          (boundTokens .lbracket .lparen s ++ boundTokens .rbracket .rparen e ++
            .symbol .lt :: (tokens element ++ .symbol .gt :: us)) := by
        simp [tokens]
      simp only [tokens, List.length_cons, List.length_append] at hn
      rw [htokens]
      exact rule_range (ih (by omega) (follows_symbol (.inr rfl)))
    | function params result =>
      have htokens : tokens (function params result) ++ us = .keyword .function :: .symbol .lt ::
          (Token.commas (params.map tokens) ++ .symbol .gt :: .symbol .arrow ::
            (tokens result ++ us)) := by
        simp [tokens, listTokens_eq]
      simp only [tokens, listTokens_eq, List.length_cons, List.length_append] at hn
      rw [htokens]
      refine rule_function (fun t _ vs => head_tokens t vs) (fun t ht s vs hs => ih ?_
        (follows_symbol hs)) (ih (by omega) ⟨hfollows.closes, hfollows.noAngle⟩)
      have hle := Token.length_le_commas (List.mem_map_of_mem (f := tokens) ht)
      omega

/-- **Types are read back.** -/
theorem read_tokens (env : Setting) {t : TypeExpr} {us : List Token} (hfollows : t.Follows us) :
    Parse.Reads (read env) (t.tokens ++ us) us (· = t) := by
  refine Parse.Reads.remaining.next (readWithin_tokens env ?_ hfollows)
  rw [List.length_append]
  omega

end TypeExpr

end Feel
