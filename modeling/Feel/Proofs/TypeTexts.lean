import Feel.Proofs.TokenPlaces
import Feel.Proofs.WrittenTypes

/-!
# Texts of types

The text of a type is written without blanks, apart from those behind commas and colons and those
inside names. Scanning it gives the tokens of the type, with a token for each word of a name: words
end before brackets, and of the symbols none is taken together with the next.

A type behind `instance of` is read from its own text, however it is nested, if its names can be
read: names of one word and null always, names of several words if they are known, and names of
fields in any case, since there a colon ends them.

* `Token.phrase`, `Token.isPhrase`: the words of a name.
* `Token.Scanned`: characters and the tokens that are scanned from them.
* `TypeExpr.spelled`: the tokens of a type with its names in words.
* `TypeExpr.isReadable`: types whose names can be read.
* `TypeExpr.scans_text`: the tokens of the text of a type.
* `Parse.longest_of_known`: words are taken together as far as they make a known name.
* `TypeExpr.read_spelled`: the tokens of a type are read as the type.
* `Surface.parseExpression_instanceOf`: a type is read back from its text.
-/

namespace Feel

/-! ## Scanning types -/

namespace Token

/-! ### Names of several words -/

/-- The words between single blanks. -/
def phrase (s : String) : List String := (s.toList.splitOn ' ').map String.ofList

/-- The token of a word, a keyword or a name. -/
def ofWord (w : String) : Token := (Keyword.ofText? w).elim (name w) keyword

/-- Whether a text is one word, be it a name or a keyword. -/
def isOneWord (w : String) : Bool := isNameStart (w.toList.headD ' ') && w.toList.all isNamePart

/-- Whether a text is a word that can be part of a name. -/
def isNameWord (w : String) : Bool := isOneWord w && (ofWord w).word?.isSome

/-- Whether a text consists of words that can be parts of a name. -/
def isPhrase (s : String) : Bool := (phrase s).all isNameWord

example : isPhrase "days and time duration" = true ∧ isPhrase "if so" = false ∧
    isPhrase "two  blanks" = false := by decide +kernel

theorem toList_eq_phrase (s : String) :
    s.toList = [' '].intercalate ((phrase s).map String.toList) := by
  have hmap : (phrase s).map String.toList = s.toList.splitOn ' ' := by
    rw [phrase, List.map_map]
    exact (List.map_congr_left fun cs _ => String.toList_ofList).trans (List.map_id _)
  rw [hmap, List.intercalate_splitOn]

theorem intercalate_phrase (s : String) : " ".intercalate (phrase s) = s := by
  rw [← String.toList_inj, String.toList_intercalate, toList_eq_phrase s]
  rfl

theorem phrase_ne_nil (s : String) : phrase s ≠ [] := by
  rw [phrase, ne_eq, List.map_eq_nil_iff]
  exact List.splitOn_ne_nil _ _

theorem word?_ofWord {w : String} (h : isNameWord w = true) : (ofWord w).word? = some w := by
  simp only [isNameWord, Bool.and_eq_true] at h
  obtain ⟨-, hword⟩ := h
  cases hk : Keyword.ofText? w with
  | none => rw [ofWord, hk]; rfl
  | some k =>
    have htext : k.text = w := by
      have hfound := List.find?_some (p := fun k : Keyword => k.text == w) hk
      exact eq_of_beq hfound
    rw [ofWord, hk, Option.elim_some, Token.word?] at hword ⊢
    by_cases hkword : k.isWord = true
    · rw [if_pos hkword, htext]
    · simp [hkword] at hword

/-- A token for each word of a name. -/
def inWords : Token → List Token
  | name s => (phrase s).map ofWord
  | t => [t]

theorem commas_inWords (items : List (List Token)) :
    (commas items).flatMap inWords = commas (items.map (List.flatMap inWords)) := by
  have hafter (items : List (List Token)) :
      (afterCommas items).flatMap inWords = afterCommas (items.map (List.flatMap inWords)) := by
    induction items with
    | nil => rfl
    | cons item items ih =>
      rw [afterCommas, List.flatMap_cons, List.flatMap_append, ih]
      rfl
  cases items with
  | nil => rfl
  | cons item items =>
    rw [commas, List.flatMap_append, hafter]
    rfl

/-! ### Scanning -/

/-- The tokens of a text, whatever stands before it; there are no comments. -/
structure Scanned (cs : List Char) (ts : List Token) : Prop where
  plain : ∀ text, .comment text ∉ ts
  lexemes : ∀ n start, cs.length ≤ n →
    ∃ ls, scanFrom n start cs = .ok ls ∧ ls.map (·.token) = ts

theorem Scanned.nil : Scanned [] [] := by
  refine ⟨by simp, fun n start _ => ?_⟩
  cases n with
  | zero => exact ⟨[], rfl, rfl⟩
  | succ n => exact ⟨[], rfl, rfl⟩

theorem Scanned.next {cs rest : List Char} {t : Token} {ts : List Token}
    (hnext : next cs = .ok (t, rest)) (hhead : isSeparator (cs.headD ' ') = false)
    (ht : ∀ text, t ≠ .comment text) (h : Scanned rest ts) : Scanned cs (t :: ts) := by
  refine ⟨fun text => ?_, fun n start hn => ?_⟩
  · rw [List.mem_cons, not_or]
    exact ⟨(ht text).symm, h.plain text⟩
  · have hshorter := (leaves_of_next hnext).shorter
    obtain ⟨m, rfl⟩ : ∃ m, n = m + 1 := ⟨n - 1, by omega⟩
    cases cs with
    | nil => cases hhead
    | cons c cs =>
      have hc : ¬isSeparator c = true := by simpa using hhead
      generalize hstop : start + byteSize [] + (byteSize (c :: cs) - byteSize rest) = stop
      obtain ⟨ls, hls, hmap⟩ := h.lexemes m stop (by omega)
      refine ⟨⟨t, start + byteSize [], stop⟩ :: ls, ?_, by rw [List.map_cons, hmap]⟩
      rw [scanFrom, List.takeWhile_cons_of_neg hc, List.dropWhile_cons_of_neg hc, hnext]
      dsimp only
      rw [hstop, hls]
      rfl

theorem Scanned.blank {cs : List Char} {ts : List Token} (h : Scanned cs ts) :
    Scanned (' ' :: cs) ts := by
  refine ⟨h.plain, fun n start hn => ?_⟩
  rw [List.length_cons] at hn
  obtain ⟨m, rfl⟩ : ∃ m, n = m + 1 := ⟨n - 1, by omega⟩
  have hsize : start + byteSize (' ' :: cs.takeWhile isSeparator) =
      start + 1 + byteSize (cs.takeWhile isSeparator) := by
    simp only [byteSize_eq, String.utf8Len_cons]
    have : ' '.utf8Size = 1 := rfl
    omega
  have hskip : scanFrom (m + 1) start (' ' :: cs) = scanFrom (m + 1) (start + 1) cs := by
    simp only [scanFrom, List.takeWhile_cons_of_pos (show isSeparator ' ' = true by decide),
      List.dropWhile_cons_of_pos (show isSeparator ' ' = true by decide), hsize]
  rw [hskip]
  exact h.lexemes (m + 1) (start + 1) (by omega)

/-- The tokens of a whole text, with no comments before them or behind. -/
theorem Scanned.pieces {source : String} {ts : List Token} (h : Scanned source.toList ts) :
    ∃ lexemes pieces, scan source = .ok lexemes ∧ Piece.ofLexemes lexemes [] = (pieces, []) ∧
      pieces.map (·.token) = ts ∧ ∀ p ∈ pieces, p.comments = [] := by
  obtain ⟨lexemes, hscan, htokens⟩ := h.lexemes source.length 0 (by rw [String.length_toList])
  obtain ⟨pieces, hpieces, hmap, hcomments⟩ := ofLexemes_plain (htokens ▸ h.plain)
  exact ⟨lexemes, pieces, hscan, hpieces, hmap.trans htokens, hcomments⟩

theorem not_separator_of_nameStart {c : Char} (h : isNameStart c = true) :
    isSeparator c = false := by
  by_contra hc
  simp only [isSeparator, Bool.not_eq_false, Bool.or_eq_true, beq_iff_eq] at hc
  rcases hc with ((rfl | rfl) | rfl) | rfl <;> exact absurd h (by decide)

theorem headD_append_of_nameStart {cs tail : List Char} (h : isNameStart (cs.headD ' ') = true) :
    (cs ++ tail).headD ' ' = cs.headD ' ' := by
  cases cs with
  | nil => exact absurd h (by decide)
  | cons c cs => rfl

theorem scanned_word {w : String} {tail : List Char} {us : List Token} (hw : isOneWord w = true)
    (htail : isNamePart (tail.headD ' ') = false) (h : Scanned tail us) :
    Scanned (w.toList ++ tail) (ofWord w :: us) := by
  obtain ⟨hstart, hparts⟩ := Bool.and_eq_true_iff.mp hw
  have hnext := next_word hstart hparts htail
  rw [String.ofList_toList] at hnext
  refine .next hnext ?_ (fun text => ?_) h
  · rw [headD_append_of_nameStart hstart]
    exact not_separator_of_nameStart hstart
  · rw [ofWord]
    cases Keyword.ofText? w <;> simp

/-- The symbols in the texts of types. -/
def typeSymbols : List Symbol :=
  [.lt, .gt, .comma, .colon, .lparen, .rparen, .lbracket, .rbracket, .arrow]

/-- What begins like no other token is a symbol. -/
theorem next_of_scanSymbol {c : Char} {cs : List Char} {out : Token × List Char}
    (hc : c ∉ ['"', '/', '.'] ∧ c.isDigit = false ∧ isNameStart c = false)
    (h : scanSymbol? (c :: cs) = some out) : next (c :: cs) = .ok out := by
  obtain ⟨hc, hdigit, hname⟩ := hc
  simp only [List.mem_cons, List.not_mem_nil, or_false, not_or] at hc
  unfold next
  split
  · next heq => exact absurd (List.cons.inj heq).1 hc.1
  · next heq => exact absurd (List.cons.inj heq).1 hc.2.1
  · next heq => exact absurd (List.cons.inj heq).1 hc.2.1
  · simp [hdigit, hname, hc.2.2, h]

/-- An angle is read alone, if no equals sign follows. -/
theorem next_angle {s : Symbol} {c : Char} {cs : List Char} (hs : s = .lt ∨ s = .gt)
    (hc : c ≠ '=') : next (s.text.toList ++ c :: cs) = .ok (symbol s, c :: cs) := by
  have hne : ('=' == c) = false := by simpa using Ne.symm hc
  have hprefix : (fun u : Symbol => u.text.toList.isPrefixOf (s.text.toList ++ c :: cs)) =
      (· == s) := by
    funext u
    -- of the symbols of two characters only one begins like the angle
    by_cases hu : u = .le ∨ u = .ge
    · have htext : u.text.toList = [u.text.toList.headD ' ', '='] := by
        rcases hu with rfl | rfl <;> rfl
      have hangle : s.text.toList = [s.text.toList.headD ' '] := by rcases hs with rfl | rfl <;> rfl
      rw [htext, hangle]
      have hus : (u == s) = false := by
        rcases hu with rfl | rfl <;> rcases hs with rfl | rfl <;> rfl
      rw [hus, List.singleton_append, List.isPrefixOf_cons_cons, List.isPrefixOf_cons_cons, hne,
        Bool.false_and, Bool.and_false]
    · rcases hs with rfl | rfl <;> cases u <;> first | rfl | exact absurd (by decide) hu
  have hscan : scanSymbol? (s.text.toList ++ c :: cs) = some (symbol s, c :: cs) := by
    rw [scanSymbol?, hprefix]
    rcases hs with rfl | rfl <;> rfl
  rcases hs with rfl | rfl
  · exact next_of_scanSymbol (by decide) hscan
  · exact next_of_scanSymbol (by decide) hscan

theorem scanned_symbol {s : Symbol} {tail : List Char} {us : List Token} (hs : s ∈ typeSymbols)
    (htail : tail.headD ' ' ≠ '=') (h : Scanned tail us) :
    Scanned (s.text.toList ++ tail) (.symbol s :: us) := by
  have hnext : next (s.text.toList ++ tail) = .ok (symbol s, tail) := by
    cases tail with
    | nil => simpa using next_symbol s (show Ends [] from rfl)
    | cons c cs =>
      simp only [typeSymbols, List.mem_cons, List.not_mem_nil, or_false] at hs
      rcases hs with rfl | rfl | rfl | rfl | rfl | rfl | rfl | rfl | rfl
      · exact next_angle (.inl rfl) htail
      · exact next_angle (.inr rfl) htail
      all_goals rfl
  refine .next hnext ?_ (by simp) h
  cases s <;> rfl

theorem scanned_phrase {ws : List String} (hne : ws ≠ []) (hws : ∀ w ∈ ws, isOneWord w = true)
    {tail : List Char} {us : List Token} (htail : isNamePart (tail.headD ' ') = false)
    (h : Scanned tail us) :
    Scanned ([' '].intercalate (ws.map String.toList) ++ tail) (ws.map ofWord ++ us) := by
  induction ws with
  | nil => exact absurd rfl hne
  | cons w ws ih =>
    obtain ⟨hw, hws⟩ := List.forall_mem_cons.mp hws
    cases ws with
    | nil =>
      rw [List.map_singleton, List.intercalate_singleton]
      exact scanned_word hw htail h
    | cons v vs =>
      rw [List.map_cons, List.map_cons, List.intercalate_cons_cons, List.append_assoc,
        List.append_assoc, List.map_cons, List.cons_append]
      exact scanned_word hw rfl (ih (List.cons_ne_nil v vs) hws).blank

/-! ### Texts inside types -/

/-- What stands behind a word or a symbol does not belong to it. -/
structure Apart (tail : List Char) : Prop where
  not_part : isNamePart (tail.headD ' ') = false
  ne_eq : tail.headD ' ' ≠ '='

/-- What stands behind a type: the end of the text, a comma or a closing angle. -/
def Closes (tail : List Char) : Prop := tail.headD ' ' ∈ [' ', ',', '>']

theorem Closes.apart {tail : List Char} (h : Closes tail) : Apart tail := by
  simp only [Closes, List.mem_cons, List.not_mem_nil, or_false] at h
  constructor <;> rcases h with h | h | h <;> rw [h] <;> decide

/-- A text that begins with a word and is scanned as some tokens, where it stands in a type. -/
structure Scans (s : String) (ts : List Token) : Prop where
  head : isNameStart (s.toList.headD ' ') = true
  scanned : ∀ tail us, Closes tail → Scanned tail us → Scanned (s.toList ++ tail) (ts ++ us)

/-- A name of several words. -/
theorem scans_phrase {s : String} (h : ∀ w ∈ phrase s, isOneWord w = true) :
    Scans s ((phrase s).map ofWord) := by
  refine ⟨?_, fun tail us htail hus => ?_⟩
  · rw [toList_eq_phrase]
    cases hphrase : phrase s with
    | nil => exact absurd hphrase (phrase_ne_nil s)
    | cons w ws =>
      rw [hphrase] at h
      have hw := (Bool.and_eq_true_iff.mp (h w List.mem_cons_self)).1
      cases ws with
      | nil => rwa [List.map_singleton, List.intercalate_singleton]
      | cons v vs =>
        rw [List.map_cons, List.map_cons, List.intercalate_cons_cons, List.append_assoc,
          headD_append_of_nameStart hw]
        exact hw
  · rw [toList_eq_phrase]
    exact scanned_phrase (phrase_ne_nil s) h htail.apart.not_part hus

theorem Scans.head_append {s : String} {ts : List Token} (h : Scans s ts) (tail : List Char) :
    (s.toList ++ tail).headD ' ' ≠ '=' := by
  rw [headD_append_of_nameStart h.head]
  intro heq
  exact absurd (heq ▸ h.head) (by decide)

/-- Items with a comma and a blank between two of them, up to a closing angle. -/
theorem scanned_items {texts : List String} {items : List (List Token)}
    (h : List.Forall₂ Scans texts items) {tail : List Char} {us : List Token}
    (hclose : Scanned ('>' :: tail) us) :
    Scanned ((", ".intercalate texts).toList ++ '>' :: tail) (commas items ++ us) ∧
      ((", ".intercalate texts).toList ++ '>' :: tail).headD ' ' ≠ '=' := by
  induction h with
  | nil => exact ⟨hclose, show '>' ≠ '=' by decide⟩
  | @cons s ts texts items hs hrest ih =>
    cases hrest with
    | nil =>
      rw [String.intercalate_singleton, commas, afterCommas, List.append_nil]
      exact ⟨hs.scanned _ _ (by simp [Closes]) hclose, hs.head_append _⟩
    | @cons s' ts' texts items hs' hrest =>
      have htext : (", ".intercalate (s :: s' :: texts)).toList ++ '>' :: tail = s.toList ++
          ',' :: ' ' :: ((", ".intercalate (s' :: texts)).toList ++ '>' :: tail) := by
        simp [String.intercalate_cons_cons]
      have htokens : commas (ts :: ts' :: items) ++ us =
          ts ++ .symbol .comma :: (commas (ts' :: items) ++ us) := by
        simp [commas, afterCommas]
      rw [htext, htokens]
      have hcomma := scanned_symbol (s := .comma) (by decide) (by simp) ih.1.blank
      exact ⟨hs.scanned _ _ (by simp [Closes]) hcomma, hs.head_append _⟩

end Token

namespace TypeExpr

/-! ### Types -/

/-- The tokens of a type with a token for each word of a name. -/
def spelled (t : TypeExpr) : List Token := t.tokens.flatMap Token.inWords

mutual

/-- Whether a type can be read from its text. A name of a type is null, a word, or a known name of
a few words; a name of a field may have any number of words. -/
def isReadable (known : List String) : TypeExpr → Bool
  | named name =>
    name == "null" || (Token.isPhrase name && ((Token.phrase name).length == 1 ||
      (decide ((Token.phrase name).length ≤ Parse.maxWords) &&
        ((Ty.byName? name).isSome || known.contains name))))
  | list element => isReadable known element
  | context fields => areFieldsReadable known fields
  | range element _ _ => isReadable known element
  | function params result => areReadable known params && isReadable known result

def areReadable (known : List String) : List TypeExpr → Bool
  | [] => true
  | t :: ts => isReadable known t && areReadable known ts

def areFieldsReadable (known : List String) : List (String × TypeExpr) → Bool
  | [] => true
  | (name, t) :: fields =>
    Token.isPhrase name && isReadable known t && areFieldsReadable known fields

end

/-! #### Tokens in words -/

theorem spelled_list (element : TypeExpr) :
    (list element).spelled =
      .name "list" :: .symbol .lt :: (element.spelled ++ [.symbol .gt]) := by
  have hlist : Token.inWords (.name "list") = [.name "list"] := by decide +kernel
  simp only [spelled, tokens, List.flatMap_cons, List.flatMap_append, hlist]
  rfl

theorem spelled_range (element : TypeExpr) (s e : Option Bool) :
    (range element s e).spelled = .name "range" :: (boundTokens .lbracket .lparen s ++
      boundTokens .rbracket .rparen e ++ .symbol .lt :: (element.spelled ++ [.symbol .gt])) := by
  have hrange : Token.inWords (.name "range") = [.name "range"] := by decide +kernel
  have hbound (i x : Symbol) (b : Option Bool) :
      (boundTokens i x b).flatMap Token.inWords = boundTokens i x b := by
    rcases b with _ | _ | _ <;> rfl
  simp only [spelled, tokens, List.flatMap_cons, List.flatMap_append, hrange, hbound]
  rfl

/-- The tokens of a field with a token for each word of a name. -/
def spelledField (field : String × TypeExpr) : List Token :=
  (Token.phrase field.1).map Token.ofWord ++ .symbol .colon :: field.2.spelled

theorem spelled_context (fields : List (String × TypeExpr)) :
    (context fields).spelled = .name "context" :: .symbol .lt ::
      (Token.commas (fields.map spelledField) ++ [.symbol .gt]) := by
  have hcontext : Token.inWords (.name "context") = [.name "context"] := by decide +kernel
  simp only [spelled, tokens, fieldTokens_eq, List.flatMap_cons, List.flatMap_append, hcontext,
    Token.commas_inWords, List.map_map]
  rfl

theorem spelled_function (params : List TypeExpr) (result : TypeExpr) :
    (function params result).spelled = .keyword .function :: .symbol .lt ::
      (Token.commas (params.map spelled) ++ .symbol .gt :: .symbol .arrow :: result.spelled) := by
  simp only [spelled, tokens, listTokens_eq, List.flatMap_cons, List.flatMap_append,
    Token.commas_inWords, List.map_map]
  rfl

/-! #### Scanning a type -/

section Scanning

variable {known : List String} {s : String} {ts : List Token}

theorem isOneWord_of_isPhrase (h : Token.isPhrase s = true) :
    ∀ w ∈ Token.phrase s, Token.isOneWord w = true :=
  fun w hw => (Bool.and_eq_true_iff.mp (List.all_eq_true.mp h w hw)).1

theorem scans_named (h : isReadable known (named s) = true) :
    Token.Scans s (named s).spelled := by
  have hspelled : (named s).spelled = (Token.phrase s).map Token.ofWord := List.append_nil _
  rw [hspelled]
  refine Token.scans_phrase fun w hw => ?_
  rcases Bool.or_eq_true_iff.mp h with hnull | hphrase
  · obtain rfl := eq_of_beq hnull
    have hwords : ∀ w ∈ Token.phrase "null", Token.isOneWord w = true := by decide +kernel
    exact hwords w hw
  · exact isOneWord_of_isPhrase (Bool.and_eq_true_iff.mp hphrase).1 w hw

/-- A word and an opening angle. -/
theorem scanned_open {w : String} {tail : List Char} {us : List Token}
    (hw : Token.isOneWord w = true) (htail : tail.headD ' ' ≠ '=') (h : Token.Scanned tail us) :
    Token.Scanned (w.toList ++ '<' :: tail) (Token.ofWord w :: .symbol .lt :: us) :=
  Token.scanned_word hw rfl (Token.scanned_symbol (s := .lt) (by decide) htail h)

theorem scanned_close {tail : List Char} {us : List Token} (htail : Token.Closes tail)
    (h : Token.Scanned tail us) : Token.Scanned ('>' :: tail) (.symbol .gt :: us) :=
  Token.scanned_symbol (s := .gt) (by decide) htail.apart.ne_eq h

theorem closes_gt (tail : List Char) : Token.Closes ('>' :: tail) := by simp [Token.Closes]

theorem scans_list (h : Token.Scans s ts) :
    Token.Scans ("list<" ++ s ++ ">") (.name "list" :: .symbol .lt :: (ts ++ [.symbol .gt])) := by
  have htext : ("list<" ++ s ++ ">").toList = "list".toList ++ '<' :: (s.toList ++ ['>']) := by
    simp only [String.toList_append, List.append_assoc]
    rfl
  have hname : Token.ofWord "list" = .name "list" := by decide +kernel
  refine ⟨by rw [htext]; rfl, fun tail us htail hus => ?_⟩
  have hinner := h.scanned _ _ (closes_gt tail) (scanned_close htail hus)
  have hopen := scanned_open (w := "list") (by decide +kernel) (h.head_append _) hinner
  rw [hname] at hopen
  simpa only [htext, List.append_assoc, List.cons_append, List.nil_append] using hopen

theorem scans_field {name : String} (hname : Token.isPhrase name = true) (h : Token.Scans s ts) :
    Token.Scans (name ++ ": " ++ s)
      ((Token.phrase name).map Token.ofWord ++ .symbol .colon :: ts) := by
  have hphrase := Token.scans_phrase (isOneWord_of_isPhrase hname)
  have htext : (name ++ ": " ++ s).toList = name.toList ++ ':' :: ' ' :: s.toList := by
    simp only [String.toList_append, List.append_assoc]
    rfl
  refine ⟨?_, fun tail us htail hus => ?_⟩
  · rw [htext, Token.headD_append_of_nameStart hphrase.head]
    exact hphrase.head
  · have hcolon : Token.Scanned (':' :: ' ' :: (s.toList ++ tail)) (.symbol .colon :: (ts ++ us)) :=
      Token.scanned_symbol (s := .colon) (by decide) (by simp) (h.scanned tail us htail hus).blank
    have hwords := Token.scanned_phrase (Token.phrase_ne_nil name)
      (isOneWord_of_isPhrase hname) rfl hcolon
    rw [← Token.toList_eq_phrase] at hwords
    simpa only [htext, List.append_assoc, List.cons_append] using hwords

theorem scans_context {texts : List String} {items : List (List Token)}
    (h : List.Forall₂ Token.Scans texts items) :
    Token.Scans ("context<" ++ ", ".intercalate texts ++ ">")
      (.name "context" :: .symbol .lt :: (Token.commas items ++ [.symbol .gt])) := by
  have htext : ("context<" ++ ", ".intercalate texts ++ ">").toList =
      "context".toList ++ '<' :: ((", ".intercalate texts).toList ++ ['>']) := by
    simp only [String.toList_append, List.append_assoc]
    rfl
  have hname : Token.ofWord "context" = .name "context" := by decide +kernel
  refine ⟨by rw [htext]; rfl, fun tail us htail hus => ?_⟩
  obtain ⟨hitems, hhead⟩ := Token.scanned_items h (scanned_close htail hus)
  have hopen := scanned_open (w := "context") (by decide +kernel) hhead hitems
  rw [hname] at hopen
  simpa only [htext, List.append_assoc, List.cons_append, List.nil_append] using hopen

theorem scans_function {texts : List String} {items : List (List Token)}
    (hparams : List.Forall₂ Token.Scans texts items) (h : Token.Scans s ts) :
    Token.Scans ("function<" ++ ", ".intercalate texts ++ ">->" ++ s) (.keyword .function ::
      .symbol .lt :: (Token.commas items ++ .symbol .gt :: .symbol .arrow :: ts)) := by
  have htext : ("function<" ++ ", ".intercalate texts ++ ">->" ++ s).toList =
      "function".toList ++ '<' :: ((", ".intercalate texts).toList ++
        '>' :: '-' :: '>' :: s.toList) := by
    simp only [String.toList_append, List.append_assoc]
    rfl
  have hname : Token.ofWord "function" = .keyword .function := by decide +kernel
  refine ⟨by rw [htext]; rfl, fun tail us htail hus => ?_⟩
  have harrow : Token.Scanned ('-' :: '>' :: (s.toList ++ tail)) (.symbol .arrow :: (ts ++ us)) :=
    Token.scanned_symbol (s := .arrow) (by decide) (h.head_append tail)
      (h.scanned tail us htail hus)
  have hgt : Token.Scanned ('>' :: '-' :: '>' :: (s.toList ++ tail))
      (.symbol .gt :: .symbol .arrow :: (ts ++ us)) :=
    Token.scanned_symbol (s := .gt) (by decide) (by simp) harrow
  obtain ⟨hitems, hhead⟩ := Token.scanned_items hparams hgt
  have hopen := scanned_open (w := "function") (by decide +kernel) hhead hitems
  rw [hname] at hopen
  simpa only [htext, List.append_assoc, List.cons_append] using hopen

/-- The brackets that can say whether a bound belongs to a range. -/
def brackets : List Symbol := [.lbracket, .rbracket, .lparen, .rparen]

theorem scanned_bound {i x : Symbol} (hi : i ∈ brackets) (hx : x ∈ brackets) (b : Option Bool)
    {tail : List Char} {us : List Token} (htail : Token.Apart tail) (h : Token.Scanned tail us) :
    Token.Scanned ((boundText i.text x.text b).toList ++ tail) (boundTokens i x b ++ us) ∧
      Token.Apart ((boundText i.text x.text b).toList ++ tail) := by
  have hbracket {u : Symbol} (hu : u ∈ brackets) :
      u ∈ Token.typeSymbols ∧ Token.Apart (u.text.toList ++ tail) := by
    simp only [brackets, List.mem_cons, List.not_mem_nil, or_false] at hu
    rcases hu with rfl | rfl | rfl | rfl
    all_goals exact ⟨by decide, rfl, by simp [Symbol.text]⟩
  rcases b with _ | _ | _
  · exact ⟨h, htail⟩
  · exact ⟨Token.scanned_symbol (hbracket hx).1 htail.ne_eq h, (hbracket hx).2⟩
  · exact ⟨Token.scanned_symbol (hbracket hi).1 htail.ne_eq h, (hbracket hi).2⟩

theorem scans_range (start stop : Option Bool) (h : Token.Scans s ts) :
    Token.Scans ("range" ++ boundText "[" "(" start ++ boundText "]" ")" stop ++ "<" ++ s ++ ">")
      (.name "range" :: (boundTokens .lbracket .lparen start ++
        boundTokens .rbracket .rparen stop ++ .symbol .lt :: (ts ++ [.symbol .gt]))) := by
  have htext : ("range" ++ boundText "[" "(" start ++ boundText "]" ")" stop ++ "<" ++ s ++
      ">").toList = "range".toList ++ ((boundText "[" "(" start).toList ++
        ((boundText "]" ")" stop).toList ++ '<' :: (s.toList ++ ['>']))) := by
    simp only [String.toList_append, List.append_assoc]
    rfl
  have hname : Token.ofWord "range" = .name "range" := by decide +kernel
  refine ⟨by rw [htext]; rfl, fun tail us htail hus => ?_⟩
  have hinner := h.scanned _ _ (closes_gt tail) (scanned_close htail hus)
  have hangle : Token.Scanned ('<' :: (s.toList ++ '>' :: tail))
      (.symbol .lt :: (ts ++ .symbol .gt :: us)) :=
    Token.scanned_symbol (s := .lt) (by decide) (h.head_append _) hinner
  obtain ⟨hstop, hapart⟩ := scanned_bound (i := .rbracket) (x := .rparen) (by decide) (by decide)
    stop ⟨rfl, by simp⟩ hangle
  obtain ⟨hstart, hapart⟩ := scanned_bound (i := .lbracket) (x := .lparen) (by decide) (by decide)
    start hapart hstop
  have hword := Token.scanned_word (w := "range") (by decide +kernel) hapart.not_part hstart
  rw [hname] at hword
  simpa only [htext, Symbol.text, List.append_assoc, List.cons_append, List.nil_append] using hword

end Scanning

mutual

/-- **The text of a type is scanned as its tokens**, wherever it stands. -/
theorem scans_text (known : List String) :
    ∀ t : TypeExpr, t.isReadable known = true → Token.Scans t.text t.spelled
  | named _, h => scans_named h
  | list element, h => by
    rw [spelled_list]
    exact scans_list (scans_text known element h)
  | context fields, h => by
    rw [spelled_context]
    exact scans_context (scans_fieldTexts known fields h)
  | range element start stop, h => by
    rw [spelled_range]
    exact scans_range start stop (scans_text known element h)
  | function params result, h => by
    obtain ⟨hparams, hresult⟩ := Bool.and_eq_true_iff.mp h
    rw [spelled_function]
    exact scans_function (scans_texts known params hparams) (scans_text known result hresult)
termination_by structural t => t

theorem scans_texts (known : List String) :
    ∀ ts : List TypeExpr, areReadable known ts = true →
      List.Forall₂ Token.Scans (texts ts) (ts.map spelled)
  | [], _ => .nil
  | t :: ts, h => by
    obtain ⟨ht, hts⟩ := Bool.and_eq_true_iff.mp h
    exact .cons (scans_text known t ht) (scans_texts known ts hts)
termination_by structural ts => ts

theorem scans_fieldTexts (known : List String) :
    ∀ fields : List (String × TypeExpr), areFieldsReadable known fields = true →
      List.Forall₂ Token.Scans (fieldTexts fields) (fields.map spelledField)
  | [], _ => .nil
  | (name, t) :: fields, h => by
    obtain ⟨hfield, hfields⟩ := Bool.and_eq_true_iff.mp h
    obtain ⟨hname, ht⟩ := Bool.and_eq_true_iff.mp hfield
    exact .cons (scans_field hname (scans_text known t ht)) (scans_fieldTexts known fields hfields)
termination_by structural fields => fields

end

end TypeExpr

/-! ## Reading types back -/

/-! ### Names of several words -/

namespace Token

theorem words_phrase {s : String} (h : isPhrase s = true) :
    ∀ w ∈ phrase s, (ofWord w).word? = some w :=
  fun w hw => word?_ofWord (List.all_eq_true.mp h w hw)

/-- A name does not begin with a symbol. -/
theorem head_phrase (s : String) (sym : Symbol) (us : List Token) :
    ((phrase s).map ofWord ++ us).head? ≠ some (.symbol sym) := by
  cases hphrase : phrase s with
  | nil => exact absurd hphrase (phrase_ne_nil s)
  | cons w ws =>
    rw [List.map_cons, List.cons_append, List.head?_cons, ofWord]
    cases Keyword.ofText? w <;> simp

/-- Two words or more have a blank between them. -/
theorem blank_of_phrase {s : String} (h : (phrase s).length ≠ 1) : ' ' ∈ s.toList := by
  have hs := toList_eq_phrase s
  cases hphrase : phrase s with
  | nil => exact absurd hphrase (phrase_ne_nil s)
  | cons w ws =>
    rw [hphrase] at h hs
    cases ws with
    | nil => exact absurd rfl h
    | cons v vs =>
      rw [hs, List.map_cons, List.map_cons, List.intercalate_cons_cons]
      simp

end Token

namespace Parse

/-- The words that make a known name are taken together. -/
theorem longest_of_known {isKnown : String → Bool} (best : String × Nat) (candidate : String)
    (count : Nat) {ws : List String} (hne : ws ≠ [])
    (h : isKnown (" ".intercalate (candidate :: ws)) = true) :
    longest isKnown best candidate count ws =
      (" ".intercalate (candidate :: ws), count + ws.length) := by
  induction ws generalizing best candidate count with
  | nil => exact absurd rfl hne
  | cons w ws ih =>
    have hjoin : " ".intercalate (candidate :: w :: ws) =
        " ".intercalate ((candidate ++ " " ++ w) :: ws) := by
      cases ws with
      | nil => simp [String.intercalate_cons_cons]
      | cons v vs => simp [String.intercalate_cons_cons, String.append_assoc]
    rw [hjoin] at h ⊢
    cases ws with
    | nil =>
      rw [String.intercalate_singleton] at h ⊢
      rw [longest, h]
      rfl
    | cons v vs =>
      rw [longest, ih _ _ _ (List.cons_ne_nil v vs) h]
      simp only [List.length_cons, Prod.mk.injEq, true_and]
      omega

namespace Reads

variable {env : Setting} {us : List Token} {names : List String} {s : String}

theorem wordsOf_cons {t : Token} {w : String} (h : t.word? = some w) (ts : List Token) :
    wordsOf (t :: ts) = w :: wordsOf ts := by simp [wordsOf, h]

theorem wordsOf_append {ws : List String} (hws : ∀ w ∈ ws, (Token.ofWord w).word? = some w)
    (hus : ∀ t, us.head? = some t → t.word? = none) :
    wordsOf (ws.map Token.ofWord ++ us) = ws := by
  induction ws with
  | nil =>
    cases us with
    | nil => rfl
    | cons u us => simp [wordsOf, hus u rfl]
  | cons w ws ih =>
    obtain ⟨hw, hws⟩ := List.forall_mem_cons.mp hws
    rw [List.map_cons, List.cons_append, wordsOf_cons hw, ih hws]

/-- A run of words is read. -/
theorem consume_words (ws : List String) :
    Reads (Parse.consume ws.length) (ws.map Token.ofWord ++ us) us (· = ()) names := by
  have hdrop : (ws.map Token.ofWord ++ us).drop ws.length = us :=
    List.drop_left' (List.length_map _)
  have h : Reads (Parse.consume ws.length) (ws.map Token.ofWord ++ us)
      ((ws.map Token.ofWord ++ us).drop ws.length) (· = ()) names := consume _
  rwa [hdrop] at h

/-- A declared name is read with all its words. -/
theorem wholeBinder_phrase (h : Token.isPhrase s = true)
    (hus : ∀ t, us.head? = some t → t.word? = none) :
    Reads (Parse.wholeBinder env) ((Token.phrase s).map Token.ofWord ++ us) us (· = s) names := by
  refine get fun c hc => ?_
  have hwords : words (c.rest.takeWhile fun p => !(fun _ => false) p.token) = Token.phrase s := by
    have hall : c.rest.takeWhile (fun _ => !false) = c.rest := by simp
    rw [hall, words_eq, hc.tokens, wordsOf_append (Token.words_phrase h) hus]
  rw [hwords, if_neg (by simpa using Token.phrase_ne_nil s), Token.intercalate_phrase]
  exact (consume_words _).next (.pure rfl)

end Reads

end Parse

namespace TypeExpr

open Parse

variable {env : Setting} {us : List Token} {names : List String}

/-- What may stand behind a type inside another: the end, a comma or a closing angle. -/
def Closed (us : List Token) : Prop :=
  us.head? ∈ [none, some (.symbol .comma), some (.symbol .gt)]

theorem Closed.not_word (h : Closed us) (t : Token) (ht : us.head? = some t) : t.word? = none := by
  simp only [Closed, ht, List.mem_cons, Option.some.injEq, reduceCtorEq, List.not_mem_nil, or_false,
    false_or] at h
  rcases h with rfl | rfl <;> rfl

theorem closed_cons {s : Symbol} (h : s = .comma ∨ s = .gt) (us : List Token) :
    Closed (.symbol s :: us) := by
  rcases h with rfl | rfl <;> simp [Closed]

/-- No angle stands behind a word, neither at once nor after brackets. -/
theorem no_angle {ws : List String} (hws : ∀ w ∈ ws, (Token.ofWord w).word? = some w)
    (h : Closed us) :
    (ws.map Token.ofWord ++ us).head? ≠ some (.symbol .lt) ∧
      Token.angleBehind 0 (ws.map Token.ofWord ++ us) = false := by
  have hhead (t : Token) (ht : (ws.map Token.ofWord ++ us).head? = some t) :
      t ≠ .symbol .lt ∧ isBracket t = false := by
    cases ws with
    | nil =>
      simp only [Closed, List.map_nil, List.nil_append] at h ht
      rw [ht] at h
      simp only [List.mem_cons, Option.some.injEq, reduceCtorEq, List.not_mem_nil, or_false,
        false_or] at h
      rcases h with rfl | rfl <;> exact ⟨by simp, rfl⟩
    | cons w ws =>
      have hw := hws w List.mem_cons_self
      obtain rfl := Option.some.inj ht
      constructor
      · intro heq
        rw [heq] at hw
        cases hw
      · cases hof : Token.ofWord w with
        | symbol s => rw [hof] at hw; cases hw
        | _ => rfl
  cases hts : ws.map Token.ofWord ++ us with
  | nil => exact ⟨by simp, rfl⟩
  | cons t ts =>
    obtain ⟨hlt, hbracket⟩ := hhead t (by rw [hts]; rfl)
    simp [Token.angleBehind, hbracket, hlt]

/-- A name of a type is read with all its words, if there is one only or the name is known. -/
theorem namedRule_phrase {s : String} (hs : Token.isPhrase s = true)
    (hlength : (Token.phrase s).length ≤ maxWords)
    (hknown : (Token.phrase s).length = 1 ∨ (Ty.byName? s).isSome || names.contains s)
    (hus : Closed us) :
    Reads (namedRule env) ((Token.phrase s).map Token.ofWord ++ us) us (· = named s) names := by
  refine .get fun c hc => ?_
  have hwords : words (c.rest.take maxWords) = Token.phrase s := by
    have htake : ((Token.phrase s).map Token.ofWord).take maxWords =
        (Token.phrase s).map Token.ofWord :=
      List.take_of_length_le (by rwa [List.length_map])
    rw [Reads.words_eq, List.map_take, hc.tokens, List.take_append, htake]
    refine Reads.wordsOf_append (Token.words_phrase hs) fun t ht => ?_
    rw [List.head?_take] at ht
    split at ht
    · cases ht
    · exact hus.not_word t ht
  have hahead : nameAhead (fun s => (Ty.byName? s).isSome || c.known.contains s) c =
      some (s, (Token.phrase s).length) := by
    have hjoin := Token.intercalate_phrase s
    rw [nameAhead, hwords, hc.known]
    cases hphrase : Token.phrase s with
    | nil => exact absurd hphrase (Token.phrase_ne_nil s)
    | cons w ws =>
      rw [hphrase] at hknown hjoin
      cases ws with
      | nil =>
        obtain rfl : w = s := by simpa using hjoin
        rfl
      | cons v vs =>
        have hs := hknown.resolve_left (by simp)
        rw [← hjoin] at hs ⊢
        refine congrArg some ((longest_of_known _ _ _ (List.cons_ne_nil v vs) hs).trans ?_)
        rw [List.length_cons (a := w), Nat.add_comm]
  dsimp only
  rw [hahead]
  exact (Reads.consume_words _).next (.pure rfl)

/-! ### All types -/

theorem areReadable_iff {known : List String} {ts : List TypeExpr} :
    areReadable known ts = true ↔ ∀ t ∈ ts, t.isReadable known = true := by
  induction ts with
  | nil => simp [areReadable]
  | cons t ts ih => simp [areReadable, ih]

theorem areFieldsReadable_iff {known : List String} {fields : List (String × TypeExpr)} :
    areFieldsReadable known fields = true ↔
      ∀ f ∈ fields, Token.isPhrase f.1 = true ∧ f.2.isReadable known = true := by
  induction fields with
  | nil => simp [areFieldsReadable]
  | cons f fields ih => simp [areFieldsReadable, ih, and_assoc]

/-- What a reader knows that is given some names: those of several words, and the members of
ranges. -/
def knownNames (known : List String) : List String :=
  known.filter (·.toList.contains ' ') ++ Surface.rangeMembers

theorem rule_readable {known : List String} {self : Parse TypeExpr} {s : String}
    (h : (named s).isReadable known = true) (hus : Closed us) :
    Reads (rule env self) ((named s).spelled ++ us) us (· = named s) (knownNames known) := by
  have hspelled : (named s).spelled = (Token.phrase s).map Token.ofWord := List.append_nil _
  rw [hspelled]
  rcases Bool.or_eq_true_iff.mp h with hnull | hphrase
  · obtain rfl := eq_of_beq hnull
    have hwords : (Token.phrase "null").map Token.ofWord = [.keyword .null] := by decide +kernel
    rw [hwords]
    exact .refused (by simp) (.accepted (.pure rfl))
  · obtain ⟨hs, hknown⟩ := Bool.and_eq_true_iff.mp hphrase
    have hwords := Token.words_phrase hs
    have hnamed : Reads (namedRule env) ((Token.phrase s).map Token.ofWord ++ us) us
        (· = named s) (knownNames known) := by
      by_cases hone : (Token.phrase s).length = 1
      · exact namedRule_phrase hs (by rw [hone]; decide) (.inl hone) hus
      · simp only [hone, beq_iff_eq, Bool.or_eq_true, Bool.and_eq_true, decide_eq_true_eq,
          false_or] at hknown
        refine namedRule_phrase hs hknown.1 (.inr ?_) hus
        rw [Bool.or_eq_true]
        refine hknown.2.imp id fun hmem => ?_
        have hblank := Token.blank_of_phrase hone
        simp_all [knownNames]
    cases hphrase : Token.phrase s with
    | nil => exact absurd hphrase (Token.phrase_ne_nil s)
    | cons w ws =>
      rw [hphrase] at hwords hnamed
      obtain ⟨hw, hws⟩ := List.forall_mem_cons.mp hwords
      obtain ⟨hlt, hangle⟩ := no_angle hws hus
      exact rule_named hw hlt (fun _ => hangle) hnamed

theorem spelled_ne_nil (t : TypeExpr) : t.spelled ≠ [] := by
  cases t with
  | named s => simpa [spelled, tokens, Token.inWords] using Token.phrase_ne_nil s
  | list element => rw [spelled_list]; exact List.cons_ne_nil _ _
  | context fields => rw [spelled_context]; exact List.cons_ne_nil _ _
  | range element s e => rw [spelled_range]; exact List.cons_ne_nil _ _
  | function params result => rw [spelled_function]; exact List.cons_ne_nil _ _

/-- No type begins with a closing angle. -/
theorem head_spelled (t : TypeExpr) (vs : List Token) :
    (t.spelled ++ vs).head? ≠ some (.symbol .gt) := by
  cases t with
  | named s =>
    have hspelled : (named s).spelled = (Token.phrase s).map Token.ofWord := List.append_nil _
    rw [hspelled]
    exact Token.head_phrase s .gt vs
  | list element => rw [spelled_list]; simp
  | context fields => rw [spelled_context]; simp
  | range element s e => rw [spelled_range]; simp
  | function params result => rw [spelled_function]; simp

theorem readWithin_spelled (env : Setting) {known : List String} {n : Nat} {t : TypeExpr}
    (hn : t.spelled.length ≤ n) (h : t.isReadable known = true) (hus : Closed us) :
    Reads (readWithin env n) (t.spelled ++ us) us (· = t) (knownNames known) := by
  induction n generalizing t us with
  | zero => exact absurd (List.length_eq_zero_iff.mp (Nat.le_zero.mp hn)) (spelled_ne_nil t)
  | succ n ih =>
    cases t with
    | named s => exact rule_readable h hus
    | list element =>
      rw [spelled_list] at hn ⊢
      simp only [List.length_cons, List.length_append] at hn
      rw [List.cons_append, List.cons_append, List.append_assoc, List.singleton_append]
      exact rule_list (ih (by omega) h (closed_cons (.inr rfl) us))
    | context fields =>
      rw [spelled_context] at hn ⊢
      simp only [List.length_cons, List.length_append] at hn
      rw [List.cons_append, List.cons_append, List.append_assoc, List.singleton_append]
      have hfields := areFieldsReadable_iff.mp h
      refine rule_context (fun f hf vs => ?_) fun f hf s vs hs => ?_
      · rw [spelledField, List.append_assoc]
        exact Token.head_phrase f.1 .gt _
      · obtain ⟨hname, htype⟩ := hfields f hf
        have hle := Token.length_le_commas (List.mem_map_of_mem (f := spelledField) hf)
        simp only [spelledField, List.length_cons, List.length_append] at hle
        rw [spelledField, List.append_assoc, List.cons_append]
        refine (Reads.wholeBinder_phrase hname (by simp [Token.word?])).next ?_
        exact (Reads.expect _).next ((ih (by omega) htype (closed_cons hs vs)).next (.pure rfl))
    | range element s e =>
      have htokens : (range element s e).spelled ++ us = .name "range" ::
          (boundTokens .lbracket .lparen s ++ boundTokens .rbracket .rparen e ++
            .symbol .lt :: (element.spelled ++ .symbol .gt :: us)) := by
        simp [spelled_range]
      rw [spelled_range] at hn
      simp only [List.length_cons, List.length_append] at hn
      rw [htokens]
      exact rule_range (ih (by omega) h (closed_cons (.inr rfl) us))
    | function params result =>
      obtain ⟨hparams, hresult⟩ := Bool.and_eq_true_iff.mp h
      have hparams := areReadable_iff.mp hparams
      rw [spelled_function] at hn ⊢
      simp only [List.length_cons, List.length_append] at hn
      rw [List.cons_append, List.cons_append, List.append_assoc, List.cons_append, List.cons_append]
      refine rule_function (fun t _ vs => head_spelled t vs) (fun t ht s vs hs => ?_)
        (ih (by omega) hresult hus)
      have hle := Token.length_le_commas (List.mem_map_of_mem (f := spelled) ht)
      exact ih (by omega) (hparams t ht) (closed_cons hs vs)

/-- **A type is read from its tokens**, with the names of several words that the reader knows. -/
theorem read_spelled (env : Setting) {known : List String} {t : TypeExpr}
    (h : t.isReadable known = true) (hus : Closed us) :
    Reads (read env) (t.spelled ++ us) us (· = t) (knownNames known) := by
  refine Reads.remaining.next (readWithin_spelled env ?_ h hus)
  rw [List.length_append]
  omega

end TypeExpr

/-! ### Whole texts -/

namespace Surface

open Parse

variable {env : Setting} {ts us : List Token} {names : List String}

/-- An operand that no operator of the level follows. -/
theorem leftAssociative_stops {operator? : Token → Option Operator} {operand : Parse Surface}
    {R : Surface → Prop} (h : Reads operand ts us R names) (hus : us.head?.bind operator? = none) :
    Reads (leftAssociative operator? operand) ts us R names := by
  refine h.bind fun first hfirst => Reads.remaining.next ?_
  cases us.length with
  | zero => exact .pure hfirst
  | succ n =>
    refine Reads.peek.next ?_
    rw [hus]
    exact .pure hfirst

/-- A number behind which nothing belongs to it. -/
theorem unary_number {self : Rule} {closing : Bool} {n : String}
    (hus : us.head? = some (.keyword .instanceWord)) :
    Reads (unary env self closing) (.number n :: us) us
      (fun s => ∃ span, s = .plain (.number n) span) names := by
  have hprimary : Reads (primary env self) (.number n :: us) us
      (fun s => ∃ span, s = .plain (.number n) span) names := by
    refine Reads.peek.next ?_
    rw [if_neg (by simp), if_neg (by simp [beginsTextual])]
    refine Reads.offset.bind fun start _ => Reads.leading.next ?_
    have hform : Reads (primaryForm env self) (.number n :: us) us (· = .number n) names :=
      Reads.peek.next ((Reads.consume 1).next (.pure rfl))
    refine hform.next ((Reads.spanned _ start).bind fun s hs => ?_)
    obtain ⟨span, rfl⟩ := hs
    exact .pure ⟨span, rfl⟩
  have hsuffixes (inner : Surface) :
      Reads (withSuffixes env self closing inner) us us (· = inner) names := by
    refine Reads.remaining.next ?_
    cases us.length with
    | zero => exact .pure rfl
    | succ n =>
      refine Reads.peek.next ?_
      rw [hus]
      exact .pure rfl
  have hplain : Reads (primary env self >>= withSuffixes env self closing) (.number n :: us) us
      (fun s => ∃ span, s = .plain (.number n) span) names :=
    hprimary.bind fun inner hinner => (hsuffixes inner).imp fun s hs => hs ▸ hinner
  refine Reads.remaining.next ((Reads.isNext .minus).next ?_)
  rw [if_neg (by simp)]
  exact hplain

/-- A number before `instance of`, and the type behind. -/
theorem comparison_instanceOf {self : Rule} {t : TypeExpr} {n : String}
    (h : Reads (TypeExpr.read env) ts [] (· = t) names) :
    Reads (comparison env self false)
      (.number n :: .keyword .instanceWord :: .keyword .of :: ts) []
      (fun s => ∃ inner outer, s = .plain (.instanceOf (.plain (.number n) inner) t) outer)
      names := by
  have hsum : Reads (sum env self false) (.number n :: .keyword .instanceWord :: .keyword .of :: ts)
      (.keyword .instanceWord :: .keyword .of :: ts)
      (fun s => ∃ span, s = .plain (.number n) span) names :=
    leftAssociative_stops (leftAssociative_stops (leftAssociative_stops (unary_number rfl) rfl)
      rfl) rfl
  refine Reads.offset.bind fun start _ => hsum.bind fun left hleft => Reads.remaining.next ?_
  obtain ⟨inner, rfl⟩ := hleft
  refine Reads.peek.next ((Reads.consume 1).next ((Reads.expect _).next (h.next ?_)))
  refine (Reads.spanned _ start).bind fun s hs => ?_
  obtain ⟨outer, rfl⟩ := hs
  exact Reads.peek.next (.pure ⟨inner, outer, rfl⟩)

theorem wholeExpression_instanceOf {t : TypeExpr} {n : String}
    (h : Reads (TypeExpr.read env) ts [] (· = t) names) :
    Reads (wholeExpression env [])
      (.number n :: .keyword .instanceWord :: .keyword .of :: ts) []
      (fun s => ∃ inner outer, s = .plain (.instanceOf (.plain (.number n) inner) t) outer)
      names := by
  have hend : Reads (endOfText env) [] [] (· = ()) names := Reads.peek.next (.pure rfl)
  have hrule (self : Rule) : Reads (expressionRule env self false)
      (.number n :: .keyword .instanceWord :: .keyword .of :: ts) []
      (fun s => ∃ inner outer, s = .plain (.instanceOf (.plain (.number n) inner) t) outer)
      names :=
    Reads.peek.next <| leftAssociative_stops
      (leftAssociative_stops (comparison_instanceOf h) rfl) rfl
  refine Reads.bind (Reads.remaining.next (hrule _)) fun s hs => hend.next (.pure ?_)
  obtain ⟨inner, outer, rfl⟩ := hs
  exact ⟨inner, outer, rfl⟩

/-- **Types are read back from their texts.** Behind `instance of` the text of a type is read as
this very type, whatever is inside it, as long as its names can be read. -/
theorem parseExpression_instanceOf {t : TypeExpr} {known : List String}
    (h : t.isReadable known = true) :
    ∃ inner outer, parseExpression ("1 instance of " ++ t.text) known =
      .ok (.plain (.instanceOf (.plain (.number "1") inner) t) outer) := by
  have htext : ("1 instance of " ++ t.text).toList =
      '1' :: ' ' :: ("instance".toList ++ ' ' :: ("of".toList ++ ' ' :: t.text.toList)) := by
    rw [String.toList_append]
    rfl
  have hscanned : Token.Scanned ("1 instance of " ++ t.text).toList
      (.number "1" :: .keyword .instanceWord :: .keyword .of :: t.spelled) := by
    have htype := (TypeExpr.scans_text known t h).scanned [] [] (by simp [Token.Closes]) .nil
    rw [List.append_nil, List.append_nil] at htype
    have hof := Token.scanned_word (w := "of") (by decide +kernel) rfl htype.blank
    have hinstance := Token.scanned_word (w := "instance") (by decide +kernel) rfl hof.blank
    rw [htext]
    have hnumber {tail : List Char} (htail : Token.Ends tail) :
        Token.next ('1' :: tail) = .ok (.number "1", tail) :=
      Token.next_written (t := .number "1") (by decide +kernel) htail
    exact .next (hnumber rfl) rfl (by simp) hinstance.blank
  generalize "1 instance of " ++ t.text = source at hscanned
  obtain ⟨lexemes, pieces, hscan, hpieces, htokens, hcomments⟩ := hscanned.pieces
  have hempty : pieces.isEmpty = false := by
    cases pieces with
    | nil => cases htokens
    | cons p ps => rfl
  have hholds : Cursor.Holds ⟨pieces, 0, TypeExpr.knownNames known⟩
      (.number "1" :: .keyword .instanceWord :: .keyword .of :: t.spelled)
      (TypeExpr.knownNames known) := ⟨htokens, hcomments, rfl⟩
  have hread (env : Setting) :
      Reads (TypeExpr.read env) t.spelled [] (· = t) (TypeExpr.knownNames known) := by
    have hclosed : TypeExpr.Closed [] := by simp [TypeExpr.Closed]
    simpa using TypeExpr.read_spelled env h hclosed
  obtain ⟨tree, c, hrun, ⟨inner, outer, rfl⟩, -⟩ :=
    wholeExpression_instanceOf (hread ⟨source, false⟩) _ hholds
  refine ⟨inner, outer, ?_⟩
  simp only [parseExpression, parseWith, hscan, hpieces, hempty, Bool.false_eq_true, if_false]
  rw [show (known.filter fun s => s.toList.contains ' ') ++ rangeMembers =
    TypeExpr.knownNames known from rfl, hrun]

/-- A type with names of several words: one is built in, one is known, one is a field. -/
def nestedType : TypeExpr :=
  .context [("in and out", .list (.range (.named "date and time") (some true) (some false))),
    ("f", .function [.named "big one"] (.named "of"))]

def nestedText : String :=
  "1 instance of context<in and out: list<range[)<date and time>>, f: function<big one>->of>"

theorem parseExpression_instanceOf_nested :
    ∃ inner outer, parseExpression nestedText ["big one"] =
      .ok (.plain (.instanceOf (.plain (.number "1") inner) nestedType) outer) := by
  have hreadable : nestedType.isReadable ["big one"] = true := by decide +kernel
  have htext : nestedText = "1 instance of " ++ nestedType.text := by decide +kernel
  rw [htext]
  exact parseExpression_instanceOf hreadable

end Surface

end Feel
