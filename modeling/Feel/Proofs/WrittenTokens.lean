import Feel.Proofs.TokenPlaces

/-!
# Tokens as they are written

Tokens are written with single spaces between them, and strings with their quotes and
backslashes escaped. Scanning such a text gives the tokens back, whatever they are, as long as
each of them is a token by itself: a name has to be a word and no keyword, and a number has to
have digits where they belong.

* `Token.isWord`, `Token.isNumeral`: the texts of names and numbers.
* `Token.written`, `Token.spaced`: the characters of a token, and the text of several.
* `Token.next_written`: one token is read back.
* `Token.pieces_spaced`: all of them are, without comments.
-/

namespace Feel

namespace Token

/-! ### Words and numbers -/

/-- Whether a text is the name of one word. -/
def isWord (s : String) : Bool :=
  isNameStart (s.toList.headD ' ') && s.toList.all isNamePart && (Keyword.ofText? s).isNone

theorem not_blank_of_isWord {w : String} (h : isWord w = true) : ' ' ∉ w.toList := by
  simp only [isWord, Bool.and_eq_true] at h
  intro hmem
  exact absurd (List.all_eq_true.mp h.1.2 _ hmem) (by decide)

/-- Whether characters are digits, at least one. -/
def areDigits (cs : List Char) : Bool := !cs.isEmpty && cs.all Char.isDigit

/-- Whether characters are an exponent, or none at all. -/
def isExponent : List Char → Bool
  | [] => true
  | e :: '+' :: digits => (e == 'e' || e == 'E') && areDigits digits
  | e :: '-' :: digits => (e == 'e' || e == 'E') && areDigits digits
  | e :: digits => (e == 'e' || e == 'E') && areDigits digits

/-- Whether characters are what may follow the first digits of a number. -/
def isNumeralEnd : List Char → Bool
  | '.' :: cs => (cs.headD ' ').isDigit && isExponent (cs.dropWhile Char.isDigit)
  | cs => isExponent cs

/-- Whether a text is the text of a number: digits, then perhaps a point with more digits and an
exponent. -/
def isNumeral (s : String) : Bool :=
  (s.toList.headD ' ').isDigit && isNumeralEnd (s.toList.dropWhile Char.isDigit)

example : isNumeral "10.25e-3" = true ∧ isNumeral "1." = false ∧ isNumeral ".5" = false := by
  decide +kernel

/-! ### Writing -/

/-- The contents of a string as they are written. -/
def escape : List Char → List Char
  | [] => []
  | c :: cs => if c = '"' ∨ c = '\\' then '\\' :: c :: escape cs else c :: escape cs

/-- The characters of a token. -/
def written : Token → List Char
  | string s => '"' :: (escape s.toList ++ ['"'])
  | t => t.text.toList

/-- The characters of tokens with a space between two of them. -/
def spacedChars (ts : List Token) : List Char := [' '].intercalate (ts.map written)

/-- The text of tokens with a space between two of them. -/
def spaced (ts : List Token) : String := String.ofList (spacedChars ts)

/-- Whether a token can be read back. -/
def isPlain : Token → Bool
  | number s => isNumeral s
  | name s => isWord s
  | comment _ => false
  | _ => true

/-! ### Reading back what was written -/

/-- What may follow a token: the end of the text or a space. -/
def Ends (tail : List Char) : Prop := tail.headD ' ' = ' '

section Reading

variable {tail : List Char}

theorem ends_cases (h : Ends tail) : tail = [] ∨ ∃ rest, tail = ' ' :: rest := by
  cases tail with
  | nil => exact .inl rfl
  | cons c rest => exact .inr ⟨rest, by rw [show c = ' ' from h]⟩

theorem headD_append (h : Ends tail) (cs : List Char) :
    (cs ++ tail).headD ' ' = cs.headD ' ' := by
  cases cs with
  | nil => exact h
  | cons c cs => rfl

theorem not_part (h : Ends tail) : isNamePart (tail.headD ' ') = false := by
  rw [show tail.headD ' ' = ' ' from h]
  decide

/-- A run of characters of a class ends where the token ends. -/
theorem takeWhile_append {p : Char → Bool} (hp : p ' ' = false) (h : Ends tail)
    (cs : List Char) :
    (cs ++ tail).takeWhile p = cs.takeWhile p ∧
      (cs ++ tail).dropWhile p = cs.dropWhile p ++ tail := by
  induction cs with
  | nil => rcases ends_cases h with rfl | ⟨rest, rfl⟩ <;> simp [hp]
  | cons c cs ih => by_cases hc : p c = true <;> simp [hc, ih]

/-! #### Strings -/

theorem scanString_escape (cs out rest : List Char) (n : Nat) :
    scanString (escape cs ++ '"' :: rest) out n =
      some (String.ofList (out.reverse ++ cs), n + byteSize (escape cs ++ ['"'])) := by
  induction cs generalizing out n with
  | nil =>
    rw [List.append_nil]
    rfl
  | cons c cs ih =>
    rw [escape]
    split
    · next hc =>
      rcases hc with rfl | rfl
      all_goals
        simp only [List.cons_append]
        rw [byteSize_escape, scanString.eq_def]
        simp [ih]
    · next hc =>
      obtain ⟨hquote, hslash⟩ := not_or.mp hc
      rw [List.cons_append, scanString]
      · rw [ih, List.cons_append, byteSize_cons, Nat.add_assoc, Nat.add_comm c.utf8Size]
        simp
      all_goals simp_all

/-! #### Words -/

theorem scanWord_append {cs : List Char} (hcs : cs.all isNamePart = true)
    (h : isNamePart (tail.headD ' ') = false) :
    scanWord (cs ++ tail) =
      ((Keyword.ofText? (String.ofList cs)).elim (name (String.ofList cs)) keyword, tail) := by
  have hall : ∀ c ∈ cs, isNamePart c = true := by simpa using hcs
  have htail : tail.takeWhile isNamePart = [] ∧ tail.dropWhile isNamePart = tail := by
    cases tail with
    | nil => exact ⟨rfl, rfl⟩
    | cons c rest =>
      have hc : ¬isNamePart c = true := by simpa using h
      exact ⟨List.takeWhile_cons_of_neg hc, List.dropWhile_cons_of_neg hc⟩
  rw [scanWord, List.takeWhile_append_of_pos hall, List.dropWhile_append_of_pos hall, htail.1,
    htail.2, List.append_nil]

/-! #### Numbers -/

theorem fraction_append (h : Ends tail) (cs : List Char) :
    fraction (cs ++ tail) = ((fraction cs).1, (fraction cs).2 ++ tail) := by
  cases cs with
  | nil => rcases ends_cases h with rfl | ⟨rest, rfl⟩ <;> rfl
  | cons c cs =>
    obtain ⟨htake, hdrop⟩ := @takeWhile_append _ Char.isDigit (by decide) h cs
    by_cases hc : c = '.'
    · subst hc
      rw [List.cons_append, fraction, fraction, headD_append h, htake, hdrop]
      split <;> rfl
    · simp [fraction, hc]

theorem sign_append (h : Ends tail) (cs : List Char) :
    sign (cs ++ tail) = ((sign cs).1, (sign cs).2 ++ tail) := by
  cases cs with
  | nil => rcases ends_cases h with rfl | ⟨rest, rfl⟩ <;> rfl
  | cons c cs =>
    unfold sign
    split <;> simp_all

theorem exponent_append (h : Ends tail) (cs : List Char) :
    exponent (cs ++ tail) = ((exponent cs).1, (exponent cs).2 ++ tail) := by
  cases cs with
  | nil => rcases ends_cases h with rfl | ⟨rest, rfl⟩ <;> rfl
  | cons e cs =>
    obtain ⟨htake, hdrop⟩ := @takeWhile_append _ Char.isDigit (by decide) h (sign cs).2
    simp only [List.cons_append, exponent, sign_append h, headD_append h, htake, hdrop]
    split
    · split <;> rfl
    · rfl

/-- A number ends where the token ends. -/
theorem scanNumber_append (h : Ends tail) (cs : List Char) :
    scanNumber (cs ++ tail) = ((scanNumber cs).1, (scanNumber cs).2 ++ tail) := by
  obtain ⟨htake, hdrop⟩ := @takeWhile_append _ Char.isDigit (by decide) h cs
  simp only [scanNumber, htake, hdrop, fraction_append h, exponent_append h]

theorem headD_of_areDigits {cs : List Char} (h : areDigits cs = true) :
    (cs.headD ' ').isDigit = true := by
  cases cs with
  | nil => simp [areDigits] at h
  | cons c cs => simp_all [areDigits]

theorem exponent_of_isExponent {cs : List Char} (h : isExponent cs = true) :
    exponent cs = (cs, []) := by
  have hspan {digits : List Char} (hd : areDigits digits = true) :
      digits.takeWhile Char.isDigit = digits ∧ digits.dropWhile Char.isDigit = [] := by
    have hall : ∀ c ∈ digits, c.isDigit = true := by simp_all [areDigits]
    exact ⟨List.takeWhile_eq_self_iff.mpr hall, List.dropWhile_eq_nil_iff.mpr hall⟩
  unfold isExponent at h
  split at h
  · rfl
  all_goals
    obtain ⟨he, hdigits⟩ := Bool.and_eq_true _ _ ▸ h
    obtain ⟨htake, hdrop⟩ := hspan hdigits
    have hhead := headD_of_areDigits hdigits
  · simp only [exponent, he, if_true, sign, hhead, htake, hdrop, List.cons_append,
      List.nil_append]
  · simp only [exponent, he, if_true, sign, hhead, htake, hdrop, List.cons_append,
      List.nil_append]
  · next e digits _ _ =>
    have hsign : sign digits = ([], digits) := by
      unfold sign
      split
      · simp at hhead
      · simp at hhead
      · rfl
    simp only [exponent, he, if_true, hsign, hhead, htake, hdrop, List.cons_append,
      List.nil_append]

/-- A number is read as it is written. -/
theorem scanNumber_of_isNumeral {s : String} (h : isNumeral s = true) :
    scanNumber s.toList = (number s, []) := by
  obtain ⟨hhead, hend⟩ := Bool.and_eq_true _ _ ▸ h
  have hwhole : (s.toList.takeWhile Char.isDigit).isEmpty = false := by
    cases hs : s.toList with
    | nil => simp [hs] at hhead
    | cons c cs => simp_all
  have hrest : ∀ rest, isNumeralEnd rest = true →
      (fraction rest).1 ++ (exponent (fraction rest).2).1 = rest ∧
        (exponent (fraction rest).2).2 = [] := by
    intro rest hrest
    unfold isNumeralEnd at hrest
    split at hrest
    · obtain ⟨hdigit, hexp⟩ := Bool.and_eq_true _ _ ▸ hrest
      rw [fraction, if_pos hdigit, exponent_of_isExponent hexp, List.cons_append,
        List.takeWhile_append_dropWhile]
      exact ⟨rfl, rfl⟩
    · next hdot =>
      have hfraction : fraction rest = ([], rest) := by
        unfold fraction
        split
        · exact absurd rfl (hdot _)
        · rfl
      simp [hfraction, exponent_of_isExponent hrest]
  obtain ⟨htext, hnil⟩ := hrest _ hend
  simp only [scanNumber, hwhole, Bool.false_eq_true, if_false, List.append_assoc, htext, hnil,
    List.takeWhile_append_dropWhile, String.ofList_toList]

/-! #### Symbols -/

theorem next_symbol (s : Symbol) (h : Ends tail) :
    next (s.text.toList ++ tail) = .ok (symbol s, tail) := by
  rcases ends_cases h with rfl | ⟨rest, rfl⟩
  · cases s <;> rfl
  · cases s <;> rfl

/-! #### All tokens -/

theorem not_nameStart_of_digit {c : Char} (h : c.isDigit = true) : isNameStart c = false := by
  have hle : c.val ≤ 57 := of_decide_eq_true ((Bool.and_eq_true _ _).mp h).2
  have hne : c ≠ '_' := by
    rintro rfl
    cases h
  have hletter : ¬c.isAlpha = true := by
    intro hletter
    rcases (Bool.or_eq_true _ _).mp hletter with hupper | hlower
    · exact absurd (UInt32.le_trans (of_decide_eq_true hupper).1 hle) (by decide)
    · have hge : 'a'.val ≤ c.val := of_decide_eq_true ((Bool.and_eq_true _ _).mp hlower).1
      exact absurd (UInt32.le_trans hge hle) (by decide)
  simp [isNameStart, hletter, hne]

/-- A digit or a letter at the start says what kind of token it is. -/
theorem next_cons {c : Char} (cs : List Char) (hc : c.isDigit = true ∨ isNameStart c = true) :
    next (c :: cs) = .ok (if c.isDigit then scanNumber (c :: cs) else scanWord (c :: cs)) := by
  have hne {d : Char} (hd : (d.isDigit || isNameStart d) = false) : c ≠ d := by
    rintro rfl
    simp_all
  unfold next
  split
  · next heq => exact absurd (List.cons.inj heq).1 (hne (by decide))
  · next heq => exact absurd (List.cons.inj heq).1 (hne (by decide))
  · next heq => exact absurd (List.cons.inj heq).1 (hne (by decide))
  · by_cases hdigit : c.isDigit = true
    · simp [hdigit]
    · have hdot : (c == '.') = false := by simpa using hne (by decide)
      simp_all

theorem next_word {cs : List Char} (hstart : isNameStart (cs.headD ' ') = true)
    (hcs : cs.all isNamePart = true) (h : isNamePart (tail.headD ' ') = false) :
    next (cs ++ tail) = .ok
      ((Keyword.ofText? (String.ofList cs)).elim (name (String.ofList cs)) keyword, tail) := by
  cases cs with
  | nil => exact absurd hstart (by decide)
  | cons c cs =>
    have hc : isNameStart c = true := hstart
    have hdigit : ¬c.isDigit = true := fun hd => by simp [not_nameStart_of_digit hd] at hc
    rw [List.cons_append, next_cons _ (.inr hc), if_neg hdigit, ← List.cons_append,
      scanWord_append hcs h]

/-- A token is read back, up to the space behind it. -/
theorem next_written {t : Token} (ht : t.isPlain = true) (h : Ends tail) :
    next (t.written ++ tail) = .ok (t, tail) := by
  cases t with
  | number s =>
    have hscan := scanNumber_append h s.toList
    rw [scanNumber_of_isNumeral ht] at hscan
    obtain ⟨hhead, -⟩ := Bool.and_eq_true _ _ ▸ (ht : isNumeral s = true)
    show next (s.toList ++ tail) = _
    cases hs : s.toList with
    | nil => simp [hs] at hhead
    | cons c cs =>
      rw [hs] at hhead hscan
      have hc : c.isDigit = true := hhead
      rw [List.cons_append, next_cons _ (.inl hc), if_pos hc, ← List.cons_append, hscan]
      rfl
  | string s =>
    have hscan := scanString_escape s.toList [] tail 0
    show next ('"' :: (escape s.toList ++ ['"'] ++ tail)) = _
    rw [List.append_assoc, List.singleton_append, next, hscan]
    simp [bump_literal]
  | comment s => simp [isPlain] at ht
  | name s =>
    simp only [isPlain, isWord, Bool.and_eq_true, Option.isNone_iff_eq_none] at ht
    obtain ⟨⟨hstart, hparts⟩, hkeyword⟩ := ht
    have hnext := next_word hstart hparts (not_part h)
    rwa [String.ofList_toList, hkeyword] at hnext
  | keyword k =>
    have hnext := @next_word _ k.text.toList (by cases k <;> decide)
      (by cases k <;> decide) (not_part h)
    rwa [String.ofList_toList, Keyword.ofText?_text] at hnext
  | symbol s => exact next_symbol s h

/-! #### Texts -/

theorem written_head {t : Token} (ht : t.isPlain = true) :
    ∃ c cs, t.written = c :: cs ∧ isSeparator c = false := by
  have hhead {cs : List Char} {p : Char → Bool} (hp : p (cs.headD ' ') = true)
      (hsep : ∀ c, isSeparator c = true → p c = false) :
      ∃ c rest, cs = c :: rest ∧ isSeparator c = false := by
    cases cs with
    | nil => simp [hsep ' ' (by decide)] at hp
    | cons c rest =>
      refine ⟨c, rest, rfl, ?_⟩
      by_contra hc
      simp [hsep c (by simpa using hc)] at hp
  have hseparators {p : Char → Bool}
      (h : p ' ' = false ∧ p '\t' = false ∧ p '\n' = false ∧ p '\r' = false) :
      ∀ c, isSeparator c = true → p c = false := by
    intro c hc
    simp only [isSeparator, Bool.or_eq_true, beq_iff_eq] at hc
    rcases hc with ((rfl | rfl) | rfl) | rfl <;> simp [h]
  cases t with
  | number s =>
    exact @hhead _ Char.isDigit (Bool.and_eq_true _ _ ▸ (ht : isNumeral s = true)).1
      (hseparators (by decide))
  | string s => exact ⟨'"', _, rfl, by decide⟩
  | comment s => simp [isPlain] at ht
  | name s =>
    simp only [isPlain, isWord, Bool.and_eq_true] at ht
    exact @hhead _ isNameStart ht.1.1 (hseparators (by decide))
  | keyword k => cases k <;> exact ⟨_, _, rfl, by decide⟩
  | symbol s => cases s <;> exact ⟨_, _, rfl, by decide⟩

/-- Behind a token stands a space and the other tokens, or nothing. -/
theorem spacedChars_cons (t : Token) (ts : List Token) :
    ∃ blanks, spacedChars (t :: ts) = t.written ++ (blanks ++ spacedChars ts) ∧
      Ends (blanks ++ spacedChars ts) ∧ blanks.all isSeparator = true := by
  cases ts with
  | nil => exact ⟨[], by simp [spacedChars], rfl, rfl⟩
  | cons u us => exact ⟨[' '], by simp [spacedChars], rfl, rfl⟩

/-- The tokens of a text are read back, also behind blanks. -/
theorem scanFrom_spacedChars {ts : List Token} (hts : ts.all isPlain = true) {n : Nat}
    (hn : (spacedChars ts).length ≤ n) (start : Nat) {blanks : List Char}
    (hblanks : blanks.all isSeparator = true) :
    ∃ lexemes, scanFrom n start (blanks ++ spacedChars ts) = .ok lexemes ∧
      lexemes.map (·.token) = ts := by
  have hall : ∀ c ∈ blanks, isSeparator c = true := by simpa using hblanks
  induction ts generalizing n start blanks with
  | nil =>
    cases n with
    | zero => exact ⟨[], rfl, rfl⟩
    | succ n =>
      have hdrop : (blanks ++ spacedChars []).dropWhile isSeparator = [] := by
        rw [List.dropWhile_eq_nil_iff]
        simpa [spacedChars] using hall
      exact ⟨[], by simp [scanFrom, hdrop], rfl⟩
  | cons t ts ih =>
    obtain ⟨ht, hts⟩ := Bool.and_eq_true _ _ ▸ (List.all_cons ▸ hts)
    obtain ⟨between, heq, hends, hbetween⟩ := spacedChars_cons t ts
    obtain ⟨c, cs, hwritten, hc⟩ := written_head ht
    have hlength : (spacedChars ts).length < n := by
      rw [heq, hwritten] at hn
      simp at hn
      omega
    cases n with
    | zero => omega
    | succ n =>
      have hdrop : (blanks ++ spacedChars (t :: ts)).dropWhile isSeparator =
          t.written ++ (between ++ spacedChars ts) := by
        rw [List.dropWhile_append_of_pos hall, heq, hwritten, List.cons_append,
          List.dropWhile_cons_of_neg (by simp [hc])]
      have hne : (t.written ++ (between ++ spacedChars ts)).isEmpty = false := by
        rw [hwritten]; rfl
      -- where the token begins and ends does not matter
      obtain ⟨first, hfirst⟩ : ∃ first, first = start +
        byteSize ((blanks ++ spacedChars (t :: ts)).takeWhile isSeparator) := ⟨_, rfl⟩
      obtain ⟨stop, hstop⟩ : ∃ stop, stop = first + (byteSize (t.written ++
        (between ++ spacedChars ts)) - byteSize (between ++ spacedChars ts)) := ⟨_, rfl⟩
      obtain ⟨lexemes, hscan, hmap⟩ :=
        ih hts (Nat.le_of_lt_succ hlength) stop hbetween (by simpa using hbetween)
      refine ⟨⟨t, first, stop⟩ :: lexemes, ?_, by rw [List.map_cons, hmap]⟩
      simp only [scanFrom, hdrop, hne, Bool.false_eq_true, if_false, next_written ht hends,
        ← hfirst, ← hstop, hscan]
      rfl

end Reading

/-- Tokens among which there is no comment have none before them. -/
theorem ofLexemes_plain {lexemes : List Lexeme}
    (h : ∀ text, .comment text ∉ lexemes.map (·.token)) :
    ∃ pieces, Piece.ofLexemes lexemes [] = (pieces, []) ∧
      pieces.map (·.token) = lexemes.map (·.token) ∧ ∀ p ∈ pieces, p.comments = [] := by
  induction lexemes with
  | nil => exact ⟨[], rfl, rfl, by simp⟩
  | cons l lexemes ih =>
    obtain ⟨token, start, stop⟩ := l
    obtain ⟨pieces, hpieces, hmap, hcomments⟩ := ih fun text hmem =>
      h text (List.mem_cons_of_mem _ hmem)
    refine ⟨⟨token, start, stop, []⟩ :: pieces, ?_, by simp [hmap], ?_⟩
    · cases token with
      | comment s => exact absurd List.mem_cons_self (h s)
      | _ => simp [Piece.ofLexemes, hpieces]
    · simpa using hcomments

/-- **Written tokens are read back.** Plain tokens with spaces between them are scanned as these
tokens, without comments. -/
theorem pieces_spaced {ts : List Token} (hts : ts.all isPlain = true) :
    ∃ lexemes pieces, scan (spaced ts) = .ok lexemes ∧
      Piece.ofLexemes lexemes [] = (pieces, []) ∧ pieces.map (·.token) = ts ∧
      ∀ p ∈ pieces, p.comments = [] := by
  have hlength : (spacedChars ts).length ≤ (spaced ts).length := by simp [spaced]
  obtain ⟨lexemes, hscan, hmap⟩ := scanFrom_spacedChars hts hlength 0
    (show ([] : List Char).all isSeparator = true from rfl)
  have hplain (text : String) : .comment text ∉ lexemes.map (·.token) := by
    rw [hmap]
    exact fun hmem => Bool.false_ne_true (List.all_eq_true.mp hts _ hmem)
  obtain ⟨pieces, hpieces, htokens, hcomments⟩ := ofLexemes_plain hplain
  refine ⟨lexemes, pieces, ?_, hpieces, htokens.trans hmap, hcomments⟩
  rw [scan, show (spaced ts).toList = [] ++ spacedChars ts by simp [spaced], hscan]

end Token

end Feel
