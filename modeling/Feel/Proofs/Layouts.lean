import Mathlib.Data.List.DropRight
import Feel.Engine.Key
import Feel.Proofs.PaddedDigits
import Feel.Proofs.TokenPlaces

/-!
# Normal texts and layouts

A text is made normal by trimming it and by collapsing its blanks outside of literals. Both steps
commute, since no literal and no word becomes empty, and each of them done twice is the same as
done once. So a normal text is its own normal form.

Two texts that differ only in the separators between their tokens have the same tokens. A token
ends at the first character that it cannot take, and takes no separator and no quote but in a
literal; a literal is read in the same way whatever follows it, and in neither text if it does not
end. The normal form of a text without comments is such a layout of it.

* `Key.collapse_collapse`, `Key.trimEnd_collapse`: collapsing twice, and collapsing and trimming.
* `Key.normalize_normalize`: normal texts.
* `Token.next_literal`, `Token.next_unclosed`: literals, and those that do not end.
* `Token.Laid`: two texts of the same tokens and literals.
* `Token.Laid.next`, `Token.tokens?_laid`: one token, and all.
* `Key.laid_normal`: a text and its normal form.
* `Key.normalize_keeps_tokens`: normal texts have the tokens of their sources.
-/

namespace Feel

/-! ## Normal texts -/

/-! ### Trimming -/

namespace Text

variable {c : Char} {cs : List Char}

/-- A character is trimmed off at the end with everything behind it, or not at all. -/
theorem trimEnd_cons (c : Char) (cs : List Char) :
    trimEnd (c :: cs) =
      if (trimEnd cs).isEmpty && isBlank c then [] else c :: trimEnd cs := by
  rw [trimEnd, trimEnd, List.reverse_cons, List.dropWhile_append]
  cases hrest : cs.reverse.dropWhile isBlank with
  | nil =>
    by_cases hc : isBlank c = true
    · simp [hc]
    · simp [hc]
  | cons d ds => simp

theorem trimEnd_cons_of_unblank (h : isBlank c = false) : trimEnd (c :: cs) = c :: trimEnd cs := by
  rw [trimEnd_cons, h, Bool.and_false]
  rfl

theorem trimStart_cons_of_blank (h : isBlank c = true) : trimStart (c :: cs) = trimStart cs :=
  List.dropWhile_cons_of_pos h

theorem trimEnd_trimEnd (cs : List Char) : trimEnd (trimEnd cs) = trimEnd cs := by
  rw [trimEnd, trimEnd, List.reverse_reverse, List.dropWhile_idempotent]

theorem trimStart_trimEnd (cs : List Char) : trimStart (trimEnd cs) = trimEnd (trimStart cs) := by
  induction cs with
  | nil => rfl
  | cons c cs ih =>
    by_cases hc : isBlank c = true
    · rw [trimStart_cons_of_blank hc, ← ih, trimEnd_cons, hc, Bool.and_true]
      cases trimEnd cs with
      | nil => rfl
      | cons d ds => exact trimStart_cons_of_blank hc
    · have hc : isBlank c = false := by simpa using hc
      rw [trimStart_of_head hc, trimEnd_cons_of_unblank hc, trimStart_of_head hc]

end Text

namespace Key

open Text

/-! ### Collapsing -/

variable {c : Char} {cs : List Char}

theorem collapse_of_blank (p : Bool) (h : isBlank c = true) :
    collapse p (c :: cs) = collapse true cs := by
  rw [collapse, if_pos h]

theorem collapse_of_unblank (p : Bool) (h : isBlank c = false) :
    collapse p (c :: cs) = (if p then [' '] else []) ++ collapse false (c :: cs) := by
  simp [collapse, h]

theorem collapse_quote (cs : List Char) : collapse false ('"' :: cs) = '"' :: literal cs := rfl

theorem collapse_of_plain (h : isBlank c = false) (hquote : c ≠ '"') :
    collapse false (c :: cs) = c :: collapse false cs := by
  simp [collapse, h, hquote]

theorem exists_collapse (cs : List Char) (h : isBlank c = false) :
    ∃ ds, collapse false (c :: cs) = c :: ds := by
  by_cases hquote : c = '"'
  · rw [hquote]
    exact ⟨_, collapse_quote cs⟩
  · exact ⟨_, collapse_of_plain h hquote⟩

/-- A blank in front tells that one is due. -/
theorem collapse_due (p q : Bool) (cs : List Char) :
    collapse q ((if p then [' '] else []) ++ cs) = collapse (q || p) cs := by
  cases p with
  | false => rw [Bool.or_false]; rfl
  | true => rw [Bool.or_true]; rfl

theorem literal_escape (c : Char) (cs : List Char) :
    literal ('\\' :: c :: cs) = '\\' :: c :: literal cs := by
  rw [literal]

theorem literal_quote (cs : List Char) : literal ('"' :: cs) = '"' :: collapse false cs := by
  rw [literal] <;> simp

theorem literal_of_plain (hquote : c ≠ '"') (hescape : c ≠ '\\') :
    literal (c :: cs) = c :: literal cs := by
  rw [literal]
  · simp [hquote]
  · simp [hescape]

mutual

/-- **Collapsing twice**: what is due either time is due once. -/
theorem collapse_collapse (p q : Bool) : ∀ cs, collapse q (collapse p cs) = collapse (q || p) cs
  | [] => rfl
  | c :: cs => by
    by_cases hc : isBlank c = true
    · rw [collapse_of_blank p hc, collapse_of_blank _ hc, collapse_collapse true q cs,
        Bool.or_true]
    have hc : isBlank c = false := by simpa using hc
    have hagain : collapse false (collapse false (c :: cs)) = collapse false (c :: cs) := by
      by_cases hquote : c = '"'
      · rw [hquote, collapse_quote, collapse_quote, literal_literal cs]
      · rw [collapse_of_plain hc hquote, collapse_of_plain hc hquote,
          collapse_collapse false false cs]
        rfl
    obtain ⟨ds, hds⟩ := exists_collapse cs hc
    rw [collapse_of_unblank p hc, collapse_due, collapse_of_unblank (q || p) hc, hds,
      collapse_of_unblank (q || p) hc, ← hds, hagain]

theorem literal_literal : ∀ cs, literal (literal cs) = literal cs
  | [] => rfl
  | [c] => by
    by_cases hquote : c = '"'
    · rw [hquote]
      rfl
    · simp [literal, hquote]
  | c :: d :: cs => by
    by_cases hescape : c = '\\'
    · rw [hescape, literal_escape, literal_escape, literal_literal cs]
    by_cases hquote : c = '"'
    · rw [hquote, literal_quote, literal_quote, collapse_collapse false false (d :: cs)]
      rfl
    · rw [literal_of_plain hquote hescape, literal_of_plain hquote hescape,
        literal_literal (d :: cs)]

end

/-! ### Collapsing and trimming -/

theorem isEmpty_literal (cs : List Char) : (literal cs).isEmpty = cs.isEmpty := by
  fun_cases literal cs <;> rfl

mutual

theorem trimEnd_collapse (p : Bool) :
    ∀ cs, trimEnd (collapse p cs) = collapse p (trimEnd cs)
  | [] => rfl
  | c :: cs => by
    by_cases hc : isBlank c = true
    · rw [collapse_of_blank p hc, trimEnd_collapse true cs, trimEnd_cons, hc, Bool.and_true]
      cases hrest : trimEnd cs with
      | nil => rfl
      | cons d ds => exact (collapse_of_blank p hc).symm
    have hc : isBlank c = false := by simpa using hc
    have hfirst : trimEnd (collapse false (c :: cs)) = collapse false (c :: trimEnd cs) := by
      by_cases hquote : c = '"'
      · rw [hquote, collapse_quote, collapse_quote, trimEnd_cons_of_unblank (by decide),
          trimEnd_literal cs]
      · rw [collapse_of_plain hc hquote, collapse_of_plain hc hquote, trimEnd_cons_of_unblank hc,
          trimEnd_collapse false cs]
    obtain ⟨ds, hds⟩ := exists_collapse cs hc
    rw [collapse_of_unblank p hc, trimEnd_cons_of_unblank hc, collapse_of_unblank p hc, ← hfirst,
      hds]
    cases p with
    | false => rfl
    | true =>
      show trimEnd (' ' :: c :: ds) = ' ' :: trimEnd (c :: ds)
      rw [trimEnd_cons, trimEnd_cons_of_unblank hc]
      rfl

theorem trimEnd_literal : ∀ cs, trimEnd (literal cs) = literal (trimEnd cs)
  | [] => rfl
  | [c] => by
    by_cases hquote : c = '"'
    · rw [hquote]
      rfl
    · have hone : literal [c] = [c] := by simp [literal, hquote]
      rw [hone, trimEnd_cons]
      cases hc : isBlank c with
      | true => rfl
      | false => exact hone.symm
  | c :: d :: cs => by
    by_cases hescape : c = '\\'
    · have hblank : isBlank '\\' = false := by decide
      rw [hescape, literal_escape, trimEnd_cons_of_unblank hblank, trimEnd_cons_of_unblank hblank,
        trimEnd_cons, trimEnd_cons, trimEnd_literal cs, isEmpty_literal]
      split
      · rfl
      · exact (literal_escape ..).symm
    by_cases hquote : c = '"'
    · have hblank : isBlank '"' = false := by decide
      rw [hquote, literal_quote, trimEnd_cons_of_unblank hblank, trimEnd_cons_of_unblank hblank,
        literal_quote, trimEnd_collapse false (d :: cs)]
    · rw [literal_of_plain hquote hescape, trimEnd_cons, trimEnd_cons c, trimEnd_literal (d :: cs),
        isEmpty_literal]
      split
      · rfl
      · exact (literal_of_plain hquote hescape).symm

end

theorem trimStart_collapse (p : Bool) (cs : List Char) :
    trimStart (collapse p cs) = collapse false (trimStart cs) := by
  induction cs generalizing p with
  | nil => rfl
  | cons c cs ih =>
    by_cases hc : isBlank c = true
    · rw [collapse_of_blank p hc, ih, trimStart_cons_of_blank hc]
    have hc : isBlank c = false := by simpa using hc
    obtain ⟨ds, hds⟩ := exists_collapse cs hc
    rw [collapse_of_unblank p hc, trimStart_of_head hc, hds]
    cases p with
    | false => exact trimStart_of_head hc
    | true => exact (trimStart_cons_of_blank (by decide)).trans (trimStart_of_head hc)

/-! ### Normal texts -/

theorem toList_normalize (s : String) :
    (normalize s).toList = collapse false (trimEnd (trimStart s.toList)) := by
  rw [normalize, trim, String.toList_ofList, String.toList_ofList]

/-- **A normal text is its own normal form.** -/
theorem normalize_normalize (s : String) : normalize (normalize s) = normalize s := by
  rw [← String.toList_inj, toList_normalize, toList_normalize, trimStart_collapse,
    trimEnd_collapse, collapse_collapse, trimStart_trimEnd, trimStart, trimStart,
    List.dropWhile_idempotent, trimEnd_trimEnd]
  rfl

end Key

/-! ## Layouts of one text -/

namespace Token

/-! ### Literals -/

/-- A text, from within a literal, in which the literal does not end. -/
def Unclosed (cs : List Char) : Prop := ¬ ∃ body rest, Inside body ∧ cs = body ++ '"' :: rest

variable {cs ds body rest : List Char} {c d : Char}

/-- A literal ends at one place. -/
theorem Inside.unique {body' rest' : List Char} (h : Inside body) (h' : Inside body')
    (heq : body ++ '"' :: rest = body' ++ '"' :: rest') : body = body' ∧ rest = rest' := by
  induction h generalizing body' with
  | nil =>
    cases h' with
    | nil => exact ⟨rfl, (List.cons.inj heq).2⟩
    | plain hquote => exact absurd (List.cons.inj heq).1.symm hquote
    | escape => cases (List.cons.inj heq).1
  | plain hquote hescape h ih =>
    cases h' with
    | nil => exact absurd (List.cons.inj heq).1 hquote
    | plain _ _ h' =>
      obtain ⟨rfl, htail⟩ := List.cons.inj heq
      obtain ⟨rfl, hrest⟩ := ih h' htail
      exact ⟨rfl, hrest⟩
    | escape => exact absurd (List.cons.inj heq).1 hescape
  | escape h ih =>
    cases h' with
    | nil => cases (List.cons.inj heq).1
    | plain _ hescape => exact absurd (List.cons.inj heq).1.symm hescape
    | escape h' =>
      obtain ⟨-, hescaped⟩ := List.cons.inj heq
      obtain ⟨rfl, htail⟩ := List.cons.inj hescaped
      obtain ⟨rfl, hrest⟩ := ih h' htail
      exact ⟨rfl, hrest⟩

theorem Unclosed.of_initial (h : Unclosed ds) (hinitial : cs <+: ds) : Unclosed cs := by
  obtain ⟨tail, rfl⟩ := hinitial
  rintro ⟨body, rest, hbody, rfl⟩
  exact h ⟨body, rest ++ tail, hbody, by simp⟩

/-- A literal is read, or is not, in the same way whatever follows it. -/
theorem next_literal (hbody : Inside body) :
    (∀ rest, ∃ e, next ('"' :: (body ++ '"' :: rest)) = .error e) ∨
      ∃ s, ∀ rest, next ('"' :: (body ++ '"' :: rest)) = .ok (string s, rest) := by
  by_cases h : ∀ rest, scanString (body ++ '"' :: rest) [] 0 = none
  · exact .inl fun rest => ⟨_, by rw [next, h]⟩
  obtain ⟨rest, hrest⟩ := not_forall.mp h
  obtain ⟨⟨s, m⟩, hread⟩ := Option.ne_none_iff_exists'.mp hrest
  obtain ⟨body', rest', hbody', heq, rfl, hagain⟩ := exists_inside hread
  obtain ⟨rfl, -⟩ := hbody.unique hbody' heq
  refine .inr ⟨s, fun rest => ?_⟩
  rw [next, hagain, Nat.zero_add]
  exact congrArg (fun rest => Except.ok (string s, rest)) (bump_literal body rest)

theorem next_unclosed (h : Unclosed cs) : next ('"' :: cs) = .error .unterminatedString := by
  suffices hnone : scanString cs [] 0 = none by rw [next, hnone]
  by_contra hread
  obtain ⟨⟨s, m⟩, hread⟩ := Option.ne_none_iff_exists'.mp hread
  obtain ⟨body, rest, hbody, rfl, -⟩ := exists_inside hread
  exact h ⟨body, rest, hbody, rfl⟩

/-! ### Layouts -/

/-- Two texts of the same characters but for the separators outside of literals: where one has
separators the other has some as well, or ends. Comments are not opened. -/
inductive Laid : List Char → List Char → Prop
  | last {cs : List Char} (h : ∀ b ∈ cs, isSeparator b = true) : Laid cs []
  | gap {b d : Char} {cs ds : List Char} (hb : isSeparator b = true) (hd : isSeparator d = true)
    (h : Laid (cs.dropWhile isSeparator) (ds.dropWhile isSeparator)) : Laid (b :: cs) (d :: ds)
  | char {c : Char} {cs ds : List Char} (hc : isSeparator c = false) (hquote : c ≠ '"')
    (hcomment : c = '/' → cs.headD ' ' ≠ '/' ∧ cs.headD ' ' ≠ '*') (h : Laid cs ds) :
    Laid (c :: cs) (c :: ds)
  | literal {body cs ds : List Char} (hbody : Inside body) (h : Laid cs ds) :
    Laid ('"' :: (body ++ '"' :: cs)) ('"' :: (body ++ '"' :: ds))
  | unclosed {cs ds : List Char} (hcs : Unclosed cs) (hds : Unclosed ds) :
    Laid ('"' :: cs) ('"' :: ds)

/-- A class of characters without separators and quotes. -/
structure Visible (p : Char → Bool) : Prop where
  separator : ∀ c, isSeparator c = true → p c = false
  quote : p '"' = false

theorem visible_of_separators {p : Char → Bool}
    (h : [' ', '\t', '\n', '\r', '"'].all (!p ·) = true) : Visible p := by
  simp only [List.all_cons, List.all_nil, Bool.and_true, Bool.and_eq_true, Bool.not_eq_true'] at h
  obtain ⟨hspace, htab, hline, hreturn, hquote⟩ := h
  refine ⟨fun c hc => ?_, hquote⟩
  simp only [isSeparator, Bool.or_eq_true, beq_iff_eq] at hc
  rcases hc with ((rfl | rfl) | rfl) | rfl <;> assumption

/-- The first characters are the same, or separators. -/
theorem Laid.head {p : Char → Bool} (hp : ∀ c, isSeparator c = true → p c = false)
    (h : Laid cs ds) : p (cs.headD ' ') = p (ds.headD ' ') := by
  cases h with
  | last h =>
    cases cs with
    | nil => rfl
    | cons b cs => exact (hp b (h b List.mem_cons_self)).trans (hp ' ' rfl).symm
  | gap hb hd => exact (hp _ hb).trans (hp _ hd).symm
  | char | literal | unclosed => rfl

theorem Laid.dropWhile_separator (h : Laid cs ds) :
    Laid (cs.dropWhile isSeparator) (ds.dropWhile isSeparator) := by
  cases h with
  | last h =>
    rw [List.dropWhile_eq_nil_iff.mpr h]
    exact .last (by simp)
  | gap hb hd h => rwa [List.dropWhile_cons_of_pos hb, List.dropWhile_cons_of_pos hd]
  | char hc hquote hcomment h =>
    rw [List.dropWhile_cons_of_neg (by simp [hc]), List.dropWhile_cons_of_neg (by simp [hc])]
    exact .char hc hquote hcomment h
  | literal hbody h => exact .literal hbody h
  | unclosed hcs hds => exact .unclosed hcs hds

/-- Nothing is taken where both texts begin outside of a class. -/
theorem Laid.stops {p : Char → Bool} (h : Laid (c :: cs) (d :: ds)) (hc : p c = false)
    (hd : p d = false) : (c :: cs).takeWhile p = (d :: ds).takeWhile p ∧
      Laid ((c :: cs).dropWhile p) ((d :: ds).dropWhile p) := by
  rw [List.takeWhile_cons_of_neg (by simp [hc]), List.takeWhile_cons_of_neg (by simp [hd]),
    List.dropWhile_cons_of_neg (by simp [hc]), List.dropWhile_cons_of_neg (by simp [hd])]
  exact ⟨rfl, h⟩

/-- **Characters of a class** are taken from both texts alike. -/
theorem Laid.span {p : Char → Bool} (hp : Visible p) (h : Laid cs ds) :
    cs.takeWhile p = ds.takeWhile p ∧ Laid (cs.dropWhile p) (ds.dropWhile p) := by
  induction h with
  | @last cs h =>
    cases cs with
    | nil => exact ⟨rfl, .last h⟩
    | cons b cs =>
      have hb := hp.separator b (h b List.mem_cons_self)
      rw [List.takeWhile_cons_of_neg (by simp [hb]), List.dropWhile_cons_of_neg (by simp [hb])]
      exact ⟨rfl, .last h⟩
  | gap hb hd h => exact (Laid.gap hb hd h).stops (hp.separator _ hb) (hp.separator _ hd)
  | @char c _ _ hc hquote hcomment h ih =>
    by_cases hpc : p c = true
    · simp only [List.takeWhile_cons_of_pos hpc, List.dropWhile_cons_of_pos hpc]
      exact ⟨congrArg (c :: ·) ih.1, ih.2⟩
    · have hpc : p c = false := by simpa using hpc
      exact (Laid.char hc hquote hcomment h).stops hpc hpc
  | literal hbody h => exact (Laid.literal hbody h).stops hp.quote hp.quote
  | unclosed hcs hds => exact (Laid.unclosed hcs hds).stops hp.quote hp.quote

/-- A text without separators and quotes begins both texts or none. -/
theorem Laid.isPrefixOf {t : List Char} (ht : ∀ c ∈ t, isSeparator c = false ∧ c ≠ '"')
    (h : Laid cs ds) : t.isPrefixOf cs = t.isPrefixOf ds ∧
      (t.isPrefixOf cs = true → Laid (cs.drop t.length) (ds.drop t.length)) := by
  induction t generalizing cs ds with
  | nil => exact ⟨rfl, fun _ => h⟩
  | cons x t ih =>
    obtain ⟨hx, ht⟩ := List.forall_mem_cons.mp ht
    have hother {b : Char} {bs : List Char} (hb : x ≠ b) :
        (x :: t).isPrefixOf (b :: bs) = false := by
      rw [List.isPrefixOf, beq_eq_false_iff_ne.mpr hb, Bool.false_and]
    have hsep {b : Char} {bs : List Char} (hb : isSeparator b = true) :
        (x :: t).isPrefixOf (b :: bs) = false := by
      refine hother fun heq => ?_
      rw [heq, hb] at hx
      cases hx.1
    cases h with
    | @last cs h =>
      cases cs with
      | nil => exact ⟨rfl, fun h => nomatch h⟩
      | cons b cs =>
        rw [hsep (h b List.mem_cons_self)]
        exact ⟨rfl, fun h => nomatch h⟩
    | gap hb hd =>
      rw [hsep hb, hsep hd]
      exact ⟨rfl, fun h => nomatch h⟩
    | char hc hquote hcomment h =>
      obtain ⟨heq, hrest⟩ := ih ht h
      rw [List.isPrefixOf, List.isPrefixOf, heq]
      refine ⟨rfl, fun hprefix => hrest ?_⟩
      rw [heq]
      exact ((Bool.and_eq_true _ _).mp hprefix).2
    | literal | unclosed =>
      rw [hother hx.2, hother hx.2]
      exact ⟨rfl, fun h => nomatch h⟩

/-! ### Tokens -/

/-- What a function takes from the front of two texts of one layout, and leaves of them, is
alike. -/
def TakesAlike {α : Type} (f : List Char → α × List Char) : Prop :=
  ∀ ⦃cs ds⦄, Laid cs ds → (f cs).1 = (f ds).1 ∧ Laid (f cs).2 (f ds).2

theorem visible_isDigit : Visible Char.isDigit := visible_of_separators (by decide)

theorem visible_isNamePart : Visible isNamePart := visible_of_separators (by decide)

theorem Laid.head_iff (hc : isSeparator c = false) (h : Laid cs ds) :
    cs.headD ' ' = c ↔ ds.headD ' ' = c := by
  have hp : ∀ b, isSeparator b = true → (b == c) = false := by
    intro b hb
    rw [beq_eq_false_iff_ne]
    rintro rfl
    rw [hc] at hb
    cases hb
  have hhead : (cs.headD ' ' == c) = (ds.headD ' ' == c) := h.head hp
  rw [← beq_iff_eq, hhead, beq_iff_eq]

/-- A character outside of literals, and no separator, begins both texts. -/
theorem Laid.tail (h : Laid (c :: cs) ds) (hc : isSeparator c = false) (hquote : c ≠ '"') :
    ∃ ds', ds = c :: ds' ∧ Laid cs ds' := by
  cases h with
  | last h => simp [h c List.mem_cons_self] at hc
  | gap hb => simp [hb] at hc
  | char _ _ _ h => exact ⟨_, rfl, h⟩
  | literal | unclosed => exact absurd rfl hquote

theorem cons_of_headD {c : Char} (hc : c ≠ ' ') (h : cs.headD ' ' = c) :
    ∃ tail, cs = c :: tail := by
  cases cs with
  | nil => exact absurd h.symm hc
  | cons d cs => exact ⟨cs, congrArg (· :: cs) h⟩

theorem fraction_alike : TakesAlike fraction := by
  intro cs ds h
  have hother {cs : List Char} (hcs : cs.headD ' ' ≠ '.') : fraction cs = ([], cs) := by
    unfold fraction
    split
    · exact absurd rfl hcs
    · rfl
  by_cases hpoint : cs.headD ' ' = '.'
  · obtain ⟨cs, rfl⟩ := cons_of_headD (by decide) hpoint
    obtain ⟨ds, rfl, htail⟩ := h.tail (by decide) (by decide)
    obtain ⟨hdigits, hrest⟩ := htail.span visible_isDigit
    have hread (cs : List Char) : fraction ('.' :: cs) =
        if (cs.headD ' ').isDigit then
          ('.' :: cs.takeWhile Char.isDigit, cs.dropWhile Char.isDigit)
        else ([], '.' :: cs) := rfl
    rw [hread, hread, htail.head visible_isDigit.separator, hdigits]
    split
    · exact ⟨rfl, hrest⟩
    · exact ⟨rfl, h⟩
  · rw [hother hpoint, hother ((h.head_iff (by decide)).not.mp hpoint)]
    exact ⟨rfl, h⟩

theorem sign_alike : TakesAlike sign := by
  intro cs ds h
  by_cases hplus : cs.headD ' ' = '+'
  · obtain ⟨cs, rfl⟩ := cons_of_headD (by decide) hplus
    obtain ⟨ds, rfl, htail⟩ := h.tail (by decide) (by decide)
    exact ⟨rfl, htail⟩
  by_cases hminus : cs.headD ' ' = '-'
  · obtain ⟨cs, rfl⟩ := cons_of_headD (by decide) hminus
    obtain ⟨ds, rfl, htail⟩ := h.tail (by decide) (by decide)
    exact ⟨rfl, htail⟩
  have hother {cs : List Char} (hplus : cs.headD ' ' ≠ '+') (hminus : cs.headD ' ' ≠ '-') :
      sign cs = ([], cs) := by
    unfold sign
    split
    · exact absurd rfl hplus
    · exact absurd rfl hminus
    · rfl
  rw [hother hplus hminus, hother ((h.head_iff (by decide)).not.mp hplus)
    ((h.head_iff (by decide)).not.mp hminus)]
  exact ⟨rfl, h⟩

theorem exponent_alike : TakesAlike exponent := by
  intro cs ds h
  let isE : Char → Bool := fun e => e == 'e' || e == 'E'
  have hsep : ∀ c, isSeparator c = true → isE c = false :=
    (visible_of_separators (by decide)).separator
  have hother {cs : List Char} (hcs : isE (cs.headD ' ') = false) : exponent cs = ([], cs) := by
    cases cs with
    | nil => rfl
    | cons c cs => exact if_neg (by simpa [isE] using hcs)
  by_cases he : isE (cs.headD ' ') = true
  · cases cs with
    | nil => cases he
    | cons e cs =>
      have he' : (e == 'e' || e == 'E') = true := he
      have hvisible : isSeparator e = false :=
        Bool.eq_false_iff.mpr fun hblank => Bool.eq_false_iff.mp (hsep e hblank) he'
      obtain ⟨ds, rfl, htail⟩ := h.tail hvisible (by rintro rfl; cases he)
      obtain ⟨hsign, hdigits⟩ := sign_alike htail
      obtain ⟨htaken, hrest⟩ := hdigits.span visible_isDigit
      unfold exponent
      simp only [he', if_true]
      rw [hdigits.head visible_isDigit.separator, hsign, htaken]
      split
      · exact ⟨rfl, hrest⟩
      · exact ⟨rfl, h⟩
  · have he : isE (cs.headD ' ') = false := by simpa using he
    rw [hother he, hother ((h.head hsep).symm.trans he)]
    exact ⟨rfl, h⟩

theorem scanNumber_alike : TakesAlike scanNumber := by
  intro cs ds h
  obtain ⟨hwhole, hfraction⟩ := h.span visible_isDigit
  obtain ⟨hpoint, hexponent⟩ := fraction_alike hfraction
  obtain ⟨hpower, hrest⟩ := exponent_alike hexponent
  unfold scanNumber
  dsimp only
  rw [hwhole, hpoint, hpower]
  exact ⟨rfl, hrest⟩

theorem scanWord_alike : TakesAlike scanWord := by
  intro cs ds h
  obtain ⟨hword, hrest⟩ := h.span visible_isNamePart
  unfold scanWord
  rw [hword]
  exact ⟨rfl, hrest⟩

theorem visible_symbol (s : Symbol) : ∀ c ∈ s.text.toList, isSeparator c = false ∧ c ≠ '"' := by
  cases s <;> simp [Symbol.text, isSeparator]

theorem scanSymbol?_alike (h : Laid cs ds) : scanSymbol? cs = none ∧ scanSymbol? ds = none ∨
    ∃ t rest rest', scanSymbol? cs = some (t, rest) ∧ scanSymbol? ds = some (t, rest') ∧
      Laid rest rest' := by
  have hfind : Symbol.all.find? (fun s => s.text.toList.isPrefixOf cs) =
      Symbol.all.find? fun s => s.text.toList.isPrefixOf ds := by
    congr 1
    funext s
    exact (h.isPrefixOf (visible_symbol s)).1
  unfold scanSymbol?
  rw [hfind]
  cases hs : Symbol.all.find? fun s => s.text.toList.isPrefixOf ds with
  | none => exact .inl ⟨rfl, rfl⟩
  | some s =>
    have hprefix : s.text.toList.isPrefixOf cs = true :=
      List.find?_some (p := fun s : Symbol => s.text.toList.isPrefixOf cs) (hfind.trans hs)
    have hrest := (h.isPrefixOf (visible_symbol s)).2 hprefix
    rw [String.length_toList] at hrest
    exact .inr ⟨_, _, _, rfl, rfl, hrest⟩

/-- A token that is neither a literal nor a comment. -/
theorem next_plain (hquote : c ≠ '"')
    (hcomment : c = '/' → cs.headD ' ' ≠ '/' ∧ cs.headD ' ' ≠ '*') :
    next (c :: cs) =
      if c.isDigit || (c == '.' && (cs.headD ' ').isDigit) then .ok (scanNumber (c :: cs))
      else if isNameStart c then .ok (scanWord (c :: cs))
      else (scanSymbol? (c :: cs)).elim (.error (.unexpected c)) .ok := by
  unfold next
  split
  · next heq => exact absurd (List.cons.inj heq).1 hquote
  · next heq =>
    obtain ⟨hc, rfl⟩ := List.cons.inj heq
    exact absurd rfl (hcomment hc).1
  · next heq =>
    obtain ⟨hc, rfl⟩ := List.cons.inj heq
    exact absurd rfl (hcomment hc).2
  · dsimp only [List.headD_cons, List.tail_cons]
    cases scanSymbol? (c :: cs) <;> rfl

/-- **The first token** of both texts, or a fault in both. -/
theorem Laid.next (h : Laid cs ds) (hvisible : isSeparator (cs.headD ' ') = false) :
    (∃ e e', Token.next cs = .error e ∧ Token.next ds = .error e') ∨
      ∃ t rest rest', Token.next cs = .ok (t, rest) ∧ Token.next ds = .ok (t, rest') ∧
        Laid rest rest' := by
  cases h with
  | @last cs h =>
    cases cs with
    | nil => cases hvisible
    | cons b cs => cases hvisible.symm.trans (h b List.mem_cons_self)
  | gap hb => cases hvisible.symm.trans hb
  | @char c cs ds hc hquote hcomment h =>
    have hslash : isSeparator '/' = false ∧ isSeparator '*' = false := by decide
    have hcomment' : c = '/' → ds.headD ' ' ≠ '/' ∧ ds.headD ' ' ≠ '*' := fun hc =>
      ⟨(h.head_iff hslash.1).not.mp (hcomment hc).1, (h.head_iff hslash.2).not.mp (hcomment hc).2⟩
    have hall := Laid.char hc hquote hcomment h
    rw [next_plain hquote hcomment, next_plain hquote hcomment',
      h.head visible_isDigit.separator]
    split
    · obtain ⟨htoken, hrest⟩ := scanNumber_alike hall
      exact .inr ⟨(scanNumber (c :: cs)).1, (scanNumber (c :: cs)).2, (scanNumber (c :: ds)).2, rfl,
        congrArg Except.ok (Prod.ext htoken.symm rfl), hrest⟩
    · split
      · obtain ⟨htoken, hrest⟩ := scanWord_alike hall
        exact .inr ⟨(scanWord (c :: cs)).1, (scanWord (c :: cs)).2, (scanWord (c :: ds)).2, rfl,
          congrArg Except.ok (Prod.ext htoken.symm rfl), hrest⟩
      · rcases scanSymbol?_alike hall with ⟨hcs, hds⟩ | ⟨t, rest, rest', hcs, hds, hrest⟩
        · rw [hcs, hds]
          exact .inl ⟨_, _, rfl, rfl⟩
        · rw [hcs, hds]
          exact .inr ⟨t, rest, rest', rfl, rfl, hrest⟩
  | literal hbody h =>
    rcases next_literal hbody with hfault | ⟨s, hread⟩
    · obtain ⟨e, he⟩ := hfault _
      obtain ⟨e', he'⟩ := hfault _
      exact .inl ⟨e, e', he, he'⟩
    · exact .inr ⟨string s, _, _, hread _, hread _, h⟩
  | unclosed hcs hds => exact .inl ⟨_, _, next_unclosed hcs, next_unclosed hds⟩

/-- Tokens without their places. -/
def tokens? (r : Except LexError (List Lexeme)) : Option (List Token) :=
  r.toOption.map fun ls => ls.map Lexeme.token

/-- The tokens of a text that does not end: none with a fault, else the first and those behind. -/
theorem tokens?_scanFrom_succ (hne : cs.dropWhile isSeparator ≠ []) (n start : Nat) :
    ∃ stop : List Char → Nat, tokens? (scanFrom (n + 1) start cs) =
      match Token.next (cs.dropWhile isSeparator) with
      | .error _ => none
      | .ok (t, rest) => (tokens? (scanFrom n (stop rest) rest)).map (t :: ·) := by
  refine ⟨fun rest => start + byteSize (cs.takeWhile isSeparator) +
    (byteSize (cs.dropWhile isSeparator) - byteSize rest), ?_⟩
  rw [scanFrom]
  simp only [List.isEmpty_iff, hne, if_false]
  cases Token.next (cs.dropWhile isSeparator) with
  | error e => rfl
  | ok out =>
    obtain ⟨t, rest⟩ := out
    dsimp only
    cases scanFrom n _ rest <;> rfl

theorem headD_dropWhile_iff : isSeparator ((cs.dropWhile isSeparator).headD ' ') = false ↔
    cs.dropWhile isSeparator ≠ [] := by
  cases h : cs.dropWhile isSeparator with
  | nil => exact iff_of_false (by decide) fun h => h rfl
  | cons c tail =>
    have hc := List.head?_dropWhile_not isSeparator cs
    rw [h] at hc
    exact ⟨fun _ => List.cons_ne_nil c tail, fun _ => hc⟩

theorem Laid.blank_iff (h : Laid (cs.dropWhile isSeparator) (ds.dropWhile isSeparator)) :
    cs.dropWhile isSeparator = [] ↔ ds.dropWhile isSeparator = [] := by
  have hhead : (!isSeparator ((cs.dropWhile isSeparator).headD ' ')) =
      !isSeparator ((ds.dropWhile isSeparator).headD ' ') :=
    h.head (p := fun c => !isSeparator c) fun c hc => by rw [hc]; rfl
  rw [← not_iff_not, ← ne_eq, ← ne_eq, ← headD_dropWhile_iff, ← headD_dropWhile_iff,
    Bool.not_inj hhead]

/-- **Texts of one layout have the same tokens**, or none of them has any. -/
theorem tokens?_laid (h : Laid (cs.dropWhile isSeparator) (ds.dropWhile isSeparator)) {m n : Nat}
    (hm : cs.length ≤ m) (hn : ds.length ≤ n) (start start' : Nat) :
    tokens? (scanFrom m start cs) = tokens? (scanFrom n start' ds) := by
  induction m generalizing n cs ds start start' with
  | zero =>
    have hcs : cs.dropWhile isSeparator = [] := by
      rw [List.length_eq_zero_iff.mp (Nat.le_zero.mp hm)]
      rfl
    rw [scanFrom_blank hcs, scanFrom_blank (h.blank_iff.mp hcs)]
  | succ m ih =>
    by_cases hcs : cs.dropWhile isSeparator = []
    · rw [scanFrom_blank hcs, scanFrom_blank (h.blank_iff.mp hcs)]
    have hds : ds.dropWhile isSeparator ≠ [] := h.blank_iff.not.mp hcs
    have hle := List.length_dropWhile_le isSeparator cs
    have hle' := List.length_dropWhile_le isSeparator ds
    obtain ⟨n, rfl⟩ : ∃ k, n = k + 1 :=
      Nat.exists_eq_succ_of_ne_zero fun hzero => hds (List.length_eq_zero_iff.mp (by omega))
    obtain ⟨stop, hfirst⟩ := tokens?_scanFrom_succ hcs m start
    obtain ⟨stop', hsecond⟩ := tokens?_scanFrom_succ hds n start'
    rw [hfirst, hsecond]
    rcases h.next (headD_dropWhile_iff.mpr hcs) with
      ⟨e, e', he, he'⟩ | ⟨t, rest, rest', ht, ht', hrest⟩
    · rw [he, he']
    · have hshort := (leaves_of_next ht).shorter
      have hshort' := (leaves_of_next ht').shorter
      rw [ht, ht']
      exact congrArg (Option.map (t :: ·))
        (ih hrest.dropWhile_separator (by omega) (by omega) (stop rest) (stop' rest'))

end Token

/-! ### Normal forms -/

namespace Key

open Text Token

mutual

/-- Outside of literals every blank is a separator, and no comment is opened. -/
def uncommented : List Char → Bool
  | [] => true
  | c :: cs =>
    (!isBlank c || isSeparator c) &&
      !(c == '/' && (cs.headD ' ' == '/' || cs.headD ' ' == '*')) &&
        if c == '"' then uncommentedLiteral cs else uncommented cs

/-- The same for the text behind a literal that has begun. -/
def uncommentedLiteral : List Char → Bool
  | [] => true
  | '\\' :: _ :: cs => uncommentedLiteral cs
  | c :: cs => if c == '"' then uncommented cs else uncommentedLiteral cs

end

variable {c : Char} {cs body rest : List Char}

theorem isBlank_of_isSeparator (h : isSeparator c = true) : isBlank c = true := by
  simp only [isSeparator, Bool.or_eq_true, beq_iff_eq] at h
  rcases h with ((rfl | rfl) | rfl) | rfl <;> decide

theorem not_separator (h : isBlank c = false) : isSeparator c = false :=
  Bool.eq_false_iff.mpr fun hc => Bool.eq_false_iff.mp h (isBlank_of_isSeparator hc)

theorem literal_inside (h : Inside body) (rest : List Char) :
    literal (body ++ '"' :: rest) = body ++ '"' :: collapse false rest := by
  induction h with
  | nil => exact literal_quote rest
  | plain hquote hescape h ih => rw [List.cons_append, literal_of_plain hquote hescape, ih]; rfl
  | escape h ih => rw [List.cons_append, List.cons_append, literal_escape, ih]; rfl

theorem uncommentedLiteral_inside (h : Inside body) (rest : List Char) :
    uncommentedLiteral (body ++ '"' :: rest) = uncommented rest := by
  induction h with
  | nil => simp [uncommentedLiteral]
  | plain hquote hescape h ih =>
    rw [List.cons_append, uncommentedLiteral]
    · simpa [hquote] using ih
    · simp [hescape]
  | escape h ih => rw [List.cons_append, List.cons_append, uncommentedLiteral, ih]

theorem literal_unclosed : ∀ {cs : List Char}, Unclosed cs → literal cs = cs
  | [], _ => rfl
  | [c], h => by
    have hquote : c ≠ '"' := by
      rintro rfl
      exact h ⟨[], [], .nil, rfl⟩
    simp [literal, hquote]
  | c :: d :: cs, h => by
    by_cases hescape : c = '\\'
    · subst hescape
      have hrest : Unclosed cs := fun ⟨body, rest, hbody, hcs⟩ =>
        h ⟨'\\' :: d :: body, rest, .escape hbody, by rw [hcs]; rfl⟩
      rw [literal_escape, literal_unclosed hrest]
    · have hquote : c ≠ '"' := by
        rintro rfl
        exact h ⟨[], d :: cs, .nil, rfl⟩
      have hrest : Unclosed (d :: cs) := fun ⟨body, rest, hbody, hcs⟩ =>
        h ⟨c :: body, rest, .plain hquote hescape hbody, by rw [hcs]; rfl⟩
      rw [literal_of_plain hquote hescape, literal_unclosed hrest]

theorem trimEnd_initial (cs : List Char) : trimEnd cs <+: cs := by
  rw [trimEnd, ← List.reverse_suffix, List.reverse_reverse]
  exact List.dropWhile_suffix _

/-- Nothing is trimmed off before a character that is not blank. -/
theorem trimEnd_append (body : List Char) (hc : isBlank c = false) :
    trimEnd (body ++ c :: cs) = body ++ c :: trimEnd cs := by
  induction body with
  | nil => exact trimEnd_cons_of_unblank hc
  | cons d body ih =>
    rw [List.cons_append, trimEnd_cons, ih]
    simp

theorem collapse_dropWhile (cs : List Char) :
    collapse true cs = collapse true (cs.dropWhile isSeparator) := by
  induction cs with
  | nil => rfl
  | cons c cs ih =>
    by_cases hc : isSeparator c = true
    · rw [List.dropWhile_cons_of_pos hc, collapse_of_blank true (isBlank_of_isSeparator hc), ih]
    · rw [List.dropWhile_cons_of_neg hc]

/-- A character outside of literals, and what stands behind it. -/
theorem uncommented_cons (h : uncommented (c :: cs) = true) :
    (isBlank c = true → isSeparator c = true) ∧
      (c = '/' → cs.headD ' ' ≠ '/' ∧ cs.headD ' ' ≠ '*') ∧
        (if c = '"' then uncommentedLiteral cs else uncommented cs) = true := by
  simp only [uncommented, Bool.and_eq_true, beq_iff_eq] at h
  obtain ⟨⟨hblank, hcomment⟩, hrest⟩ := h
  refine ⟨fun hc => by simpa [hc] using hblank, ?_, hrest⟩
  rintro rfl
  simpa using hcomment

theorem uncommented_tail (h : uncommented (c :: cs) = true) (hquote : c ≠ '"') :
    uncommented cs = true := by
  obtain ⟨-, -, hrest⟩ := uncommented_cons h
  rwa [if_neg hquote] at hrest

theorem uncommented_dropWhile (h : uncommented cs = true) :
    uncommented (cs.dropWhile isSeparator) = true := by
  induction cs with
  | nil => exact h
  | cons c cs ih =>
    by_cases hc : isSeparator c = true
    · rw [List.dropWhile_cons_of_pos hc]
      exact ih (uncommented_tail h (by rintro rfl; cases hc))
    · rwa [List.dropWhile_cons_of_neg hc]

/-- What remains behind separators begins with a character that is not blank. -/
theorem not_blank_dropWhile {tail : List Char} (h : uncommented cs = true)
    (heq : cs.dropWhile isSeparator = c :: tail) : isBlank c = false := by
  have hvisible := headD_dropWhile_iff.mpr (heq ▸ List.cons_ne_nil c tail)
  have hrest := uncommented_dropWhile h
  rw [heq] at hvisible hrest
  exact Bool.eq_false_iff.mpr fun hblank =>
    Bool.eq_false_iff.mp hvisible ((uncommented_cons hrest).1 hblank)

theorem trimStart_uncommented (h : uncommented cs = true) :
    trimStart cs = cs.dropWhile isSeparator := by
  induction cs with
  | nil => rfl
  | cons c cs ih =>
    by_cases hc : isSeparator c = true
    · rw [trimStart_cons_of_blank (isBlank_of_isSeparator hc), List.dropWhile_cons_of_pos hc]
      exact ih (uncommented_tail h (by rintro rfl; cases hc))
    · have hblank : isBlank c = false :=
        Bool.eq_false_iff.mpr fun hblank => hc ((uncommented_cons h).1 hblank)
      rw [trimStart_of_head hblank, List.dropWhile_cons_of_neg hc]

/-- **A text and its normal form** are of one layout. -/
theorem laid_normal {cs : List Char} (h : uncommented cs = true) :
    Laid cs (collapse false (trimEnd cs)) := by
  match cs with
  | [] => exact .last (by simp)
  | c :: cs =>
    obtain ⟨hseparator, hcomment, hrest⟩ := uncommented_cons h
    by_cases hblank : isBlank c = true
    · -- a run of separators and its one blank, or the separators at the end
      have hc := hseparator hblank
      have hdrop : (c :: cs).dropWhile isSeparator = cs.dropWhile isSeparator :=
        List.dropWhile_cons_of_pos hc
      have hnormal : collapse false (trimEnd (c :: cs)) =
          collapse true (trimEnd (cs.dropWhile isSeparator)) := by
        rw [← trimEnd_collapse, collapse_of_blank false hblank, collapse_dropWhile,
          trimEnd_collapse]
      rw [hnormal]
      cases hbehind : cs.dropWhile isSeparator with
      | nil => exact .last (List.dropWhile_eq_nil_iff.mp (hdrop.trans hbehind))
      | cons d tail =>
        have hd := not_blank_dropWhile h (hdrop.trans hbehind)
        have hshort : (d :: tail).length ≤ cs.length :=
          hbehind ▸ List.length_dropWhile_le isSeparator cs
        have hlayout : Laid (d :: tail) (collapse false (trimEnd (d :: tail))) :=
          laid_normal (hbehind ▸ hdrop ▸ uncommented_dropWhile h)
        rw [trimEnd_cons_of_unblank hd] at hlayout ⊢
        rw [collapse_of_unblank true hd]
        refine .gap hc rfl ?_
        obtain ⟨ds, hds⟩ := exists_collapse (trimEnd tail) hd
        rw [hds] at hlayout ⊢
        rw [hbehind]
        show Laid (d :: tail) ((d :: ds).dropWhile isSeparator)
        rwa [List.dropWhile_cons_of_neg (Bool.eq_false_iff.mp (not_separator hd))]
    · have hblank : isBlank c = false := by simpa using hblank
      by_cases hquote : c = '"'
      · subst hquote
        rw [trimEnd_cons_of_unblank hblank, collapse_quote]
        by_cases hclosed : Unclosed cs
        · have hcut := hclosed.of_initial (trimEnd_initial cs)
          rw [literal_unclosed hcut]
          exact .unclosed hclosed hcut
        · obtain ⟨body, rest, hbody, rfl⟩ := not_not.mp hclosed
          rw [if_pos rfl, uncommentedLiteral_inside hbody] at hrest
          rw [trimEnd_append body hblank, literal_inside hbody]
          exact .literal hbody (laid_normal hrest)
      · rw [trimEnd_cons_of_unblank hblank, collapse_of_plain hblank hquote]
        exact .char (not_separator hblank) hquote hcomment (laid_normal (uncommented_tail h hquote))
termination_by cs.length

/-- **Normal texts.** A normal text is its own normal form; and where outside of literals every
blank is a separator and no comment is opened, a text and its normal form have the same tokens, or
neither of them is one of tokens. -/
theorem normalize_keeps_tokens :
    (∀ source, normalize (normalize source) = normalize source) ∧
      ∀ source, uncommented source.toList = true →
        tokens? (scan (normalize source)) = tokens? (scan source) := by
  refine ⟨normalize_normalize, fun source h => ?_⟩
  have hlayout := (laid_normal (uncommented_dropWhile h)).dropWhile_separator
  rw [← trimStart_uncommented h, ← toList_normalize, trimStart_uncommented h,
    List.dropWhile_idempotent] at hlayout
  exact (tokens?_laid hlayout (Nat.le_of_eq String.length_toList)
    (Nat.le_of_eq String.length_toList) 0 0).symm

/-- A literal keeps its blanks and its slashes; an escape without its digits is read in neither
text. -/
theorem normalize_keeps_tokens_literal :
    let source := " a  +\t\"x  // \\\" \"\r\n"
    let faulty := "a  + \"\\u12  \"  b"
    uncommented source.toList = true ∧ normalize source = "a + \"x  // \\\" \"" ∧
      tokens? (scan (normalize source)) = tokens? (scan source) ∧
      tokens? (scan source) = some [name "a", symbol .plus, string "x  // \" "] ∧
      uncommented faulty.toList = true ∧ normalize faulty = "a + \"\\u12  \" b" ∧
      tokens? (scan (normalize faulty)) = tokens? (scan faulty) ∧
      tokens? (scan faulty) = none := by
  intro source faulty
  have hsource : uncommented source.toList = true := by decide
  have hfaulty : uncommented faulty.toList = true := by decide
  exact ⟨hsource, by decide, normalize_keeps_tokens.2 source hsource, by decide, hfaulty,
    by decide, normalize_keeps_tokens.2 faulty hfaulty, by decide⟩

end Key

end Feel
