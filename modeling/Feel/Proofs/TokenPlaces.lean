import Feel.Surface.Cursor
import Mathlib.Data.List.TakeWhile
import Mathlib.Data.String.Basic

/-!
# Where tokens stand

Tokens are taken from the front of a text, each with a character at least. So they stand one behind
the other, and each begins and ends between two characters. Literals and block comments count the
bytes that they read, and what is behind these bytes is what is left.

* `Token.Inside`, `Token.exists_inside`: literals, where they end, and the bytes that are counted.
* `Token.leaves_of_next`: what is left of a text behind its first token.
* `Boundary`, `Stretch`: places between characters, and the text from one to a later one.
* `Ranked`: stretches of text that stand one behind the other.
* `Token.Tiled`: a text divided into tokens, with separators between them.
* `Piece.ranked`: the tokens of a text are such stretches.
-/

namespace Feel

namespace Token

/-! ### Bytes -/

theorem byteSize_eq (cs : List Char) : byteSize cs = String.utf8Len cs := by
  have hfoldl (n : Nat) :
      cs.foldl (fun n c => n + c.utf8Size) n = n + String.utf8Len cs := by
    induction cs generalizing n with
    | nil => rfl
    | cons c cs ih => rw [List.foldl_cons, ih, String.utf8Len_cons]; omega
  rw [byteSize, hfoldl, Nat.zero_add]

theorem byteSize_cons (c : Char) (cs : List Char) :
    byteSize (c :: cs) = byteSize cs + c.utf8Size := by
  rw [byteSize_eq, byteSize_eq, String.utf8Len_cons]

theorem byteSize_append (cs ds : List Char) : byteSize (cs ++ ds) = byteSize cs + byteSize ds := by
  simp only [byteSize_eq, String.utf8Len_append]

/-- Behind the bytes of a first part is the rest. -/
theorem bump_append (front rest : List Char) : bump (byteSize front) (front ++ rest) = rest := by
  induction front with
  | nil => cases rest <;> rfl
  | cons c cs ih =>
    have hpos : byteSize cs + c.utf8Size ≠ 0 := Nat.ne_of_gt (Nat.add_pos_right _ c.utf8Size_pos)
    rw [List.cons_append, bump, byteSize_cons, if_neg hpos, Nat.add_sub_cancel, ih]

/-! ### Literals -/

/-- The contents of a literal; a quote in them stands behind a backslash. -/
inductive Inside : List Char → Prop
  | nil : Inside []
  | plain {c : Char} {cs : List Char} (hquote : c ≠ '"') (hescape : c ≠ '\\') (h : Inside cs) :
    Inside (c :: cs)
  | escape {c : Char} {cs : List Char} (h : Inside cs) : Inside ('\\' :: c :: cs)

section Literals

variable {cs out : List Char} {s : String} {n m : Nat}

theorem isDigit_of_hexValue? (h : hexValue? cs = some n) : ∀ x ∈ cs, (hexDigit? x).isSome := by
  unfold hexValue? at h
  generalize 0 = start at h
  induction cs generalizing start with
  | nil => simp
  | cons c cs ih =>
    rw [List.foldlM_cons] at h
    obtain ⟨m, hm, hrest⟩ := Option.bind_eq_some_iff.mp h
    obtain ⟨k, hk, -⟩ := Option.map_eq_some_iff.mp hm
    exact List.forall_mem_cons.mpr ⟨Option.isSome_of_mem hk, ih m hrest⟩

theorem utf8Size_of_hexDigit? {x : Char} (h : (hexDigit? x).isSome) : x.utf8Size = 1 := by
  refine Char.utf8Size_eq_one_iff.mpr ?_
  by_contra hlarge
  simp only [hexDigit?, Char.isDigit, Char.le_def, UInt32.le_iff_toNat_le, Bool.and_eq_true,
    decide_eq_true_eq] at h hlarge
  split_ifs at h with hdigit hsmall hcapital
  · exact hlarge (hdigit.2.trans (by decide))
  · exact hlarge (hsmall.2.trans (by decide))
  · exact hlarge (hcapital.2.trans (by decide))
  · cases h

/-- The places of an escape hold neither quotes nor backslashes, and each is one byte. -/
theorem plain_of_escaped? {a b c d e : Char} (h : escaped? a b c d = some e) {x : Char}
    (hx : x ∈ [a, b, c, d]) : x ≠ '"' ∧ x ≠ '\\' ∧ x.utf8Size = 1 := by
  obtain ⟨n, hn, -⟩ := Option.bind_eq_some_iff.mp h
  have hdigits := isDigit_of_hexValue? hn
  have hplace : (hexDigit? x).isSome ∨ x = '+' := by
    split at hdigits
    · next hplus =>
      rcases List.mem_cons.mp hx with rfl | hx
      · exact .inr (by simpa using hplus)
      · exact .inl (hdigits x hx)
    · exact .inl (hdigits x hx)
  refine ⟨?_, ?_, ?_⟩
  · rintro rfl
    exact absurd hplace (by decide)
  · rintro rfl
    exact absurd hplace (by decide)
  · rcases hplace with hdigit | rfl
    · exact utf8Size_of_hexDigit? hdigit
    · rfl

/-- Behind the bytes of a literal is the rest. -/
theorem bump_literal (body rest : List Char) :
    bump (byteSize (body ++ ['"'])) (body ++ '"' :: rest) = rest := by
  rw [List.append_cons body '"' rest, bump_append]

/-- The bytes of an escape and of what is behind it. -/
theorem byteSize_escape (c : Char) (n : Nat) (cs : List Char) :
    n + byteSize ('\\' :: c :: cs) = n + 1 + c.utf8Size + byteSize cs := by
  rw [byteSize_cons, byteSize_cons, show '\\'.utf8Size = 1 from rfl]
  omega

/-- **What is read of a literal** is its contents up to its end, whatever follows; the bytes that
are counted are those of the contents and of the closing quote. -/
theorem exists_inside (h : scanString cs out n = some (s, m)) :
    ∃ body rest, Inside body ∧ cs = body ++ '"' :: rest ∧ m = n + byteSize (body ++ ['"']) ∧
      ∀ rest', scanString (body ++ '"' :: rest') out n = some (s, m) := by
  fun_induction scanString cs out n with
  | case1 | case4 | case5 | case13 => cases h
  | case2 rest out n =>
    cases h
    exact ⟨[], rest, .nil, rfl, rfl, fun rest' => by simp [scanString]⟩
  | case3 a b c d cs out n e he ih =>
    obtain ⟨body, rest, hbody, rfl, rfl, hread⟩ := ih h
    have hplain {x : Char} (hx : x ∈ [a, b, c, d]) := plain_of_escaped? he hx
    have hinside {x : Char} (hx : x ∈ [a, b, c, d]) {cs : List Char} (hcs : Inside cs) :
        Inside (x :: cs) := .plain (hplain hx).1 (hplain hx).2.1 hcs
    refine ⟨'\\' :: 'u' :: a :: b :: c :: d :: body, rest, .escape ?_, rfl, ?_, fun rest' => ?_⟩
    · exact hinside (by simp) (hinside (by simp) (hinside (by simp) (hinside (by simp) hbody)))
    · have hone {x : Char} (hx : x ∈ [a, b, c, d]) {cs : List Char} :
          byteSize (x :: cs) = byteSize cs + 1 := by rw [byteSize_cons, (hplain hx).2.2]
      simp only [List.cons_append]
      rw [byteSize_escape, hone (by simp), hone (by simp), hone (by simp), hone (by simp),
        show 'u'.utf8Size = 1 from rfl]
      omega
    · simp [scanString, he, hread]
  | case14 c cs out n hquote _ _ hescape hlast ih =>
    obtain ⟨body, rest, hbody, rfl, rfl, hread⟩ := ih h
    have hslash : c ≠ '\\' := by
      intro hc
      cases hrest : body ++ '"' :: rest with
      | nil => exact hlast hc hrest
      | cons d ds => exact hescape d ds hc hrest
    refine ⟨c :: body, rest, .plain hquote hslash hbody, rfl, ?_, fun rest' => ?_⟩
    · rw [List.cons_append, byteSize_cons, Nat.add_assoc, Nat.add_comm c.utf8Size]
    · simp [scanString, hslash, hread]
  | case6 _ _ _ _ _ ih | case7 _ _ _ _ _ ih | case8 _ _ _ _ _ ih | case9 _ _ _ _ _ ih
  | case10 _ _ _ _ _ ih | case11 _ _ _ _ _ ih =>
    obtain ⟨body, rest, hbody, rfl, rfl, hread⟩ := ih h
    exact ⟨_, rest, .escape hbody, rfl, (byteSize_escape _ _ _).symm,
      fun rest' => by simp [scanString, hread]⟩
  | case12 c cs out n _ _ _ _ _ _ _ _ ih =>
    obtain ⟨body, rest, hbody, rfl, rfl, hread⟩ := ih h
    refine ⟨_, rest, .escape hbody, rfl, (byteSize_escape _ _ _).symm, fun rest' => ?_⟩
    rw [← hread rest']
    show scanString ('\\' :: c :: (body ++ '"' :: rest')) out n = _
    conv_lhs => unfold scanString
    split <;> grind

end Literals

/-! ### One token -/

/-- A text that is left behind a first part of another. -/
structure Leaves (cs rest : List Char) : Prop where
  suffix : rest <:+ cs
  shorter : rest.length < cs.length

theorem Leaves.of_suffix {c : Char} {cs rest : List Char} (h : rest <:+ cs) :
    Leaves (c :: cs) rest :=
  ⟨h.trans (List.suffix_cons c cs), Nat.lt_succ_of_le h.length_le⟩

/-- What is read of a block comment is counted. -/
theorem scanComment_counts {cs out : List Char} {s : String} {n m : Nat}
    (h : scanComment cs out n = some (s, m)) :
    ∃ front rest, cs = front ++ rest ∧ m = n + byteSize front := by
  fun_induction scanComment cs out n with
  | case1 rest out n =>
    cases h
    exact ⟨['*', '/'], rest, rfl, rfl⟩
  | case2 c cs out n _ ih =>
    obtain ⟨front, rest, rfl, rfl⟩ := ih h
    refine ⟨c :: front, rest, rfl, ?_⟩
    rw [byteSize_cons, Nat.add_assoc, Nat.add_comm c.utf8Size]
  | case3 => cases h

theorem fraction_suffix (cs : List Char) : (fraction cs).2 <:+ cs := by
  unfold fraction
  split
  · split
    · exact (List.dropWhile_suffix _).trans (List.suffix_cons _ _)
    · exact List.suffix_rfl
  · exact List.suffix_rfl

theorem sign_suffix (cs : List Char) : (sign cs).2 <:+ cs := by
  unfold sign
  split
  · exact List.suffix_cons _ _
  · exact List.suffix_cons _ _
  · exact List.suffix_rfl

theorem exponent_suffix (cs : List Char) : (exponent cs).2 <:+ cs := by
  unfold exponent
  split
  · next e rest =>
    split
    · dsimp only
      split
      · exact (List.dropWhile_suffix _).trans ((sign_suffix rest).trans (List.suffix_cons e rest))
      · exact List.suffix_rfl
    · exact List.suffix_rfl
  · exact List.suffix_rfl

/-- A number begins with a digit, or with a point and a digit. -/
theorem leaves_scanNumber {cs : List Char}
    (h : ((cs.headD ' ').isDigit ||
      (cs.headD ' ' == '.' && (cs.tail.headD ' ').isDigit)) = true) :
    Leaves cs (scanNumber cs).2 := by
  cases cs with
  | nil => cases h
  | cons c cs =>
    refine .of_suffix ((exponent_suffix _).trans ?_)
    by_cases hdigit : c.isDigit = true
    · rw [List.dropWhile_cons_of_pos hdigit]
      exact (fraction_suffix _).trans (List.dropWhile_suffix _)
    · obtain ⟨rfl, hnext⟩ : c = '.' ∧ (cs.headD ' ').isDigit = true := by simpa [hdigit] using h
      rw [List.dropWhile_cons_of_neg hdigit]
      show (if _ then _ else _ : List Char × List Char).2 <:+ cs
      rw [if_pos hnext]
      exact List.dropWhile_suffix _

theorem leaves_scanWord {cs : List Char} (h : isNameStart (cs.headD ' ') = true) :
    Leaves cs (scanWord cs).2 := by
  cases cs with
  | nil => cases h
  | cons c cs =>
    have hpart : isNamePart c = true := by
      simp only [List.headD_cons, isNameStart, isNamePart, Char.isAlphanum, Bool.or_eq_true] at h ⊢
      tauto
    refine .of_suffix ?_
    rw [scanWord, List.dropWhile_cons_of_pos hpart]
    exact List.dropWhile_suffix _

theorem leaves_scanSymbol {cs rest : List Char} {t : Token}
    (h : scanSymbol? cs = some (t, rest)) : Leaves cs rest := by
  obtain ⟨s, hs, hrest⟩ := Option.map_eq_some_iff.mp h
  have hprefix : s.text.toList.isPrefixOf cs = true :=
    List.find?_some (p := fun s : Symbol => s.text.toList.isPrefixOf cs) hs
  obtain ⟨tail, htail⟩ := List.isPrefixOf_iff_prefix.mp hprefix
  have hpos : 0 < s.text.length := by cases s <;> decide
  obtain rfl : cs.drop s.text.length = rest := congrArg Prod.snd hrest
  refine ⟨List.drop_suffix _ _, ?_⟩
  have hlength : s.text.length ≤ cs.length := by
    rw [← htail, List.length_append, String.length_toList]
    exact Nat.le_add_right _ _
  rw [List.length_drop]
  omega

/-- **A token takes a character at least**, and leaves what is behind it as it is. -/
theorem leaves_of_next {cs rest : List Char} {t : Token} (h : next cs = .ok (t, rest)) :
    Leaves cs rest := by
  unfold next at h
  split at h
  · split at h
    · next hs =>
      cases h
      obtain ⟨body, rest, -, rfl, rfl, -⟩ := exists_inside hs
      rw [Nat.zero_add, bump_literal]
      exact .of_suffix ⟨body ++ ['"'], by simp⟩
    · cases h
  · cases h
    exact .of_suffix ((List.dropWhile_suffix _).trans (List.suffix_cons _ _))
  · split at h
    · next hs =>
      cases h
      obtain ⟨front, rest, rfl, rfl⟩ := scanComment_counts hs
      rw [Nat.zero_add, bump_append]
      exact .of_suffix ((List.suffix_append _ _).trans (List.suffix_cons _ _))
    · cases h
  · dsimp only at h
    split at h
    · next hnumber =>
      rw [← show (scanNumber cs).2 = rest from congrArg Prod.snd (Except.ok.inj h)]
      exact leaves_scanNumber hnumber
    · split at h
      · next hname =>
        rw [← show (scanWord cs).2 = rest from congrArg Prod.snd (Except.ok.inj h)]
        exact leaves_scanWord hname
      · split at h
        · next hs =>
          cases h
          exact leaves_scanSymbol hs
        · cases h

end Token

/-! ### Places in a text -/

/-- A byte offset between two characters of a text, or at one of its ends. -/
def Boundary (source : String) (n : Nat) : Prop := String.Pos.Raw.IsValid source ⟨n⟩

/-- The text from one boundary to a later one. -/
structure Stretch (source : String) (start stop : Nat) : Prop where
  nonempty : start < stop
  starts : Boundary source start
  ends : Boundary source stop

theorem Boundary.le {source : String} {n : Nat} (h : Boundary source n) :
    n ≤ source.utf8ByteSize := h.le_rawEndPos

/-- Stretches of a text that stand one behind the other. -/
structure Ranked (source : String) (stretches : List (Nat × Nat)) : Prop where
  stretch : ∀ s ∈ stretches, Stretch source s.1 s.2
  order : stretches.Pairwise fun s t => s.2 ≤ t.1

theorem Ranked.sublist {source : String} {short long : List (Nat × Nat)}
    (h : Ranked source long) (hshort : short.Sublist long) : Ranked source short :=
  ⟨fun s hs => h.stretch s (hshort.subset hs), h.order.sublist hshort⟩

namespace Token

/-- What stands behind a byte offset of a text. -/
def Behind (source : String) (n : Nat) (cs : List Char) : Prop :=
  ∃ before, source = String.ofList (before ++ cs) ∧ n = byteSize before

section Behind

variable {source : String} {n : Nat}

theorem Behind.boundary {cs : List Char} (h : Behind source n cs) : Boundary source n := by
  obtain ⟨before, rfl, rfl⟩ := h
  refine String.Pos.Raw.isValid_iff_exists_append.mpr
    ⟨String.ofList before, String.ofList cs, String.ofList_append, ?_⟩
  rw [String.rawEndPos_ofList, byteSize_eq]

theorem Behind.append {front cs : List Char} (h : Behind source n (front ++ cs)) :
    Behind source (n + byteSize front) cs := by
  obtain ⟨before, rfl, rfl⟩ := h
  exact ⟨before ++ front, by rw [List.append_assoc], by rw [byteSize_append]⟩

end Behind

/-! ### The tokens of a text -/

/-- The bytes that a token covers. -/
def extent (l : Lexeme) : Nat × Nat := (l.start, l.stop)

theorem scanFrom_blank {cs : List Char} (h : cs.dropWhile isSeparator = []) (n start : Nat) :
    scanFrom n start cs = .ok [] := by
  cases n with
  | zero => rfl
  | succ n => simp [scanFrom, h]

/-- A text from a byte offset on as it is divided into tokens, with separators before, between and
behind them. -/
inductive Tiled : Nat → List Char → List Lexeme → Prop
  | blank {n : Nat} {cs : List Char} (hcs : ∀ c ∈ cs, isSeparator c = true) : Tiled n cs []
  | token {n : Nat} {gap front rest : List Char} {t : Token} {ls : List Lexeme}
      (hgap : ∀ c ∈ gap, isSeparator c = true) (hfront : front ≠ [])
      (hrest : Tiled (n + byteSize gap + byteSize front) rest ls) :
      Tiled n (gap ++ (front ++ rest))
        (⟨t, n + byteSize gap, n + byteSize gap + byteSize front⟩ :: ls)

/-- **The tokens of a text divide it.** Each takes a character at least, and so as many steps as the
text has characters leave nothing of it. -/
theorem tiled_scanFrom {m n : Nat} {cs : List Char} {ls : List Lexeme} (hm : cs.length ≤ m)
    (h : scanFrom m n cs = .ok ls) : Tiled n cs ls := by
  induction m generalizing n cs ls with
  | zero =>
    cases h
    rw [List.length_eq_zero_iff.mp (Nat.le_zero.mp hm)]
    exact .blank (by simp)
  | succ m ih =>
    have hgap : ∀ c ∈ cs.takeWhile isSeparator, isSeparator c = true :=
      fun c hc => List.mem_takeWhile_imp hc
    have hlength := List.length_dropWhile_le isSeparator cs
    have hcs := List.takeWhile_append_dropWhile (p := isSeparator) (l := cs)
    simp only [scanFrom] at h
    generalize cs.takeWhile isSeparator = gap at h hgap hcs
    generalize cs.dropWhile isSeparator = visible at h hlength hcs
    subst hcs
    split at h
    · next hblank =>
      cases h
      rw [List.isEmpty_iff.mp hblank, List.append_nil]
      exact .blank hgap
    · split at h
      · cases h
      · next t rest hnext =>
        obtain ⟨⟨front, rfl⟩, hshorter⟩ := leaves_of_next hnext
        have hsize : byteSize (front ++ rest) - byteSize rest = byteSize front := by
          rw [byteSize_append, Nat.add_sub_cancel]
        have hfront : front ≠ [] := by
          rintro rfl
          exact Nat.lt_irrefl _ hshorter
        rw [hsize] at h
        cases hmore : scanFrom m (n + byteSize gap + byteSize front) rest with
        | error e => rw [hmore] at h; cases h
        | ok more =>
          rw [hmore] at h
          cases h
          exact .token hgap hfront (ih (by omega) hmore)

theorem tiled_scan {source : String} {ls : List Lexeme} (h : scan source = .ok ls) :
    Tiled 0 source.toList ls :=
  tiled_scanFrom (Nat.le_of_eq String.length_toList) h

theorem Tiled.ranked {source : String} {n : Nat} {cs : List Char} {ls : List Lexeme}
    (h : Tiled n cs ls) (hbehind : Behind source n cs) :
    Ranked source (ls.map extent) ∧ ∀ s ∈ ls.map extent, n ≤ s.1 := by
  induction h with
  | blank => exact ⟨⟨by simp, .nil⟩, by simp⟩
  | @token n gap front rest t ls _ hfront _ ih =>
    have hstart := hbehind.append
    have hstop := hstart.append
    have hpos : 0 < byteSize front := by
      rwa [byteSize_eq, Nat.pos_iff_ne_zero, ne_eq, String.utf8Len_eq_zero]
    obtain ⟨hranked, hfrom⟩ := ih hstop
    have hstretch : Stretch source (n + byteSize gap) (n + byteSize gap + byteSize front) :=
      ⟨Nat.lt_add_of_pos_right hpos, hstart.boundary, hstop.boundary⟩
    refine ⟨⟨?_, ?_⟩, ?_⟩
    · exact List.forall_mem_cons.mpr ⟨hstretch, hranked.stretch⟩
    · exact List.pairwise_cons.mpr ⟨hfrom, hranked.order⟩
    · refine List.forall_mem_cons.mpr ⟨Nat.le_add_right n _, fun s hs => ?_⟩
      exact Nat.le_trans (by omega) (hfrom s hs)

theorem ranked_scan {source : String} {ls : List Lexeme} (h : scan source = .ok ls) :
    Ranked source (ls.map extent) :=
  ((tiled_scan h).ranked ⟨[], (String.ofList_toList).symm, rfl⟩).1

end Token

namespace Piece

/-- The bytes that the token of a piece covers. -/
def extent (p : Piece) : Nat × Nat := (p.start, p.stop)

theorem sublist_ofLexemes (ls : List Lexeme) (waiting : List String) :
    ((ofLexemes ls waiting).1.map extent).Sublist (ls.map Token.extent) := by
  induction ls generalizing waiting with
  | nil => exact .slnil
  | cons l ls ih =>
    obtain ⟨token, start, stop⟩ := l
    cases token with
    | comment text => exact .cons _ (ih _)
    | _ => exact .cons_cons _ (ih _)

/-- **The tokens of a text stand one behind the other**, each with a character at least. -/
theorem ranked {source : String} {ls : List Lexeme} (h : Token.scan source = .ok ls)
    (waiting : List String) : Ranked source ((ofLexemes ls waiting).1.map extent) :=
  (Token.ranked_scan h).sublist (sublist_ofLexemes ls waiting)

end Piece

end Feel
