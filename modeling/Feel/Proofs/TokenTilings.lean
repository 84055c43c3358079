import Feel.Proofs.TokenPlaces
import Feel.Proofs.WrittenTokens

/-!
# Tokens tile their text

The tokens of a text cover all of it but separators. A character either stands within the bytes of
a token or separates two of them, so no token begins too late and none ends too early, also behind
strings and comments with characters of several bytes.

A text between quotes, in which a backslash stands before each quote and each backslash, is one
token: the string of this text.

* `Token.Covered`, `Token.Tiling`: offsets within tokens, and tokens that cover a text.
* `Token.Tiled.separator`: what is not covered.
* `Token.quoted`: a text as the contents of a string.
* `Token.scan_tiling`: the tokens of a text are a tiling of it, and quoted texts are read back.
-/

namespace Feel

namespace Token

variable {source : String} {n : Nat} {c : Char} {cs before after : List Char} {ls : List Lexeme}

/-! ### Tilings -/

/-- Whether a byte offset is within one of the tokens. -/
def Covered (ls : List Lexeme) (n : Nat) : Prop := ∃ l ∈ ls, l.start ≤ n ∧ n < l.stop

/-- Tokens that stand in a text one behind the other, with nothing but separators outside of
them. -/
structure Tiling (source : String) (ls : List Lexeme) : Prop where
  nonempty : ∀ l ∈ ls, l.start < l.stop
  increasing : ls.Pairwise fun l k => l.start < k.start
  apart : ls.Pairwise fun l k => l.stop ≤ k.start
  boundaries : ∀ l ∈ ls, Boundary source l.start ∧ Boundary source l.stop
  gaps : ∀ before c after, source.toList = before ++ c :: after →
    Covered ls (byteSize before) ∨ isSeparator c = true

/-- An item of two lists, one behind the other, is one of the first or one of the second. -/
theorem mem_or_behind {α : Type} {xs ys before after : List α} {x : α}
    (h : xs ++ ys = before ++ x :: after) :
    (∃ between, xs = before ++ x :: between) ∨
      ∃ more, before = xs ++ more ∧ ys = more ++ x :: after := by
  obtain hbehind | ⟨between, rfl, hbetween⟩ := List.append_eq_append_iff.mp h
  · exact .inr hbehind
  · cases between with
    | nil => exact .inr ⟨[], by simp, hbetween.symm⟩
    | cons y between =>
      obtain ⟨rfl, -⟩ := List.cons.inj hbetween
      exact .inl ⟨between, rfl⟩

/-- **What is outside of the tokens separates them.** -/
theorem Tiled.separator (h : Tiled n cs ls) (hcs : cs = before ++ c :: after) :
    Covered ls (n + byteSize before) ∨ isSeparator c = true := by
  induction h generalizing before with
  | blank hblank => exact .inr (hblank c (by simp [hcs]))
  | @token n gap front rest t ls hgap _ _ ih =>
    -- the character stands before the token, in it or behind it
    obtain ⟨between, rfl⟩ | ⟨more, rfl, hmore⟩ := mem_or_behind hcs
    · exact .inr (hgap c (by simp))
    obtain ⟨between, rfl⟩ | ⟨more, rfl, hrest⟩ := mem_or_behind hmore
    · have hpos := c.utf8Size_pos
      rw [byteSize_append, byteSize_append, byteSize_cons]
      exact .inl ⟨_, List.mem_cons_self, by dsimp only; omega, by dsimp only; omega⟩
    · refine (ih hrest).imp_left fun ⟨l, hl, hcovered⟩ => ⟨l, List.mem_cons_of_mem _ hl, ?_⟩
      rwa [byteSize_append, byteSize_append, ← Nat.add_assoc, ← Nat.add_assoc]

theorem tiling_of_tiled (h : Tiled 0 source.toList ls) : Tiling source ls := by
  obtain ⟨⟨hstretch, horder⟩, -⟩ := h.ranked ⟨[], String.ofList_toList.symm, rfl⟩
  simp only [List.forall_mem_map, List.pairwise_map, extent] at hstretch horder
  exact {
    nonempty := fun l hl => (hstretch l hl).nonempty
    increasing := horder.imp_of_mem fun hl _ hle =>
      Nat.lt_of_lt_of_le (hstretch _ hl).nonempty hle
    apart := horder
    boundaries := fun l hl => ⟨(hstretch l hl).starts, (hstretch l hl).ends⟩
    gaps := fun before c after hcs => by simpa using h.separator hcs }

/-! ### Quoted texts -/

/-- A text between quotes, with a backslash before each quote and each backslash in it. -/
def quoted (s : String) : String := String.ofList (written (string s))

/-- A text without separators in front that is read as one token. -/
theorem scanFrom_single {t : Token} (hc : isSeparator c = false)
    (h : next (c :: cs) = .ok (t, [])) (m n : Nat) :
    scanFrom (m + 1) n (c :: cs) = .ok [⟨t, n, n + byteSize (c :: cs)⟩] := by
  have hc : ¬ isSeparator c = true := by simp [hc]
  have hnone : byteSize [] = 0 := rfl
  simp only [scanFrom, List.takeWhile_cons_of_neg hc, List.dropWhile_cons_of_neg hc,
    List.isEmpty_cons, Bool.false_eq_true, if_false, h, scanFrom_blank List.dropWhile_nil, hnone,
    Nat.add_zero, Nat.sub_zero]
  rfl

/-- **A quoted text is one token**, which covers all of it. -/
theorem scan_quoted (s : String) :
    scan (quoted s) = .ok [⟨string s, 0, (quoted s).utf8ByteSize⟩] := by
  have hnext : next (written (string s)) = .ok (string s, []) := by
    have h := @next_written [] (string s) rfl rfl
    rwa [List.append_nil] at h
  have hsize : (quoted s).utf8ByteSize = 0 + byteSize (written (string s)) := by
    rw [quoted, String.utf8ByteSize_ofList, byteSize_eq, Nat.zero_add]
  rw [hsize, scan, quoted, String.toList_ofList, String.length_ofList]
  exact scanFrom_single (by decide) hnext _ 0

/-- **Tokens tile their text, and quoted texts are read back.** The tokens of a text are not empty
and stand one behind the other, on boundaries of characters, with nothing but separators before,
between and behind them. Every text is the string that it is as the contents of a quoted one. -/
theorem scan_tiling :
    (∀ source ls, scan source = .ok ls → Tiling source ls) ∧
      ∀ s, scan (quoted s) = .ok [⟨string s, 0, (quoted s).utf8ByteSize⟩] :=
  ⟨fun _ _ h => tiling_of_tiled (tiled_scan h), scan_quoted⟩

/-- Characters of two bytes and escapes in a string and in a comment, and a comment at the end: the
tokens behind them stand where they are. -/
theorem scan_tiling_mixed :
    let source := " \"é\\u0041\\\"\"\t/* ü */\r\n1..x // é\n"
    let ls : List Lexeme := [⟨string "éA\"", 1, 13⟩, ⟨comment "ü", 14, 22⟩, ⟨number "1", 24, 25⟩,
      ⟨symbol .dotDot, 25, 27⟩, ⟨name "x", 27, 28⟩, ⟨comment "é", 29, 34⟩]
    (scan source = .ok ls ∧ Tiling source ls) ∧
      quoted "\\u é\"" = "\"\\\\u é\\\"\"" ∧
      scan "\"\\\\u é\\\"\"" = .ok [⟨string "\\u é\"", 0, 10⟩] := by
  intro source ls
  have hscan : scan source = .ok ls := by decide
  have hquoted : quoted "\\u é\"" = "\"\\\\u é\\\"\"" := by decide
  exact ⟨⟨hscan, scan_tiling.1 source ls hscan⟩, hquoted, hquoted ▸ scan_tiling.2 "\\u é\""⟩

end Token

end Feel
