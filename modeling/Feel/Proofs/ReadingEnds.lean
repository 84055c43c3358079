import Feel.Proofs.NestedSpans

/-!
# Reading ends

A rule that succeeds takes at least one token, and it comes to the rules inside it only behind a
token that it has taken. Both are shown side by side: two versions of a rule, which differ in what
they do inside, do the same as long as the insides do the same with fewer tokens. So what would be
done below as many levels as there are tokens does not matter, since reading never gets there.

Reading an expression is bounded in its levels, and every loop of the grammar in its turns. None of
these bounds is ever what ends it: whatever was done below the last level, and however many more
turns a loop had, the result would be the same, since each level and each turn takes a token.

* `Cursor.Advances`, `Cursor.Spells`: a cursor behind some of the tokens; these make up a name.
* `Parse.Twin`: two steps that do the same from a cursor, and what they leave.
* `Parse.Agree`: two rules that do the same, and take a token, wherever few tokens are left.
* `Parse.twin_loop`: a loop that takes a token with every turn does not come to its bound.
* `TypeExpr.agree_rule`, `TypeExpr.run_levels`: types need no more levels than there are tokens.
* `Surface.agree_expressionRule`: expressions agree one level up with one more token.
* `Surface.Loop`, `Surface.run_loop`: the loops of the grammar are not ended by their bounds.
* `Surface.reading_terminates`: reading ends, every rule takes tokens that are there, and a whole
  text leaves none.
-/

namespace Feel

/-! ## Progress -/

/-! ### Cursors -/

namespace Cursor

variable {c d e : Cursor}

/-- The second cursor stands farther on: behind at least one of the tokens before the first. -/
def Advances (c d : Cursor) : Prop := ∃ used, used ≠ [] ∧ c.rest = used ++ d.rest

theorem Advances.length_lt (h : c.Advances d) : d.rest.length < c.rest.length := by
  obtain ⟨used, hne, hrest⟩ := h
  have hpos := List.length_pos_iff.mpr hne
  rw [hrest, List.length_append]
  omega

theorem Advances.trans (h : c.Advances d) (h' : d.Advances e) : c.Advances e := by
  obtain ⟨used, hne, hrest⟩ := h
  obtain ⟨more, -, hmore⟩ := h'
  exact ⟨used ++ more, by simp [hne], by rw [hrest, hmore, List.append_assoc]⟩

theorem Advances.skip (h : c.Advances d) (n : Nat) : c.Advances (d.skip n) := by
  obtain ⟨used, hne, hrest⟩ := h
  refine ⟨used ++ d.rest.take n, by simp [hne], ?_⟩
  rw [hrest, List.append_assoc, Cursor.skip, List.take_append_drop]

theorem Advances.learn (h : c.Advances d) (names : List String) : c.Advances (d.learn names) := h

theorem advances_skip {n : Nat} (hn : 0 < n) (hrest : c.rest ≠ []) : c.Advances (c.skip n) := by
  refine ⟨c.rest.take n, ?_, (List.take_append_drop n c.rest).symm⟩
  rw [Ne, List.take_eq_nil_iff]
  rintro (h | h)
  · omega
  · exact hrest h

section Next

variable {α : Type} {t : Token}

/-- A token that is seen next can be taken. -/
theorem advances_of_next (ht : c.rest.head?.map (·.token) = some t) : c.Advances (c.skip 1) :=
  advances_skip one_pos (Parse.rest_ne_nil ht)

theorem advances_of_any {b : Token → Bool} (h : (c.rest.head?.map (·.token)).any b = true) :
    c.Advances (c.skip 1) := by
  obtain ⟨t, ht, -⟩ := (Option.any_eq_true _ _).mp h
  exact advances_of_next ht

theorem advances_of_bind {f : Token → Option α} {a : α}
    (h : (c.rest.head?.map (·.token)).bind f = some a) : c.Advances (c.skip 1) := by
  obtain ⟨t, ht, -⟩ := Option.bind_eq_some_iff.mp h
  exact advances_of_next ht

end Next

/-- The tokens between two cursors are words, at least one, and a name is made up of them. -/
def Spells (c : Cursor) (name : String) (d : Cursor) : Prop :=
  ∃ used ws, ws ≠ [] ∧ c.rest = used ++ d.rest ∧ used.map (·.token.word?) = ws.map some ∧
    name = " ".intercalate ws

theorem Spells.advances {name : String} (h : c.Spells name d) : c.Advances d := by
  obtain ⟨used, ws, hne, hrest, hwords, -⟩ := h
  refine ⟨used, ?_, hrest⟩
  rintro rfl
  exact hne (List.map_eq_nil_iff.mp hwords.symm)

end Cursor

/-! ### Steps -/

namespace Parse

open Cursor

variable {α β : Type} {p q : Parse α} {f g : α → Parse β} {start c d : Cursor} {env : Setting}
  {k m n : Nat}

/-- A step that succeeds takes at least one token. -/
def Advances (p : Parse α) : Prop := ∀ c, Ensures p c fun _ => c.Advances

/-- From a cursor two steps do the same, and if they succeed they leave a cursor with a property. -/
structure Twin (p q : Parse α) (c : Cursor) (Q : Cursor → Prop) : Prop where
  same : p.run c = q.run c
  leaves : Ensures p c fun _ => Q

/-- Wherever fewer than `k` tokens are left two steps do the same, and if they succeed they take at
least one token. -/
def Agree (k : Nat) (p q : Parse α) : Prop := ∀ c, c.rest.length < k → Twin p q c c.Advances

theorem Agree.mono (h : Agree m p q) (hk : k ≤ m) : Agree k p q := fun c hc => h c (hc.trans_le hk)

theorem advances_of_agree (h : ∀ k, Agree k p p) : Advances p :=
  fun c => (h _ c (Nat.lt_succ_self _)).leaves

theorem run_bind_of {a : α} (hp : p.run c = .ok a d) : (p >>= f).run c = (f a).run d := by
  rw [EStateM.run_bind, hp]

namespace Twin

variable {Q R : Cursor → Prop}

theorem pure (a : α) (h : Q c) : Twin (Pure.pure a) (Pure.pure a) c Q := ⟨rfl, .pure h⟩

theorem bind (hp : Twin p q c R) (hf : ∀ a d, R d → Twin (f a) (g a) d Q) :
    Twin (p >>= f) (q >>= g) c Q := by
  refine ⟨?_, .bind hp.leaves fun a d hd => (hf a d hd).leaves⟩
  rw [EStateM.run_bind, EStateM.run_bind, ← hp.same]
  cases hrun : p.run c with
  | ok a d => exact (hf a d (hp.leaves a d hrun)).same
  | error e d => rfl

/-- A first step that is known to succeed. -/
theorem step {a : α} {d : Cursor} (hp : p.run c = .ok a d) (h : Twin (f a) (g a) d Q) :
    Twin (p >>= f) (p >>= g) c Q := by
  refine ⟨?_, fun b e hb => h.leaves b e ?_⟩
  · rw [run_bind_of hp, run_bind_of hp, h.same]
  · rw [← run_bind_of hp]
    exact hb

theorem ite {b : Prop} [Decidable b] {p' q' : Parse α} (hp : b → Twin p q c Q)
    (hq : ¬ b → Twin p' q' c Q) : Twin (if b then p else p') (if b then q else q') c Q := by
  split
  · next h => exact hp h
  · next h => exact hq h

theorem map {h : α → β} (hp : Twin p q c Q) : Twin (h <$> p) (h <$> q) c Q := by
  rw [map_eq_pure_bind, map_eq_pure_bind]
  exact hp.bind fun a d hd => .pure _ hd

theorem fail {fault : ParseFault} :
    Twin (Parse.fail env fault : Parse α) (Parse.fail env fault) c Q := ⟨rfl, .fail⟩

theorem failExpected {what : Expectation} :
    Twin (Parse.failExpected env what : Parse α) (Parse.failExpected env what) c Q :=
  ⟨rfl, .failExpected⟩

theorem consume (hn : 0 < n) (hrest : c.rest ≠ []) :
    Twin (Parse.consume n) (Parse.consume n) c c.Advances := by
  refine ⟨rfl, ?_⟩
  rintro a d ⟨⟩
  exact advances_skip hn hrest

end Twin

/-- Behind a token a step of the basic ones goes no way back. -/
theorem Built.stays (hp : Built p) (h : start.Advances c) : Twin p p c start.Advances := by
  refine ⟨rfl, fun a d hrun => ?_⟩
  obtain ⟨n, names, hfinal, -⟩ := hp.forward c
  rw [hrun] at hfinal
  rw [show d = (c.skip n).learn names from hfinal]
  exact (h.skip n).learn names

/-- Behind a token fewer tokens are left, so two rules agree there. -/
theorem Agree.behind (hp : Agree k p q) (hk : start.rest.length ≤ k) (h : start.Advances c) :
    Twin p q c start.Advances := by
  have hc := hp c (h.length_lt.trans_le hk)
  exact ⟨hc.same, fun a d hrun => h.trans (hc.leaves a d hrun)⟩

/-! #### Tokens and names -/

theorem twin_one {t : Token} (ht : c.rest.head?.map (·.token) = some t) :
    Twin (consume 1) (consume 1) c c.Advances :=
  .consume one_pos (rest_ne_nil ht)

theorem agree_expect (t : Token) : Agree k (expect env t) (expect env t) := by
  refine fun c _ => ⟨rfl, .bind (R := fun b d => b = true → c.Advances d) ?_ ?_⟩
  · refine .look rfl (.ite (fun h => ?_) fun _ => .pure (by simp))
    exact (twin_one (eq_of_beq h)).leaves.bind fun _ d hd => .pure fun _ => hd
  · exact fun b d hd => .ite (fun hb => .pure (hd hb)) fun _ => .failExpected

theorem run_accept (t : Token) (c : Cursor) : (accept t).run c =
    if c.rest.head?.map (·.token) = some t then .ok true (c.skip 1) else .ok false c := by
  have hrun : (accept t).run c =
      (if (c.rest.head?.map (·.token) == some t) = true then consume 1 >>= fun _ => Pure.pure true
        else Pure.pure false : Parse Bool).run c := rfl
  rw [hrun]
  by_cases ht : c.rest.head?.map (·.token) = some t
  · rw [if_pos (beq_iff_eq.mpr ht), if_pos ht]
    rfl
  · rw [if_neg (mt beq_iff_eq.mp ht), if_neg ht]
    rfl

/-- A token is taken, or it is not next. -/
theorem Twin.accept {f g : Bool → Parse β} {Q : Cursor → Prop} (t : Token)
    (hyes : c.Advances (c.skip 1) → Twin (f true) (g true) (c.skip 1) Q)
    (hno : Twin (f false) (g false) c Q) :
    Twin (Parse.accept t >>= f) (Parse.accept t >>= g) c Q := by
  have hrun := run_accept t c
  split at hrun
  · next ht => exact .step hrun (hyes (advances_of_next ht))
  · exact .step hrun hno

/-- The words at the start of tokens are those of as many tokens. -/
theorem map_word_take_words (pieces : List Piece) :
    (pieces.take (words pieces).length).map (·.token.word?) = (words pieces).map some := by
  induction pieces with
  | nil => rfl
  | cons p ps ih =>
    cases hp : p.token.word? with
    | none => simp [words, hp]
    | some w =>
      have hwords : words (p :: ps) = w :: words ps := by simp [words, hp]
      rw [hwords]
      simpa [hp] using ih

theorem length_words_le (pieces : List Piece) : (words pieces).length ≤ pieces.length := by
  have hlength := congrArg List.length (map_word_take_words pieces)
  simp only [List.length_map, List.length_take] at hlength
  omega

/-- Some of the words at the start of the tokens make up a name. -/
theorem spells_skip {pieces : List Piece} {ws : List String} (hpieces : pieces <+: c.rest)
    (hws : ws <+: words pieces) (hne : ws ≠ []) :
    c.Spells (" ".intercalate ws) (c.skip ws.length) := by
  refine ⟨c.rest.take ws.length, ws, hne, (List.take_append_drop _ _).symm, ?_, rfl⟩
  have hlength : ws.length ≤ (words pieces).length := hws.length_le
  have htake : c.rest.take ws.length = (pieces.take (words pieces).length).take ws.length := by
    obtain ⟨others, hrest⟩ := hpieces
    rw [List.take_take, Nat.min_eq_left hlength, ← hrest,
      List.take_append_of_le_length (hlength.trans (length_words_le pieces))]
  rw [htake, List.map_take, map_word_take_words, ← List.map_take, List.prefix_iff_eq_take.mp hws,
    List.length_take, Nat.min_eq_left hlength]

/-- The name that is found is made up of some of the words. -/
theorem longest_eq (isKnown : String → Bool) (ws : List String) {best : String × Nat}
    {first : List String} (hfirst : first ≠ [])
    (hbest : ∃ ys, ys ≠ [] ∧ ys <+: first ∧ best = (" ".intercalate ys, ys.length)) :
    ∃ ys, ys ≠ [] ∧ ys <+: first ++ ws ∧
      longest isKnown best (" ".intercalate first) first.length ws =
        (" ".intercalate ys, ys.length) := by
  induction ws generalizing best first with
  | nil =>
    rw [List.append_nil]
    exact hbest
  | cons w ws ih =>
    have hnext : " ".intercalate (first ++ [w]) = " ".intercalate first ++ " " ++ w := by
      rw [String.intercalate_append_of_ne_nil hfirst (List.cons_ne_nil w [])]
      rfl
    have hlonger : first ++ w :: ws = first ++ [w] ++ ws := by simp
    have hlength : first.length + 1 = (first ++ [w]).length := by simp
    rw [longest, ← hnext, hlength, hlonger]
    refine ih (by simp) ?_
    split
    · exact ⟨first ++ [w], by simp, List.prefix_refl _, rfl⟩
    · obtain ⟨ys, hne, hprefix, heq⟩ := hbest
      exact ⟨ys, hne, hprefix.trans (List.prefix_append _ _), heq⟩

theorem spells_of_nameAhead {isKnown : String → Bool} {name : String} {count : Nat}
    (h : nameAhead isKnown c = some (name, count)) : c.Spells name (c.skip count) := by
  unfold nameAhead at h
  split at h
  · cases h
  · next w ws hwords =>
    obtain ⟨ys, hne, hprefix, heq⟩ := longest_eq isKnown ws
      (List.cons_ne_nil w []) ⟨[w], by simp, List.prefix_refl _, rfl⟩
    rw [List.singleton_append, ← hwords] at hprefix
    have hfound : (" ".intercalate ys, ys.length) = (name, count) :=
      heq.symm.trans (Option.some.inj h)
    obtain ⟨rfl, rfl⟩ := Prod.mk.inj hfound
    exact spells_skip (List.take_prefix _ _) hprefix hne

/-- Plain names behind a name make it longer. -/
theorem ensures_plainNames (n : Nat) {name : String} (h : c.Spells name d) :
    Ensures (plainNames n name) d fun name e => c.Spells name e := by
  induction n generalizing name d with
  | zero => exact .pure h
  | succ n ih =>
    refine .look rfl ?_
    split
    · next w hw =>
      obtain ⟨p, ps, hrest⟩ := List.exists_cons_of_ne_nil (rest_ne_nil hw)
      refine .bind (R := fun _ e => e = d.skip 1) (by rintro a e ⟨⟩; rfl) fun _ e he => ih ?_
      subst he
      obtain ⟨used, ws, hne, hused, hwords, rfl⟩ := h
      have hp : p.token = .name w := by simpa [hrest] using hw
      refine ⟨used ++ [p], ws ++ [w], by simp, ?_, ?_, ?_⟩
      · rw [hused, Cursor.skip, hrest]
        simp
      · rw [List.map_append, hwords, List.map_append, List.map_singleton, hp]
        rfl
      · rw [String.intercalate_append_of_ne_nil hne (List.cons_ne_nil w [])]
        rfl
    · exact .pure h

/-- A name that is read is made up of the words that are taken. -/
theorem ensures_readName_spells : Ensures (readName env) c fun name d => c.Spells name d := by
  refine .look rfl ?_
  split
  · exact .failExpected
  · next name count hname =>
    refine .bind (R := fun _ d => d = c.skip count) (by rintro a e ⟨⟩; rfl) fun _ d hd => ?_
    subst hd
    have hspells := spells_of_nameAhead hname
    exact .ite (fun _ => .look rfl (ensures_plainNames _ hspells)) fun _ => .pure hspells

/-- A declared name is made up of the words that are taken. -/
theorem ensures_binder_spells (ends : Token → Bool) :
    Ensures (binder env ends) c fun name d => c.Spells name d := by
  refine .look rfl (.ite (fun _ => .failExpected) fun hwords => ?_)
  refine .bind (R := fun _ d => d = c.skip _) (by rintro a e ⟨⟩; rfl) fun _ d hd => .pure ?_
  subst hd
  refine spells_skip (List.takeWhile_prefix _) (List.prefix_refl _) ?_
  rintro hnil
  exact hwords (by rw [hnil]; rfl)

theorem agree_readName : Agree k (readName env) (readName env) :=
  fun _ _ => ⟨rfl, fun name d hrun => (ensures_readName_spells name d hrun).advances⟩

theorem agree_binder (ends : Token → Bool) : Agree k (binder env ends) (binder env ends) :=
  fun _ _ => ⟨rfl, fun name d hrun => (ensures_binder_spells ends name d hrun).advances⟩

/-! #### Loops and items -/

/-- A loop that takes a token with every turn and stops where none is left ends before its bound,
if the bound is no less than the number of tokens left. -/
theorem twin_loop {σ : Type} {loop loop' : Nat → σ → Parse α} {f : σ → α}
    (hstop : ∀ n s c, c.rest = [] →
      (loop n s).run c = .ok (f s) c ∧ (loop' n s).run c = .ok (f s) c)
    (hturn : ∀ m n s c, start.Advances c →
      (∀ s d, c.Advances d → Twin (loop m s) (loop' n s) d start.Advances) →
      Twin (loop (m + 1) s) (loop' (n + 1) s) c start.Advances)
    (h : start.Advances c) (hm : c.rest.length ≤ m) (hn : c.rest.length ≤ n) (s : σ) :
    Twin (loop m s) (loop' n s) c start.Advances := by
  have hnone (m n : Nat) (s : σ) {c : Cursor} (h : start.Advances c) (hnil : c.rest = []) :
      Twin (loop m s) (loop' n s) c start.Advances := by
    have hm := (hstop m s c hnil).1
    refine ⟨hm.trans (hstop n s c hnil).2.symm, fun a d hrun => ?_⟩
    cases hm.symm.trans hrun
    exact h
  induction m generalizing n s c with
  | zero => exact hnone 0 n s h (List.length_eq_zero_iff.mp (Nat.le_zero.mp hm))
  | succ m ih =>
    cases n with
    | zero => exact hnone (m + 1) 0 s h (List.length_eq_zero_iff.mp (Nat.le_zero.mp hn))
    | succ n =>
      refine hturn m n s c h fun s d hd => ?_
      have hlt := hd.length_lt
      exact ih (h.trans hd) (by omega) (by omega) s

theorem twin_plainNames (h : start.Advances c) (hm : c.rest.length ≤ m) (hn : c.rest.length ≤ n)
    (name : String) : Twin (plainNames m name) (plainNames n name) c start.Advances := by
  refine twin_loop (f := id) (fun n name c hnil => ?_) (fun m n name c h ih => ?_) h hm hn _
  · cases n <;> simp [plainNames, peek, hnil]
  · refine .step rfl ?_
    split
    · next ht => exact .step rfl (ih _ _ (advances_of_next ht))
    · exact .pure _ h

section Items

variable {item item' : Parse α} (hk : start.rest.length ≤ k) (hitem : Agree k item item')
include hk hitem

theorem twin_moreItems (h : start.Advances c) (hm : c.rest.length ≤ m) (hn : c.rest.length ≤ n)
    (items : List α) : Twin (moreItems item m items) (moreItems item' n items) c start.Advances := by
  refine twin_loop (f := List.reverse) (fun n items c hnil => ?_) ?_ h hm hn items
  · cases n <;> simp [moreItems, acceptSymbol, accept, peek, hnil]
  · intro m n items c h ih
    refine .accept _ (fun hd => ?_) (.pure _ h)
    exact (hitem.behind (h.length_lt.le.trans hk) hd).bind fun a e he => ih _ _ he

omit hk in
theorem agree_commaSeparated : Agree k (commaSeparated item) (commaSeparated item') := by
  intro c hc
  refine (hitem c hc).bind fun first d hd => .step rfl ?_
  exact twin_moreItems (k := k) hc.le hitem hd le_rfl le_rfl _

end Items

end Parse

/-! ### Types -/

namespace TypeExpr

open Parse Cursor

variable {env : Setting} {self self' : Parse TypeExpr} {start c : Cursor} {k : Nat}

section Rules

variable (hself : Agree k self self')

theorem twin_angleList {α : Type} {item item' : Parse α} (hitem : Agree k item item')
    (hk : start.rest.length ≤ k) (h : start.Advances c) :
    Twin (angleList item) (angleList item') c start.Advances :=
  .step rfl (.ite (fun _ => .pure _ h) fun _ => (agree_commaSeparated hitem).behind hk h)

include hself

theorem agree_field : Agree k (field env self) (field env self') := by
  intro c hc
  refine (agree_binder _ c hc).bind fun name d hd => ((Built.expect _).stays hd).bind ?_
  exact fun _ e he => (hself.behind hc.le he).bind fun _ _ hg => .pure _ hg

variable (hk : start.rest.length ≤ k) (h : start.Advances c)
include hk h

theorem twin_functionRule :
    Twin (functionRule env self) (functionRule env self') c start.Advances := by
  refine ((Built.expect _).stays h).bind fun _ c h => (twin_angleList hself hk h).bind ?_
  intro params c h
  refine ((Built.expect _).stays h).bind fun _ c h => ((Built.expect _).stays h).bind ?_
  exact fun _ c h => (hself.behind hk h).bind fun _ _ h => .pure _ h

theorem twin_rangeRule : Twin (rangeRule env self) (rangeRule env self') c start.Advances := by
  refine .step rfl (.step rfl (((Built.expect _).stays (h.skip _)).bind fun _ c h => ?_))
  refine (hself.behind hk h).bind fun _ c h => ((Built.expect _).stays h).bind ?_
  exact fun _ _ h => .pure _ h

end Rules

theorem agree_namedRule : Agree k (namedRule env) (namedRule env) := by
  intro c _
  refine .step rfl ?_
  dsimp only
  split
  · exact .failExpected
  · next name count hname => exact .step rfl (.pure _ (spells_of_nameAhead hname).advances)

/-- Types agree one level up with one more token. -/
theorem agree_rule (hself : Agree k self self') : Agree (k + 1) (rule env self) (rule env self') := by
  intro c hc
  have hk : c.rest.length ≤ k := Nat.le_of_lt_succ hc
  have hword {s : String} {b : Bool}
      (hs : ((c.rest.head?.map (·.token)).bind (·.word?) == some s && b) = true) :
      c.rest ≠ [] := by
    intro hnil
    simp [hnil] at hs
  refine .accept _ (fun h => twin_functionRule hself hk h) <| .accept _ (fun h => .pure _ h) ?_
  refine .step rfl <| .step rfl <| .step rfl <| .ite (fun hs => ?_) fun _ => ?_
  · refine .step rfl ((hself.behind hk (advances_skip Nat.two_pos (hword hs))).bind fun _ d hd => ?_)
    exact ((Built.expect _).stays hd).bind fun _ _ he => .pure _ he
  refine .ite (fun hs => .step rfl ?_) fun _ => .ite (fun hs => .step rfl ?_) fun _ => ?_
  · refine (twin_angleList (agree_field hself) hk (advances_skip Nat.two_pos (hword hs))).bind ?_
    exact fun _ d hd => ((Built.expect _).stays hd).bind fun _ _ he => .pure _ he
  · exact twin_rangeRule hself hk (advances_skip one_pos (hword hs))
  · exact agree_namedRule c hc

/-- What would be done below as many levels as there are tokens does not matter. -/
theorem agree_levels (base : Parse TypeExpr) (n : Nat) :
    Agree n ((rule env)^[n] base) (readWithin env n) := by
  induction n with
  | zero => exact fun c hc => absurd hc (Nat.not_lt_zero _)
  | succ n ih =>
    rw [Function.iterate_succ_apply']
    exact agree_rule ih

theorem run_levels (base : Parse TypeExpr) {n : Nat} (hn : c.rest.length < n) :
    ((rule env)^[n] base).run c = (read env).run c := by
  obtain ⟨j, rfl⟩ : ∃ j, n = c.rest.length + 1 + j := ⟨n - (c.rest.length + 1), by omega⟩
  have hread : (read env).run c = (readWithin env (c.rest.length + 1)).run c :=
    run_bind_of (p := remaining) rfl
  rw [Function.iterate_add_apply, hread]
  exact (agree_levels _ (c.rest.length + 1) c (Nat.lt_succ_self _)).same

theorem agree_readWithin (k n : Nat) : Agree k (readWithin env n) (readWithin env n) := by
  induction n generalizing k with
  | zero => exact fun c _ => .failExpected
  | succ n ih => exact (agree_rule (ih k)).mono (Nat.le_succ k)

theorem agree_read : Agree k (read env) (read env) :=
  fun c hc => .step rfl (agree_readWithin k _ c hc)

end TypeExpr

/-! ## Levels and turns -/

namespace Surface

open Parse Cursor

variable {env : Setting} {self self' : Rule} {closing : Bool} {start c : Cursor} {k m n : Nat}

section Rules

variable (hself : ∀ closing, Agree k (self closing) (self' closing))
include hself

/-! #### What stands alone -/

theorem twin_intervalEnd (hk : start.rest.length ≤ k) (h : start.Advances c) (first : Surface)
    (si : Bool) :
    Twin (intervalEnd env self first si) (intervalEnd env self' first si) c start.Advances :=
  ((hself true).behind hk h).bind fun _ _ hd => (built_intervalClose.stays hd).bind fun _ _ he =>
    .pure _ he

theorem agree_parenthesized : Agree (k + 1) (parenthesized env self) (parenthesized env self') := by
  intro c hc
  have hk : c.rest.length ≤ k := Nat.le_of_lt_succ hc
  refine .step rfl <| .step rfl <| (agree_expect _ c hc).bind fun _ d hd => ?_
  refine ((hself false).behind hk hd).bind fun inner e he => .accept _ (fun hg => ?_) ?_
  · exact (twin_intervalEnd hself hk (he.trans hg) _ _).bind fun form i hi => .step rfl (.pure _ hi)
  · exact ((Built.expect _).stays he).bind fun _ i hi => .pure _ hi

theorem agree_listOrInterval :
    Agree (k + 1) (listOrInterval env self) (listOrInterval env self') := by
  intro c hc
  have hk : c.rest.length ≤ k := Nat.le_of_lt_succ hc
  refine (agree_expect _ c hc).bind fun _ d hd => .accept _ (fun he => .pure _ (hd.trans he)) ?_
  refine ((hself false).behind hk hd).bind fun first e he => .accept _ (fun hg => ?_) ?_
  · exact twin_intervalEnd hself hk (he.trans hg) _ _
  · refine .step rfl ((twin_moreItems hk (hself false) he le_rfl le_rfl _).bind fun items e he => ?_)
    exact ((Built.expect _).stays he).bind fun _ i hi => .pure _ hi

theorem agree_openInterval : Agree (k + 1) (openInterval env self) (openInterval env self') := by
  intro c hc
  have hk : c.rest.length ≤ k := Nat.le_of_lt_succ hc
  refine (agree_expect _ c hc).bind fun _ d hd => ((hself false).behind hk hd).bind fun low d hd => ?_
  exact ((Built.expect _).stays hd).bind fun _ d hd => twin_intervalEnd hself hk hd _ _

omit hself in
theorem agree_entryKey : Agree k (entryKey env) (entryKey env) := by
  refine fun c hc => .step rfl ?_
  split
  · next s hs => exact .step rfl (.pure _ (advances_of_next hs))
  · exact agree_binder _ c hc

theorem agree_entry : Agree k (entry env self) (entry env self') := by
  intro c hc
  refine (agree_entryKey c hc).bind fun key d hd => ((Built.expect _).stays hd).bind ?_
  refine fun _ d hd => ((Built.remember _).stays hd).bind fun _ d hd => ?_
  exact ((hself false).behind hc.le hd).bind fun _ _ he => .pure _ he

theorem agree_contextForm : Agree (k + 1) (contextForm env self) (contextForm env self') := by
  intro c hc
  have hk : c.rest.length ≤ k := Nat.le_of_lt_succ hc
  refine (agree_expect _ c hc).bind fun _ d hd => .accept _ (fun he => .pure _ (hd.trans he)) ?_
  refine ((agree_commaSeparated (agree_entry hself)).behind hk hd).bind fun entries d hd => ?_
  exact ((Built.expect _).stays hd).bind fun _ _ he => .pure _ he

omit hself in
theorem agree_temporalForm : Agree k (temporalForm env) (temporalForm env) := by
  refine fun c hc => (agree_expect _ c hc).bind fun _ d hd => .step rfl ?_
  split
  · exact .step rfl (.pure _ (hd.skip 1))
  · exact .failExpected

omit hself in
theorem twin_atom (form : Form Surface) {t : Token} (ht : c.rest.head?.map (·.token) = some t) :
    Twin (atom form) (atom form) c c.Advances :=
  .step rfl (.pure _ (advances_of_next ht))

theorem agree_primaryForm : Agree (k + 1) (primaryForm env self) (primaryForm env self') := by
  refine fun c hc => .step rfl ?_
  split
  · next ht => exact twin_atom _ ht
  · next ht => exact twin_atom _ ht
  · next ht => exact twin_atom _ ht
  · next ht => exact twin_atom _ ht
  · next ht => exact twin_atom _ ht
  · next ht => exact twin_atom _ ht
  · exact agree_temporalForm c hc
  · exact (agree_readName c hc).bind fun _ _ hd => .pure _ hd
  · exact agree_listOrInterval hself c hc
  · exact agree_openInterval hself c hc
  · exact agree_contextForm hself c hc
  · exact .fail

/-! #### Textual forms -/

theorem agree_iterator : Agree k (iterator env self closing) (iterator env self' closing) := by
  intro c hc
  refine (agree_binder _ c hc).bind fun name d hd => ((Built.expect _).stays hd).bind ?_
  refine fun _ d hd => ((hself closing).behind hc.le hd).bind fun domain d hd => ?_
  refine .accept _ (fun he => ?_) ?_
  · refine (((hself closing).behind hc.le (hd.trans he)).map).bind fun finish d hd => ?_
    exact ((Built.remember _).stays hd).bind fun _ _ he => .pure _ he
  · exact .step rfl (((Built.remember _).stays hd).bind fun _ _ he => .pure _ he)

omit hself in
theorem agree_param : Agree k (param env) (param env) := by
  intro c hc
  refine (agree_binder _ c hc).bind fun name d hd => .accept _ (fun he => ?_) ?_
  · refine ((TypeExpr.built_read.stays (hd.trans he)).map).bind fun type d hd => ?_
    exact ((Built.remember _).stays hd).bind fun _ _ he => .pure _ he
  · exact .step rfl (((Built.remember _).stays hd).bind fun _ _ he => .pure _ he)

section Textual

variable (hk : c.rest.length ≤ k) (h : c.Advances (c.skip 1))
include hk h

theorem twin_conditional :
    Twin (conditional env self closing) (conditional env self' closing) c c.Advances := by
  refine .step rfl (((hself closing).behind hk h).bind fun _ d hd => ?_)
  refine ((Built.expect _).stays hd).bind fun _ d hd => ((hself closing).behind hk hd).bind ?_
  refine fun yes d hd => ((Built.expect _).stays hd).bind fun _ d hd => ?_
  exact ((hself closing).behind hk hd).bind fun _ _ he => .pure _ he

theorem twin_iteration :
    Twin (iteration env self closing) (iteration env self' closing) c c.Advances := by
  refine .step rfl (((agree_commaSeparated (agree_iterator hself)).behind hk h).bind ?_)
  refine fun iterators d hd => ((Built.expect _).stays hd).bind fun _ d hd => ?_
  exact ((hself closing).behind hk hd).bind fun _ _ he => .pure _ he

theorem twin_quantification :
    Twin (quantification env self closing) (quantification env self' closing) c c.Advances := by
  refine .step rfl <| .step rfl <|
    ((agree_commaSeparated (agree_iterator hself)).behind hk h).bind ?_
  refine fun iterators d hd => ((Built.expect _).stays hd).bind fun _ d hd => ?_
  exact ((hself closing).behind hk hd).bind fun _ _ he => .pure _ he

theorem twin_functionDefinition :
    Twin (functionDefinition env self closing) (functionDefinition env self' closing) c
      c.Advances := by
  refine .step rfl (((Built.expect _).stays h).bind fun _ d hd => .step rfl (.ite (fun _ => ?_) ?_))
  · refine .step rfl (((Built.expect _).stays hd).bind fun _ d hd => ?_)
    exact ((hself closing).behind hk hd).bind fun _ _ he => .pure _ he
  · refine fun _ => ((agree_commaSeparated agree_param).behind hk hd).bind fun params d hd => ?_
    refine ((Built.expect _).stays hd).bind fun _ d hd => ?_
    exact ((hself closing).behind hk hd).bind fun _ _ he => .pure _ he

theorem twin_textual :
    Twin (textual env self closing) (textual env self' closing) c c.Advances := by
  refine .step rfl <| .step rfl <| .step rfl ?_
  dsimp only
  split
  · exact (twin_conditional hself hk h).bind fun _ _ hd => .step rfl (.pure _ hd)
  · exact (twin_iteration hself hk h).bind fun _ _ hd => .step rfl (.pure _ hd)
  · exact (twin_functionDefinition hself hk h).bind fun _ _ hd => .step rfl (.pure _ hd)
  · exact (twin_quantification hself hk h).bind fun _ _ hd => .step rfl (.pure _ hd)

end Textual

theorem agree_primary : Agree (k + 1) (primary env self) (primary env self') := by
  refine fun c hc => .step rfl (.ite (fun _ => agree_parenthesized hself c hc) fun _ => ?_)
  refine .ite (fun ht => ?_) fun _ => .step rfl <| .step rfl ?_
  · exact twin_textual hself (Nat.le_of_lt_succ hc) (advances_of_any ht)
  · exact (agree_primaryForm hself c hc).bind fun _ _ hd => .step rfl (.pure _ hd)

/-! #### Filters, paths and calls -/

theorem agree_namedArgument : Agree k (namedArgument env self) (namedArgument env self') := by
  intro c hc
  refine (agree_binder _ c hc).bind fun name d hd => ((Built.expect _).stays hd).bind ?_
  exact fun _ d hd => ((hself false).behind hc.le hd).bind fun _ _ he => .pure _ he

theorem agree_arguments : Agree (k + 1) (arguments env self) (arguments env self') := by
  intro c hc
  have hk : c.rest.length ≤ k := Nat.le_of_lt_succ hc
  refine (agree_expect _ c hc).bind fun _ d hd => .accept _ (fun he => .pure _ (hd.trans he)) ?_
  refine .step rfl (.ite (fun _ => ?_) fun _ => ?_)
  · refine (((agree_commaSeparated (agree_namedArgument hself)).behind hk hd).map).bind ?_
    exact fun args d hd => ((Built.expect _).stays hd).bind fun _ _ he => .pure _ he
  · refine (((agree_commaSeparated (hself false)).behind hk hd).map).bind ?_
    exact fun args d hd => ((Built.expect _).stays hd).bind fun _ _ he => .pure _ he

theorem twin_suffixes (hk : start.rest.length ≤ k) (h : start.Advances c)
    (hm : c.rest.length ≤ m) (hn : c.rest.length ≤ n) (offset : Nat) (inner : Surface) :
    Twin (suffixes env self closing offset m inner) (suffixes env self' closing offset n inner) c
      start.Advances := by
  refine twin_loop (f := id) (fun n inner c hnil => ?_) (fun m n inner c h ih => ?_) h hm hn _
  · cases n <;> simp [suffixes, peek, hnil]
  · have hc : c.rest.length ≤ k := h.length_lt.le.trans hk
    refine .step rfl ?_
    split
    · next ht =>
      have hd : c.Advances (c.skip 1) := advances_of_next ht
      refine .step rfl ((Built.readName.stays hd).bind fun member d hd => .step rfl (ih _ _ hd))
    · next ht =>
      have hd : c.Advances (c.skip 1) := advances_of_next ht
      refine .ite (fun _ => .pure _ h) fun _ => .step rfl (((hself false).behind hc hd).bind ?_)
      exact fun filter d hd => ((Built.expect _).stays hd).bind fun _ d hd => .step rfl (ih _ _ hd)
    · exact (agree_arguments hself c (Nat.lt_succ_of_le hc)).bind fun args d hd =>
        .step rfl (ih _ _ hd)
    · exact .pure _ h

theorem twin_withSuffixes (hk : start.rest.length ≤ k) (h : start.Advances c) (inner : Surface) :
    Twin (withSuffixes env self closing inner) (withSuffixes env self' closing inner) c
      start.Advances :=
  .step rfl (twin_suffixes hself hk h le_rfl le_rfl _ _)

/-! #### Signs and operators -/

omit hself in
/-- Where no sign is next, signs have come to an end. -/
theorem run_signed_of_ne (hminus : c.rest.head?.map (·.token) ≠ some (.symbol .minus)) (n : Nat) :
    (signed env self closing n).run c =
      (primary env self >>= withSuffixes env self closing).run c := by
  cases n with
  | zero => rfl
  | succ n =>
    have hnext : (isNext .minus).run c = .ok false c := by
      have hrun : (isNext .minus).run c =
          .ok (c.rest.head?.map (·.token) == some (.symbol .minus)) c := rfl
      rw [hrun, beq_false_of_ne hminus]
    rw [signed, EStateM.run_bind, hnext]
    rfl

theorem twin_signed (hc : c.rest.length < k + 1) (hm : c.rest.length ≤ m)
    (hn : c.rest.length ≤ n) :
    Twin (signed env self closing m) (signed env self' closing n) c c.Advances := by
  have hdone {c : Cursor} (hc : c.rest.length < k + 1) (m n : Nat)
      (hminus : c.rest.head?.map (·.token) ≠ some (.symbol .minus)) :
      Twin (signed env self closing m) (signed env self' closing n) c c.Advances := by
    have hplain : Twin (primary env self >>= withSuffixes env self closing)
        (primary env self' >>= withSuffixes env self' closing) c c.Advances :=
      (agree_primary hself c hc).bind fun inner d hd =>
        twin_withSuffixes hself (Nat.le_of_lt_succ hc) hd inner
    refine ⟨?_, fun t d hrun => hplain.leaves t d ?_⟩
    · rw [run_signed_of_ne hminus, run_signed_of_ne hminus, hplain.same]
    · rw [← run_signed_of_ne hminus]
      exact hrun
  induction m generalizing n c with
  | zero =>
    have hnil : c.rest = [] := List.length_eq_zero_iff.mp (Nat.le_zero.mp hm)
    exact hdone hc 0 n (by simp [hnil])
  | succ m ih =>
    by_cases hminus : c.rest.head?.map (·.token) = some (.symbol .minus)
    · have hd : c.Advances (c.skip 1) := advances_of_next hminus
      have hlt := hd.length_lt
      obtain ⟨n, rfl⟩ : ∃ j, n = j + 1 := ⟨n - 1, by omega⟩
      refine .step rfl (.ite (fun _ => .step rfl <| .step rfl <| .step rfl <| .step rfl ?_) ?_)
      · split
        · refine .step rfl <| .step rfl <| .step rfl ?_
          exact twin_withSuffixes hself (Nat.le_of_lt_succ hc) (hd.skip 1) _
        · have hinner := ih (c := c.skip 1) (n := n) (by omega) (by omega) (by omega)
          exact hinner.bind fun operand e he => .step rfl (.pure _ (hd.trans he))
      · exact fun hne => absurd (beq_iff_eq.mpr hminus) hne
    · exact hdone hc (m + 1) n hminus

theorem agree_unary :
    Agree (k + 1) (unary env self closing) (unary env self' closing) :=
  fun _ hc => .step rfl (twin_signed hself hc le_rfl le_rfl)

omit hself in
theorem twin_chain {operand operand' : Parse Surface} (operator? : Token → Option Operator)
    (hoperand : Agree k operand operand') (hk : start.rest.length ≤ k) (h : start.Advances c)
    (hm : c.rest.length ≤ m) (hn : c.rest.length ≤ n) (left : Surface) :
    Twin (chain operator? operand m left) (chain operator? operand' n left) c start.Advances := by
  refine twin_loop (f := id) (fun n left c hnil => ?_) (fun m n left c h ih => ?_) h hm hn _
  · cases n <;> simp [chain, peek, hnil]
  · refine .step rfl ?_
    split
    · exact .pure _ h
    · next op hop =>
      have hd := advances_of_bind hop
      refine .step rfl ((hoperand.behind (h.length_lt.le.trans hk) hd).bind fun right e he => ?_)
      exact ih _ _ he

omit hself in
theorem agree_leftAssociative {operand operand' : Parse Surface}
    (operator? : Token → Option Operator) (hoperand : Agree k operand operand') :
    Agree k (leftAssociative operator? operand) (leftAssociative operator? operand') :=
  fun c hc => (hoperand c hc).bind fun _ _ hd =>
    .step rfl (twin_chain operator? hoperand hc.le hd le_rfl le_rfl _)

theorem agree_power : Agree (k + 1) (power env self closing) (power env self' closing) :=
  agree_leftAssociative _ (agree_unary hself)

theorem agree_product : Agree (k + 1) (product env self closing) (product env self' closing) :=
  agree_leftAssociative _ (agree_power hself)

theorem agree_sum : Agree (k + 1) (sum env self closing) (sum env self' closing) :=
  agree_leftAssociative _ (agree_product hself)

/-! #### Tests and comparisons -/

theorem agree_positiveTest :
    Agree k (positiveTest env self closing) (positiveTest env self' closing) := by
  refine fun c hc => .step rfl <| .step rfl <| .step rfl <| .ite (fun hdash => ?_) fun _ => ?_
  · have hminus := eq_of_beq (Bool.and_eq_true_iff.mp hdash).1
    exact .step rfl (.step rfl (.pure _ (advances_of_next hminus)))
  · split
    · next op hop =>
      have hd := advances_of_bind hop
      refine .step rfl ((((agree_sum hself).mono (Nat.le_succ k)).behind hc.le hd).bind ?_)
      exact fun value e he => .step rfl (.pure _ he)
    · exact hself closing c hc

theorem agree_inTests : Agree k (inTests env self closing) (inTests env self' closing) := by
  refine fun c hc => .step rfl (.ite (fun hparen => ?_) fun _ => ?_)
  · have hd : c.Advances (c.skip 1) := advances_of_next (eq_of_beq hparen)
    refine .step rfl <| .step rfl <| ((agree_positiveTest hself).behind hc.le hd).bind ?_
    refine fun first d hd => .accept _ (fun he => ?_) ?_
    · refine (twin_intervalEnd hself hc.le (hd.trans he) _ _).bind fun form e he => ?_
      exact .step rfl (.pure _ he)
    · refine .step rfl ((twin_moreItems hc.le (agree_positiveTest hself) hd le_rfl le_rfl _).bind ?_)
      exact fun tests e he => ((Built.expect _).stays he).bind fun _ _ hg => .pure _ hg
  · exact (agree_positiveTest hself c hc).bind fun _ _ hd => .pure _ hd

theorem twin_comparisons (hk : start.rest.length ≤ k) (h : start.Advances c)
    (hm : c.rest.length ≤ m) (hn : c.rest.length ≤ n) (offset : Nat) (left : Surface) :
    Twin (comparisons env self closing offset m left) (comparisons env self' closing offset n left)
      c start.Advances := by
  refine twin_loop (f := id) (fun n left c hnil => ?_) (fun m n left c h ih => ?_) h hm hn _
  · cases n <;> simp [comparisons, peek, hnil]
  · have hc : c.rest.length ≤ k := h.length_lt.le.trans hk
    have hsum : Agree k (sum env self closing) (sum env self' closing) :=
      (agree_sum hself).mono (Nat.le_succ k)
    refine .step rfl ?_
    split
    · next ht =>
      have hd : c.Advances (c.skip 1) := advances_of_next ht
      refine .step rfl ((hsum.behind hc hd).bind fun low d hd => ((Built.expect _).stays hd).bind ?_)
      exact fun _ d hd => (hsum.behind hc hd).bind fun high d hd => .step rfl (ih _ _ hd)
    · next ht =>
      have hd : c.Advances (c.skip 1) := advances_of_next ht
      refine .step rfl (((agree_inTests hself).behind hc hd).bind fun tests d hd => ?_)
      exact .step rfl (ih _ _ hd)
    · next ht =>
      have hd : c.Advances (c.skip 1) := advances_of_next ht
      refine .step rfl (((Built.expect _).stays hd).bind fun _ d hd => ?_)
      exact (TypeExpr.built_read.stays hd).bind fun target d hd => .step rfl (ih _ _ hd)
    · split
      · next op hop =>
        have hd := advances_of_bind hop
        exact .step rfl ((hsum.behind hc hd).bind fun right d hd => ih _ _ hd)
      · exact .pure _ h

theorem agree_comparison :
    Agree (k + 1) (comparison env self closing) (comparison env self' closing) :=
  fun c hc => .step rfl <| (agree_sum hself c hc).bind fun _ _ hd =>
    .step rfl (twin_comparisons hself (Nat.le_of_lt_succ hc) hd le_rfl le_rfl _ _)

theorem agree_conjunction :
    Agree (k + 1) (conjunction env self closing) (conjunction env self' closing) :=
  agree_leftAssociative _ (agree_comparison hself)

/-- Rules agree one level up with one more token. -/
theorem agree_expressionRule :
    Agree (k + 1) (expressionRule env self closing) (expressionRule env self' closing) := by
  refine fun c hc => .step rfl (.ite (fun ht => ?_) fun _ => ?_)
  · exact twin_textual hself (Nat.le_of_lt_succ hc) (advances_of_any ht)
  · exact agree_leftAssociative _ (agree_conjunction hself) c hc

end Rules

/-! ### Levels -/

/-- What would be done below as many levels as there are tokens does not matter. -/
theorem agree_levels (base : Rule) (n : Nat) (closing : Bool) :
    Agree n ((expressionRule env)^[n] base closing) (expressionWithin env n closing) := by
  induction n generalizing closing with
  | zero => exact fun c hc => absurd hc (Nat.not_lt_zero _)
  | succ n ih =>
    rw [Function.iterate_succ_apply']
    exact agree_expressionRule ih

theorem agree_expressionWithin (k n : Nat) (closing : Bool) :
    Agree k (expressionWithin env n closing) (expressionWithin env n closing) := by
  induction n generalizing k closing with
  | zero => exact fun c _ => .step rfl .fail
  | succ n ih => exact (agree_expressionRule (ih k)).mono (Nat.le_succ k)

theorem agree_expression : Agree k (expression env closing) (expression env closing) :=
  fun c hc => .step rfl (agree_expressionWithin k _ closing c hc)

/-- With more levels than tokens the levels agree with as many levels as are set. -/
theorem agree_levels_of_lt (base : Rule) (hn : m < n) (closing : Bool) :
    Agree (m + 1) ((expressionRule env)^[n] base closing)
      (expressionWithin env (m + 1) closing) := by
  obtain ⟨j, rfl⟩ : ∃ j, n = m + 1 + j := ⟨n - (m + 1), by omega⟩
  rw [Function.iterate_add_apply]
  exact agree_levels _ (m + 1) closing

/-! ### Loops -/

/-- The loops of the grammar, each with a bound on its turns. -/
inductive Loop (env : Setting) : {α : Type} → (Nat → Parse α) → Prop
  | plainNames (name : String) : Loop env fun n => Parse.plainNames n name
  | types (levels : Nat) (items : List TypeExpr) :
    Loop env fun n => moreItems (TypeExpr.readWithin env levels) n items
  | fields (levels : Nat) (items : List (String × TypeExpr)) :
    Loop env fun n => moreItems (TypeExpr.field env (TypeExpr.readWithin env levels)) n items
  | params (items : List (String × Option TypeExpr)) :
    Loop env fun n => moreItems (param env) n items
  | expressions (levels : Nat) (items : List Surface) :
    Loop env fun n => moreItems (expressionWithin env levels false) n items
  | entries (levels : Nat) (items : List (String × Surface)) :
    Loop env fun n => moreItems (entry env (expressionWithin env levels)) n items
  | arguments (levels : Nat) (items : List (String × Surface)) :
    Loop env fun n => moreItems (namedArgument env (expressionWithin env levels)) n items
  | iterators (levels : Nat) (closing : Bool) (items : List (Iterator Surface)) :
    Loop env fun n => moreItems (iterator env (expressionWithin env levels) closing) n items
  | tests (levels : Nat) (closing : Bool) (items : List Surface) :
    Loop env fun n => moreItems (positiveTest env (expressionWithin env levels) closing) n items
  | suffixes (levels : Nat) (closing : Bool) (offset : Nat) (inner : Surface) :
    Loop env fun n => Surface.suffixes env (expressionWithin env levels) closing offset n inner
  | signs (levels : Nat) (closing : Bool) :
    Loop env fun n => signed env (expressionWithin env levels) closing n
  | powers (levels : Nat) (closing : Bool) (left : Surface) :
    Loop env fun n => chain powerOperator? (unary env (expressionWithin env levels) closing) n left
  | products (levels : Nat) (closing : Bool) (left : Surface) :
    Loop env fun n =>
      chain productOperator? (power env (expressionWithin env levels) closing) n left
  | sums (levels : Nat) (closing : Bool) (left : Surface) :
    Loop env fun n =>
      chain sumOperator? (product env (expressionWithin env levels) closing) n left
  | comparisons (levels : Nat) (closing : Bool) (offset : Nat) (left : Surface) :
    Loop env fun n => Surface.comparisons env (expressionWithin env levels) closing offset n left
  | conjunctions (levels : Nat) (closing : Bool) (left : Surface) :
    Loop env fun n =>
      chain andOperator? (comparison env (expressionWithin env levels) closing) n left
  | disjunctions (levels : Nat) (closing : Bool) (left : Surface) :
    Loop env fun n =>
      chain orOperator? (conjunction env (expressionWithin env levels) closing) n left

/-- Every place in a text is behind a token of a longer one. -/
theorem exists_before (c : Cursor) :
    ∃ start : Cursor, start.Advances c ∧ start.rest.length = c.rest.length + 1 :=
  ⟨{ c with rest := default :: c.rest }, ⟨[default], by simp, rfl⟩, rfl⟩

/-- No loop is ended by its bound, if that is no less than the number of tokens left. -/
theorem run_loop {α : Type} {loop : Nat → Parse α} (hloop : Loop env loop)
    (hn : c.rest.length ≤ n) : (loop n).run c = (loop c.rest.length).run c := by
  obtain ⟨start, hstart, hlength⟩ := exists_before c
  have hk := hlength.le
  have hself (levels : Nat) (closing : Bool) :
      Agree (c.rest.length + 1) (expressionWithin env levels closing)
        (expressionWithin env levels closing) := agree_expressionWithin _ levels closing
  have htype (levels : Nat) : Agree (c.rest.length + 1) (TypeExpr.readWithin env levels)
      (TypeExpr.readWithin env levels) := TypeExpr.agree_readWithin _ levels
  cases hloop with
  | plainNames name => exact (twin_plainNames hstart hn le_rfl name).same
  | types levels items => exact (twin_moreItems hk (htype levels) hstart hn le_rfl items).same
  | fields levels items =>
    exact (twin_moreItems hk (TypeExpr.agree_field (htype levels)) hstart hn le_rfl items).same
  | params items => exact (twin_moreItems hk agree_param hstart hn le_rfl items).same
  | expressions levels items =>
    exact (twin_moreItems hk (hself levels false) hstart hn le_rfl items).same
  | entries levels items =>
    exact (twin_moreItems hk (agree_entry (hself levels)) hstart hn le_rfl items).same
  | arguments levels items =>
    exact (twin_moreItems hk (agree_namedArgument (hself levels)) hstart hn le_rfl items).same
  | iterators levels closing items =>
    exact (twin_moreItems hk (agree_iterator (hself levels)) hstart hn le_rfl items).same
  | tests levels closing items =>
    exact (twin_moreItems hk (agree_positiveTest (hself levels)) hstart hn le_rfl items).same
  | suffixes levels closing offset inner =>
    exact (twin_suffixes (hself levels) hk hstart hn le_rfl offset inner).same
  | signs levels closing =>
    exact (twin_signed (hself levels) (by omega) hn le_rfl).same
  | powers levels closing left =>
    exact (twin_chain _ ((agree_unary (hself levels)).mono (Nat.le_succ _)) hk hstart hn le_rfl
      left).same
  | products levels closing left =>
    exact (twin_chain _ ((agree_power (hself levels)).mono (Nat.le_succ _)) hk hstart hn le_rfl
      left).same
  | sums levels closing left =>
    exact (twin_chain _ ((agree_product (hself levels)).mono (Nat.le_succ _)) hk hstart hn le_rfl
      left).same
  | comparisons levels closing offset left =>
    exact (twin_comparisons (hself levels) hk hstart hn le_rfl offset left).same
  | conjunctions levels closing left =>
    exact (twin_chain _ ((agree_comparison (hself levels)).mono (Nat.le_succ _)) hk hstart hn le_rfl
      left).same
  | disjunctions levels closing left =>
    exact (twin_chain _ ((agree_conjunction (hself levels)).mono (Nat.le_succ _)) hk hstart hn
      le_rfl left).same

/-! ### Whole texts -/

/-- A whole text leaves no token. -/
theorem ensures_endOfText : Ensures (endOfText env) c fun _ d => d.rest = [] := by
  refine .look rfl ?_
  split
  · next hnone => exact .pure (by simpa using hnone)
  · exact .fail

theorem ensures_wholeExpression_rest (trailing : List String) :
    Ensures (wholeExpression env trailing) c fun _ d => d.rest = [] :=
  .bind (R := fun _ _ => True) (fun _ _ _ => trivial) fun _ _ _ =>
    ensures_endOfText.bind fun _ _ hd => .pure hd

theorem ensures_wholeTests_rest : Ensures (wholeTests env) c fun _ d => d.rest = [] := by
  have hplain (start : Nat) {d : Cursor} :
      Ensures (do
        let tests ← positiveTests env
        endOfText env
        spanned env (.tests false tests) start) d fun _ e => e.rest = [] :=
    .bind (R := fun _ _ => True) (fun _ _ _ => trivial) fun _ _ _ =>
      ensures_endOfText.bind fun _ _ hd => .look rfl (.pure hd)
  have hnegated : Ensures (negatedTests env) c fun _ d => d.rest = [] :=
    .bind (R := fun _ _ => True) (fun _ _ _ => trivial) fun _ _ _ =>
      .bind (R := fun _ _ => True) (fun _ _ _ => trivial) fun _ _ _ =>
        .bind (R := fun _ _ => True) (fun _ _ _ => trivial) fun _ _ _ =>
          ensures_endOfText.bind fun _ _ hd => .pure hd
  refine .look rfl <| .look rfl <| .ite (fun hdash => ?_) fun _ => .look rfl <| .look rfl <|
    .ite (fun _ => ?_) fun _ => hplain _
  · have hlength := congrArg List.length (eq_of_beq hdash)
    rw [List.length_map] at hlength
    refine .bind (R := fun _ d => d.rest = []) ?_ fun _ d hd => .look rfl (.pure hd)
    rintro a d ⟨⟩
    exact List.drop_eq_nil_of_le hlength.le
  · cases hattempt : (negatedTests env).run c with
    | ok ts d =>
      have hd := hnegated ts d hattempt
      rintro t e ⟨⟩
      exact hd
    | error e after => exact hplain _

/-! ### Reading ends -/

/-- Reading ends: whatever was done below the levels that the tokens allow for, and however many
more turns the loops had, the result is the same. -/
structure Terminates (env : Setting) : Prop where
  expressions (base : Rule) (n : Nat) (closing : Bool) (c : Cursor) : c.rest.length < n →
    ((expressionRule env)^[n] base closing).run c = (expression env closing).run c
  tests (base : Rule) (n : Nat) (c : Cursor) : c.rest.length < n →
    (commaSeparated (positiveTest env ((expressionRule env)^[n] base) false)).run c =
      (positiveTests env).run c
  types (base : Parse TypeExpr) (n : Nat) (c : Cursor) : c.rest.length < n →
    ((TypeExpr.rule env)^[n] base).run c = (TypeExpr.read env).run c
  loops {α : Type} {loop : Nat → Parse α} (n : Nat) (c : Cursor) : Loop env loop →
    c.rest.length ≤ n → (loop n).run c = (loop c.rest.length).run c

/-- Every rule that succeeds has taken at least one of the tokens, and a name is made up of the
words that were taken. -/
structure MakesProgress (env : Setting) : Prop where
  expression (closing : Bool) : Parse.Advances (expression env closing)
  inner (levels : Nat) (closing : Bool) : Parse.Advances (expressionWithin env levels closing)
  test (levels : Nat) (closing : Bool) :
    Parse.Advances (positiveTest env (expressionWithin env levels) closing)
  type : Parse.Advances (TypeExpr.read env)
  name (c : Cursor) : Ensures (readName env) c fun name d => c.Spells name d ∧ c.Advances d
  binder (ends : Token → Bool) (c : Cursor) :
    Ensures (binder env ends) c fun name d => c.Spells name d ∧ c.Advances d

/-- A whole text is read to its end. -/
structure ReadsAll (env : Setting) : Prop where
  expression (trailing : List String) (c : Cursor) :
    Ensures (wholeExpression env trailing) c fun _ d => d.rest = []
  tests (c : Cursor) : Ensures (wholeTests env) c fun _ d => d.rest = []

/-- **Reading ends and makes progress.** Whatever tokens there are, whatever names are known and
whether or not names are merged: no rule is ended by the bound on its levels or its turns, a rule
that succeeds takes at least one of the tokens and goes never past the last, and a whole text that
is read leaves no token. -/
theorem reading_terminates (env : Setting) : Terminates env ∧ MakesProgress env ∧ ReadsAll env := by
  refine ⟨⟨fun base n closing c hn => ?_, fun base n c hn => ?_, fun base n c hn => ?_, ?_⟩,
    ⟨?_, ?_, ?_, ?_, ?_, ?_⟩, ⟨?_, ?_⟩⟩
  · have hrun : (expression env closing).run c =
        (expressionWithin env (c.rest.length + 1) closing).run c := run_bind_of (p := remaining) rfl
    rw [hrun]
    exact (agree_levels_of_lt base hn closing c (Nat.lt_succ_self _)).same
  · have hlevels : ∀ closing, Agree (c.rest.length + 1) ((expressionRule env)^[n] base closing)
        (expressionWithin env (c.rest.length + 1) closing) := agree_levels_of_lt base hn
    have hrun : (positiveTests env).run c = (commaSeparated
        (positiveTest env (expressionWithin env (c.rest.length + 1)) false)).run c :=
      run_bind_of (p := remaining) rfl
    rw [hrun]
    exact (agree_commaSeparated (agree_positiveTest hlevels) c (Nat.lt_succ_self _)).same
  · exact TypeExpr.run_levels base hn
  · exact fun n c hloop hn => run_loop hloop hn
  · exact fun closing => advances_of_agree fun k => agree_expression
  · exact fun levels closing => advances_of_agree fun k => agree_expressionWithin k levels closing
  · exact fun levels closing => advances_of_agree fun k =>
      agree_positiveTest (agree_expressionWithin k levels)
  · exact advances_of_agree fun k => TypeExpr.agree_read
  · exact fun c name d hrun =>
      have hspells := ensures_readName_spells name d hrun
      ⟨hspells, hspells.advances⟩
  · exact fun ends c name d hrun =>
      have hspells := ensures_binder_spells ends name d hrun
      ⟨hspells, hspells.advances⟩
  · exact fun trailing c => ensures_wholeExpression_rest trailing
  · exact fun c => ensures_wholeTests_rest

end Surface

end Feel
