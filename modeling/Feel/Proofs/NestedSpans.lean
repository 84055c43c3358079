import Feel.Proofs.ReadingSteps
import Feel.Proofs.TokenPlaces
import Feel.Proofs.TreeParts

/-!
# Spans are nested like the nodes

A node covers a stretch of the text, and its parts cover stretches inside, one behind the other. A
rule that starts at a token and succeeds leaves its trees in a row between that token and the
token read last; the step for a rule shows this from the same of the rules inside it.

* `Surface.Nested`: trees whose spans are nested.
* `Surface.Row`: trees that stand one behind the other between two bytes.
* `Cursor.Sound`, `Cursor.Past`: what is known of a cursor before and while a rule reads.
* `Parse.Ensures`: what a step that succeeds leaves; `Parse.Yields`: it leaves trees in a row.
* `Surface.nested_of_parse`: every tree that is read is nested.
-/

namespace Feel

/-! ### Nested trees -/

namespace Span

/-- The span is a stretch of a text: it is not empty, ends inside the text, and both of its ends
are between characters. -/
structure Covers (source : String) (s : Span) : Prop where
  nonempty : s.start < s.stop
  inside : s.stop ≤ source.utf8ByteSize
  starts : Boundary source s.start
  ends : Boundary source s.stop

/-- The span lies within another. -/
structure Within (inner outer : Span) : Prop where
  starts : outer.start ≤ inner.start
  ends : inner.stop ≤ outer.stop

theorem covers_of_stretch {source : String} {s : Span} (h : Stretch source s.start s.stop) :
    s.Covers source := ⟨h.nonempty, h.ends.le, h.starts, h.ends⟩

end Span

namespace Surface

variable {source : String}

theorem span_withLeading (t : Surface) (comments : List String) :
    (t.withLeading comments).span = t.span := by cases t; rfl

/-- A tree stands before another. -/
def Precedes (a b : Surface) : Prop := a.span.stop ≤ b.span.start

/-- Every node covers a stretch of the text, and the parts of a node stand inside it, one behind
the other. -/
inductive Nested (source : String) : Surface → Prop where
  | node {form : Form Surface} {span : Span} {comments : List String} :
    span.Covers source → (∀ part ∈ form.parts, part.span.Within span) →
    form.parts.Pairwise Precedes → (∀ part ∈ form.parts, Nested source part) →
    Nested source (.node form span comments)

theorem Nested.covers {t : Surface} (h : Nested source t) : t.span.Covers source := by
  cases h with
  | node hcovers => exact hcovers

theorem Nested.withLeading {t : Surface} (h : Nested source t) (comments : List String) :
    Nested source (t.withLeading comments) := by
  cases h with
  | node hcovers hwithin horder hparts => exact .node hcovers hwithin horder hparts

theorem Nested.withTrailing {t : Surface} (h : Nested source t) (comments : List String) :
    Nested source (t.withTrailing comments) := by
  cases h with
  | node hcovers hwithin horder hparts => exact .node hcovers hwithin horder hparts

/-- Nested trees that stand one behind the other between two bytes. -/
structure Row (source : String) (lo hi : Nat) (ts : List Surface) : Prop where
  nested : ∀ t ∈ ts, Nested source t
  above : ∀ t ∈ ts, lo ≤ t.span.start
  below : ∀ t ∈ ts, t.span.stop ≤ hi
  order : ts.Pairwise Precedes

namespace Row

variable {lo mid hi : Nat} {ts us : List Surface}

theorem nil : Row source lo hi [] := ⟨by simp, by simp, by simp, .nil⟩

theorem mono {lo' hi' : Nat} (h : Row source lo hi ts) (hlo : lo' ≤ lo) (hhi : hi ≤ hi') :
    Row source lo' hi' ts :=
  ⟨h.nested, fun t ht => hlo.trans (h.above t ht), fun t ht => (h.below t ht).trans hhi, h.order⟩

theorem append (hts : Row source lo mid ts) (hus : Row source mid hi us) (hlo : lo ≤ mid)
    (hhi : mid ≤ hi) : Row source lo hi (ts ++ us) := by
  have hts' := hts.mono le_rfl hhi
  have hus' := hus.mono hlo le_rfl
  refine ⟨?_, ?_, ?_, List.pairwise_append.mpr ⟨hts.order, hus.order, fun t ht u hu => ?_⟩⟩
  · exact List.forall_mem_append.mpr ⟨hts'.nested, hus'.nested⟩
  · exact List.forall_mem_append.mpr ⟨hts'.above, hus'.above⟩
  · exact List.forall_mem_append.mpr ⟨hts'.below, hus'.below⟩
  · exact (hts.below t ht).trans (hus.above u hu)

theorem singleton {t : Surface} (h : Nested source t) :
    Row source t.span.start t.span.stop [t] :=
  ⟨by simpa using h, by simp, by simp, List.pairwise_singleton _ _⟩

/-- The parts of a node that covers the bytes between. -/
theorem node {form : Form Surface} {span : Span} (h : Row source span.start span.stop form.parts)
    (hspan : Stretch source span.start span.stop) (comments : List String) :
    Nested source (.node form span comments) :=
  .node (Span.covers_of_stretch hspan) (fun t ht => ⟨h.above t ht, h.below t ht⟩) h.order h.nested

end Row

end Surface

/-! ### Cursors -/

namespace Cursor

variable {source : String} {start : Nat} {ts : List Surface} {c : Cursor}

/-- The byte at which the next token starts. -/
def offset (source : String) (c : Cursor) : Nat :=
  (c.rest.head?.map (·.start)).getD source.utf8ByteSize

/-- The tokens to be read stand one behind the other, behind the token that was read last. -/
structure Sound (source : String) (c : Cursor) : Prop where
  ranked : Ranked source (c.rest.map Piece.extent)
  behind : ∀ p ∈ c.rest, c.last ≤ p.start
  last : Boundary source c.last

/-- From the byte `start` on tokens were read, at least one, and the trees that were made of them
stand in a row. -/
structure Past (source : String) (start : Nat) (ts : List Surface) (c : Cursor) : Prop where
  sound : Sound source c
  starts : Boundary source start
  moved : start < c.last
  row : Surface.Row source start c.last ts

namespace Sound

theorem stretch (h : Sound source c) {p : Piece} (hp : p ∈ c.rest) :
    Stretch source p.start p.stop := h.ranked.stretch p.extent (List.mem_map_of_mem hp)

theorem last_le_offset (h : Sound source c) : c.last ≤ c.offset source := by
  unfold Cursor.offset
  cases hrest : c.rest with
  | nil => exact h.last.le
  | cons p ps => exact h.behind p (by rw [hrest]; exact List.mem_cons_self)

theorem boundary_offset (h : Sound source c) : Boundary source (c.offset source) := by
  unfold Cursor.offset
  cases hrest : c.rest with
  | nil => exact String.Pos.Raw.isValid_rawEndPos
  | cons p ps => exact (h.stretch (p := p) (by rw [hrest]; exact List.mem_cons_self)).starts

/-- The tokens that were read last stand behind those before and before those that are left. -/
theorem skip (h : Sound source c) (n : Nat) :
    Sound source (c.skip n) ∧ c.last ≤ (c.skip n).last := by
  have hrest : Ranked source ((c.rest.drop n).map Piece.extent) :=
    h.ranked.sublist ((List.drop_sublist n c.rest).map _)
  cases hlast : (c.rest.take n).getLast? with
  | none =>
    rw [Cursor.skip, hlast]
    exact ⟨⟨hrest, fun p hp => h.behind p (List.mem_of_mem_drop hp), h.last⟩, le_rfl⟩
  | some q =>
    have hq : q ∈ c.rest.take n := List.mem_of_getLast? hlast
    have hstretch := h.stretch (List.mem_of_mem_take hq)
    have horder := h.ranked.order
    rw [← List.take_append_drop n c.rest, List.map_append, List.pairwise_append] at horder
    rw [Cursor.skip, hlast]
    refine ⟨⟨hrest, fun p hp => ?_, hstretch.ends⟩, ?_⟩
    · exact horder.2.2 _ (List.mem_map_of_mem hq) _ (List.mem_map_of_mem hp)
    · exact (h.behind q (List.mem_of_mem_take hq)).trans hstretch.nonempty.le

/-- Reading a token leads past the byte at which it starts. -/
theorem past_skip (h : Sound source c) {n : Nat} (hn : 0 < n) (hrest : c.rest ≠ []) :
    Past source (c.offset source) [] (c.skip n) := by
  refine ⟨(h.skip n).1, h.boundary_offset, ?_, .nil⟩
  obtain ⟨p, ps, hrest⟩ := List.exists_cons_of_ne_nil hrest
  obtain ⟨m, rfl⟩ : ∃ m, n = 1 + m := ⟨n - 1, by omega⟩
  have hfirst := (h.skip 1).1
  rw [← Cursor.skip_skip]
  refine Nat.lt_of_lt_of_le ?_ (hfirst.skip m).2
  have hp : p ∈ c.rest := by rw [hrest]; exact List.mem_cons_self
  simpa [Cursor.skip, Cursor.offset, hrest] using (h.stretch hp).nonempty

end Sound

namespace Past

theorem learn (h : Past source start ts c) (names : List String) :
    Past source start ts (c.learn names) :=
  ⟨⟨h.sound.ranked, h.sound.behind, h.sound.last⟩, h.starts, h.moved, h.row⟩

theorem skip (h : Past source start ts c) (n : Nat) : Past source start ts (c.skip n) := by
  obtain ⟨hsound, hlast⟩ := h.sound.skip n
  exact ⟨hsound, h.starts, h.moved.trans_le hlast, h.row.mono le_rfl hlast⟩

/-- What is read next stands behind. -/
theorem append {us : List Surface} {d : Cursor} (h : Past source start ts c)
    (hus : Past source (c.offset source) us d) : Past source start (ts ++ us) d := by
  have hoffset := h.sound.last_le_offset
  refine ⟨hus.sound, h.starts, by have := h.moved; have := hus.moved; omega, ?_⟩
  exact h.row.append (hus.row.mono hoffset le_rfl) h.moved.le (hoffset.trans hus.moved.le)

/-- The trees that were read become the parts of a node from the start on. -/
theorem spanned {form : Form Surface} (h : Past source start form.parts c) :
    Past source start [.plain form (Span.ofOffsets source start (Nat.max c.last start))] c := by
  have hmax : Nat.max c.last start = c.last := Nat.max_eq_left h.moved.le
  rw [hmax]
  have hnode : Surface.Nested source (.plain form (Span.ofOffsets source start c.last)) :=
    Surface.Row.node h.row ⟨h.moved, h.starts, h.sound.last⟩ []
  exact ⟨h.sound, h.starts, h.moved, Surface.Row.singleton hnode⟩

theorem withLeading {t : Surface} (h : Past source start [t] c) (comments : List String) :
    Past source start [t.withLeading comments] c := by
  have hnested := (h.row.nested t List.mem_cons_self).withLeading comments
  refine ⟨h.sound, h.starts, h.moved, (Surface.Row.singleton hnested).mono ?_ ?_⟩
  · rw [t.span_withLeading]
    exact h.row.above t List.mem_cons_self
  · rw [t.span_withLeading]
    exact h.row.below t List.mem_cons_self

/-- Two operands become one, which reaches from the one to the other. -/
theorem binary {op : Operator} {left right : Surface} (h : Past source start [left, right] c) :
    Past source start [Surface.binary op left right] c := by
  have hleft := h.row.nested left (by simp)
  have hright := h.row.nested right (by simp)
  have horder : left.span.stop ≤ right.span.start := by
    simpa [Surface.Precedes] using h.row.order
  have hl := hleft.covers
  have hr := hright.covers
  have hfirst : (left.span.merge right.span).start = left.span.start := by
    have hle : left.span.start ≤ right.span.start := hl.nonempty.le.trans horder
    simp [Span.merge, hle]
  have hlast : (left.span.merge right.span).stop = right.span.stop := by
    have hlt : ¬ right.span.stop ≤ left.span.stop := by have := hr.nonempty; omega
    simp [Span.merge, hlt]
  have hrow : Surface.Row source left.span.start right.span.stop [left, right] :=
    (Surface.Row.singleton hleft).append ((Surface.Row.singleton hright).mono horder le_rfl)
      hl.nonempty.le (horder.trans hr.nonempty.le)
  have hnode : Surface.Nested source (Surface.binary op left right) := by
    refine Surface.Row.node ?_ ?_ []
    · rw [hfirst, hlast]
      exact hrow
    · rw [hfirst, hlast]
      exact ⟨by have := hl.nonempty; have := hr.nonempty; omega, hl.starts, hr.ends⟩
  refine ⟨h.sound, h.starts, h.moved, (Surface.Row.singleton hnode).mono ?_ ?_⟩
  · exact (h.row.above left (by simp)).trans hfirst.ge
  · exact hlast.le.trans (h.row.below right (by simp))

end Past

end Cursor

/-! ### Steps -/

namespace Parse

open Cursor

variable {α β : Type} {p : Parse α} {f : α → Parse β} {c : Cursor} {env : Setting}
  {start : Nat} {ts : List Surface}

/-- A step that succeeds leaves a result and a cursor with a property. -/
def Ensures (p : Parse α) (c : Cursor) (Q : α → Cursor → Prop) : Prop :=
  ∀ a d, p.run c = .ok a d → Q a d

namespace Ensures

variable {Q : β → Cursor → Prop}

theorem pure {a : α} {Q : α → Cursor → Prop} (h : Q a c) : Ensures (Pure.pure a) c Q := by
  rintro b d ⟨⟩
  exact h

theorem bind {R : α → Cursor → Prop} (hp : Ensures p c R)
    (hf : ∀ a d, R a d → Ensures (f a) d Q) : Ensures (p >>= f) c Q := by
  intro b d hrun
  rw [EStateM.run_bind] at hrun
  cases hstep : p.run c with
  | ok a mid =>
    rw [hstep] at hrun
    exact hf a mid (hp a mid hstep) b d hrun
  | error e mid => rw [hstep] at hrun; cases hrun

/-- A step that only looks at the cursor. -/
theorem look {a : α} (hp : p.run c = .ok a c) (hf : Ensures (f a) c Q) :
    Ensures (p >>= f) c Q := by
  intro b d hrun
  rw [EStateM.run_bind, hp] at hrun
  exact hf b d hrun

theorem ite {b : Prop} [Decidable b] {p q : Parse α} {Q : α → Cursor → Prop}
    (hp : b → Ensures p c Q) (hq : ¬ b → Ensures q c Q) : Ensures (if b then p else q) c Q := by
  split
  · next h => exact hp h
  · next h => exact hq h

theorem map {g : α → β} (hp : Ensures p c fun a => Q (g a)) : Ensures (g <$> p) c Q := by
  rw [map_eq_pure_bind]
  exact hp.bind fun a d hd => .pure hd

theorem fail {fault : ParseFault} {Q : α → Cursor → Prop} :
    Ensures (Parse.fail env fault) c Q := by rintro a d ⟨⟩

theorem failExpected {what : Expectation} {Q : α → Cursor → Prop} :
    Ensures (Parse.failExpected env what) c Q := by rintro a d ⟨⟩

end Ensures

/-- What stays of a row while tokens are read of which no trees are made. -/
theorem Built.keeps (hp : Built p) (h : Past env.source start ts c) :
    Ensures p c fun _ => Past env.source start ts := by
  intro a d hrun
  obtain ⟨n, names, hfinal, -⟩ := hp.forward c
  rw [hrun] at hfinal
  rw [show d = (c.skip n).learn names from hfinal]
  exact (h.skip n).learn names

/-- A step that, from the token it starts at, leaves in a row the trees of its result. -/
def Yields (env : Setting) (parts : α → List Surface) (p : Parse α) : Prop :=
  ∀ c, Sound env.source c →
    Ensures p c fun a => Past env.source (c.offset env.source) (parts a)

/-- Behind a row, the trees of the next step extend it. -/
theorem Yields.after {parts : α → List Surface} (hp : Yields env parts p)
    (h : Past env.source start ts c) :
    Ensures p c fun a => Past env.source start (ts ++ parts a) :=
  fun a d hrun => h.append (hp c h.sound a d hrun)

section Tokens

variable (hc : Sound env.source c)
include hc

theorem ensures_consume {n : Nat} (hn : 0 < n) (hrest : c.rest ≠ []) :
    Ensures (consume n) c fun _ => Past env.source (c.offset env.source) [] := by
  rintro a d ⟨⟩
  exact hc.past_skip hn hrest

omit hc in
theorem rest_ne_nil {t : Token} (ht : c.rest.head?.map (·.token) = some t) : c.rest ≠ [] := by
  intro hnil
  rw [hnil] at ht
  cases ht

theorem ensures_expect (t : Token) :
    Ensures (expect env t) c fun _ => Past env.source (c.offset env.source) [] := by
  refine .bind (R := fun b d => b = true → Past env.source (c.offset env.source) [] d) ?_ ?_
  · refine .look rfl (.ite (fun h => ?_) fun _ => .pure (by simp))
    have hrest : c.rest ≠ [] := rest_ne_nil (eq_of_beq h)
    exact (ensures_consume hc one_pos hrest).bind fun _ d hd => .pure fun _ => hd
  · exact fun b d hd => .ite (fun hb => .pure (hd hb)) fun _ => .failExpected

omit hc in
theorem rest_ne_nil_of_words {pieces : List Piece} (h : words pieces ≠ []) : pieces ≠ [] := by
  rintro rfl
  exact h rfl

omit hc in
theorem longest_pos {isKnown : String → Bool} {best : String × Nat} {candidate : String}
    {count : Nat} {ws : List String} (h : 0 < best.2) :
    0 < (longest isKnown best candidate count ws).2 := by
  induction ws generalizing best candidate count with
  | nil => exact h
  | cons w ws ih =>
    refine ih ?_
    split
    · exact Nat.succ_pos _
    · exact h

omit hc in
theorem nameAhead_pos {isKnown : String → Bool} {name : String} {count : Nat}
    (h : nameAhead isKnown c = some (name, count)) : 0 < count ∧ c.rest ≠ [] := by
  unfold nameAhead at h
  split at h
  · cases h
  · next w ws hwords =>
    have hcount : (longest isKnown (w, 1) w 1 ws).2 = count :=
      congrArg Prod.snd (Option.some.inj h)
    refine ⟨hcount ▸ longest_pos one_pos, ?_⟩
    have htake : c.rest.take maxWords ≠ [] :=
      rest_ne_nil_of_words (by rw [hwords]; exact List.cons_ne_nil w ws)
    exact fun hnil => htake (by rw [hnil]; rfl)

theorem ensures_readName :
    Ensures (readName env) c fun _ => Past env.source (c.offset env.source) [] := by
  refine .look rfl ?_
  split
  · exact .failExpected
  · next name count hname =>
    obtain ⟨hcount, hrest⟩ := nameAhead_pos hname
    refine (ensures_consume hc hcount hrest).bind fun _ d hd => .ite (fun _ => ?_) fun _ => .pure hd
    exact .look rfl ((Built.plainNames _ _).keeps hd)

theorem ensures_binder (ends : Token → Bool) :
    Ensures (binder env ends) c fun _ => Past env.source (c.offset env.source) [] := by
  refine .look rfl (.ite (fun _ => .failExpected) fun hwords => ?_)
  generalize hws : words (c.rest.takeWhile fun p => !ends p.token) = ws at hwords ⊢
  have hlength : 0 < ws.length := by
    rw [List.length_pos_iff]
    rintro rfl
    exact hwords rfl
  have htake : c.rest.takeWhile (fun p => !ends p.token) ≠ [] :=
    rest_ne_nil_of_words (by rw [hws]; exact List.length_pos_iff.mp hlength)
  have hrest : c.rest ≠ [] := fun hnil => htake (by rw [hnil]; rfl)
  exact (ensures_consume hc hlength hrest).bind fun _ d hd => .pure hd

end Tokens

/-! #### Items -/

section Items

variable {item : Parse α} {parts : α → List Surface} (hitem : Yields env parts item)
include hitem

theorem ensures_moreItems (n : Nat) (items : List α)
    (h : Past env.source start (items.reverse.flatMap parts) c) :
    Ensures (moreItems item n items) c fun all => Past env.source start (all.flatMap parts) := by
  induction n generalizing items c with
  | zero => exact .pure h
  | succ n ih =>
    refine ((Built.accept _).keeps h).bind fun more d hd => .ite (fun _ => ?_) fun _ => .pure hd
    refine (hitem.after hd).bind fun a d hd => ih (a :: items) ?_
    simpa using hd

theorem yields_commaSeparated : Yields env (List.flatMap parts) (commaSeparated item) := by
  intro c hc
  refine (hitem c hc).bind fun first d hd => .look rfl (ensures_moreItems hitem _ [first] ?_)
  simpa using hd

end Items

theorem ensures_spanned {form : Form Surface} (h : Past env.source start form.parts c) :
    Ensures (spanned env form start) c fun t => Past env.source start [t] :=
  .look rfl (.pure h.spanned)

/-- A node that takes over the comments before its first token. -/
theorem ensures_node {form : Form Surface} (h : Past env.source start form.parts c)
    (comments : List String) :
    Ensures (do return (← spanned env form start).withLeading comments) c fun t =>
      Past env.source start [t] :=
  (ensures_spanned h).bind fun _ _ hd => .pure (hd.withLeading comments)

end Parse

/-! ### Expressions -/

namespace Surface

open Parse Cursor

variable {env : Setting} {self : Rule} {closing : Bool} {start : Nat} {c : Cursor}

/-- A rule that leaves its one tree in a row. -/
abbrev YieldsTree (env : Setting) (p : Parse Surface) : Prop := Yields env (fun t => [t]) p

abbrev YieldsForm (env : Setting) (p : Parse (Form Surface)) : Prop := Yields env Form.parts p

section Rules

variable (hself : ∀ closing, YieldsTree env (self closing))
include hself

/-! #### What stands alone -/

theorem ensures_intervalEnd {first : Surface} (si : Bool) (h : Past env.source start [first] c) :
    Ensures (intervalEnd env self first si) c fun form => Past env.source start form.parts :=
  ((hself true).after h).bind fun _ _ hd =>
    (built_intervalClose.keeps hd).bind fun _ _ he => .pure he

theorem yields_parenthesized : YieldsTree env (parenthesized env self) := by
  intro c hc
  refine .look rfl <| .look rfl <| (ensures_expect hc _).bind fun _ d hd => ?_
  refine ((hself false).after hd).bind fun inner e he => ?_
  refine ((Built.accept _).keeps he).bind fun dots g hg => .ite (fun _ => ?_) fun _ => ?_
  · exact (ensures_intervalEnd hself false hg).bind fun form i hi => ensures_node hi _
  · exact ((Built.expect _).keeps hg).bind fun _ i hi => .pure (hi.withLeading _)

theorem yields_listOrInterval : YieldsForm env (listOrInterval env self) := by
  intro c hc
  refine (ensures_expect hc _).bind fun _ d hd => ?_
  refine ((Built.accept _).keeps hd).bind fun empty d hd => .ite (fun _ => .pure hd) fun _ => ?_
  refine ((hself false).after hd).bind fun first d hd => ?_
  refine ((Built.accept _).keeps hd).bind fun dots d hd => .ite (fun _ => ?_) fun _ => ?_
  · exact ensures_intervalEnd hself true hd
  · refine .look rfl ((ensures_moreItems (hself false) _ [first] hd).bind fun items d hd => ?_)
    refine ((Built.expect _).keeps hd).bind fun _ d hd => .pure ?_
    simpa [Form.parts] using hd

theorem yields_openInterval : YieldsForm env (openInterval env self) := by
  intro c hc
  refine (ensures_expect hc _).bind fun _ d hd => ((hself false).after hd).bind fun low d hd => ?_
  exact ((Built.expect _).keeps hd).bind fun _ d hd => ensures_intervalEnd hself false hd

omit hself in
theorem ensures_entryKey (hc : Sound env.source c) :
    Ensures (entryKey env) c fun _ => Past env.source (c.offset env.source) [] := by
  refine .look rfl ?_
  split
  · next s hs => exact (ensures_consume hc one_pos (rest_ne_nil hs)).bind fun _ _ hd => .pure hd
  · exact ensures_binder hc _

theorem yields_entry : Yields env (fun e => [e.2]) (entry env self) := by
  intro c hc
  refine (ensures_entryKey hc).bind fun key d hd => ?_
  refine ((Built.expect _).keeps hd).bind fun _ d hd => ?_
  refine ((Built.remember _).keeps hd).bind fun _ d hd => ?_
  exact ((hself false).after hd).bind fun _ d hd => .pure hd

theorem yields_contextForm : YieldsForm env (contextForm env self) := by
  intro c hc
  refine (ensures_expect hc _).bind fun _ d hd => ?_
  refine ((Built.accept _).keeps hd).bind fun empty d hd => .ite (fun _ => .pure hd) fun _ => ?_
  refine ((yields_commaSeparated (yields_entry hself)).after hd).bind fun entries d hd => ?_
  refine ((Built.expect _).keeps hd).bind fun _ d hd => .pure ?_
  simpa [Form.parts, List.map_eq_flatMap] using hd

omit hself in
theorem yields_temporalForm : YieldsForm env (temporalForm env) := by
  intro c hc
  refine (ensures_expect hc _).bind fun _ d hd => .look rfl ?_
  split
  · exact ((Built.consume 1).keeps hd).bind fun _ d hd => .pure hd
  · exact .failExpected

omit hself in
theorem ensures_atom (hc : Sound env.source c) {form : Form Surface} (hform : form.parts = [])
    {t : Token} (ht : c.rest.head?.map (·.token) = some t) :
    Ensures (atom form) c fun form => Past env.source (c.offset env.source) form.parts :=
  (ensures_consume hc one_pos (rest_ne_nil ht)).bind fun _ _ hd => .pure (hform ▸ hd)

theorem yields_primaryForm : YieldsForm env (primaryForm env self) := by
  intro c hc
  refine .look rfl ?_
  split
  · next ht => exact ensures_atom hc rfl ht
  · next ht => exact ensures_atom hc rfl ht
  · next ht => exact ensures_atom hc rfl ht
  · next ht => exact ensures_atom hc rfl ht
  · next ht => exact ensures_atom hc rfl ht
  · next ht => exact ensures_atom hc rfl ht
  · exact yields_temporalForm c hc
  · exact (ensures_readName hc).bind fun _ _ hd => .pure hd
  · exact yields_listOrInterval hself c hc
  · exact yields_openInterval hself c hc
  · exact yields_contextForm hself c hc
  · exact .fail

/-! #### Textual forms -/

theorem ensures_conditional (hc : Sound env.source c) (hrest : c.rest ≠ []) :
    Ensures (conditional env self closing) c fun form =>
      Past env.source (c.offset env.source) form.parts := by
  refine (ensures_consume hc one_pos hrest).bind fun _ d hd => ?_
  refine ((hself closing).after hd).bind fun _ d hd => ?_
  refine ((Built.expect _).keeps hd).bind fun _ d hd => ((hself closing).after hd).bind ?_
  intro yes d hd
  refine ((Built.expect _).keeps hd).bind fun _ d hd => ((hself closing).after hd).bind ?_
  exact fun no d hd => .pure hd

theorem yields_iterator : Yields env Iterator.parts (iterator env self closing) := by
  intro c hc
  refine (ensures_binder hc _).bind fun name d hd => ((Built.expect _).keeps hd).bind ?_
  intro _ d hd
  refine ((hself closing).after hd).bind fun domain d hd => ((Built.accept _).keeps hd).bind ?_
  intro dots d hd
  refine .ite (fun _ => ?_) fun _ => ?_
  · refine .bind (R := fun finish => Past env.source (c.offset env.source)
      (domain :: finish.toList)) (.map ((hself closing).after hd)) fun finish d hd => ?_
    exact ((Built.remember _).keeps hd).bind fun _ d hd => .pure hd
  · exact .look rfl (((Built.remember _).keeps hd).bind fun _ d hd => .pure hd)

theorem ensures_iteration (hc : Sound env.source c) (hrest : c.rest ≠ []) :
    Ensures (iteration env self closing) c fun form =>
      Past env.source (c.offset env.source) form.parts := by
  refine (ensures_consume hc one_pos hrest).bind fun _ d hd => ?_
  refine ((yields_commaSeparated (yields_iterator hself)).after hd).bind fun iterators d hd => ?_
  refine ((Built.expect _).keeps hd).bind fun _ d hd => ((hself closing).after hd).bind ?_
  exact fun body d hd => .pure hd

theorem ensures_quantification (hc : Sound env.source c) (hrest : c.rest ≠ []) :
    Ensures (quantification env self closing) c fun form =>
      Past env.source (c.offset env.source) form.parts := by
  refine .look rfl ((ensures_consume hc one_pos hrest).bind fun _ d hd => ?_)
  refine ((yields_commaSeparated (yields_iterator hself)).after hd).bind fun iterators d hd => ?_
  refine ((Built.expect _).keeps hd).bind fun _ d hd => ((hself closing).after hd).bind ?_
  exact fun body d hd => .pure hd

theorem ensures_functionDefinition (hc : Sound env.source c) (hrest : c.rest ≠ []) :
    Ensures (functionDefinition env self closing) c fun form =>
      Past env.source (c.offset env.source) form.parts := by
  refine (ensures_consume hc one_pos hrest).bind fun _ d hd => ?_
  refine ((Built.expect _).keeps hd).bind fun _ d hd => .look rfl (.ite (fun _ => ?_) fun _ => ?_)
  · refine .look rfl (((Built.expect _).keeps hd).bind fun _ d hd => ?_)
    exact ((hself closing).after hd).bind fun body d hd => .pure hd
  · refine ((Built.commaSeparated built_param).keeps hd).bind fun params d hd => ?_
    refine ((Built.expect _).keeps hd).bind fun _ d hd => ?_
    exact ((hself closing).after hd).bind fun body d hd => .pure hd

theorem ensures_textual (hc : Sound env.source c)
    (htoken : (c.rest.head?.map (·.token)).any beginsTextual = true) :
    Ensures (textual env self closing) c fun t =>
      Past env.source (c.offset env.source) [t] := by
  have hrest : c.rest ≠ [] := by
    intro hnil
    rw [hnil] at htoken
    cases htoken
  refine .look rfl <| .look rfl <| .look rfl ?_
  dsimp only
  split
  · exact (ensures_conditional hself hc hrest).bind fun form d hd => ensures_node hd _
  · exact (ensures_iteration hself hc hrest).bind fun form d hd => ensures_node hd _
  · exact (ensures_functionDefinition hself hc hrest).bind fun form d hd => ensures_node hd _
  · exact (ensures_quantification hself hc hrest).bind fun form d hd => ensures_node hd _

theorem yields_primary : YieldsTree env (primary env self) := by
  intro c hc
  refine .look rfl (.ite (fun _ => yields_parenthesized hself c hc) fun _ => ?_)
  refine .ite (fun ht => ensures_textual hself hc ht) fun _ => .look rfl <| .look rfl ?_
  exact (yields_primaryForm hself c hc).bind fun form d hd => ensures_node hd _

/-! #### Filters, paths and calls -/

theorem yields_namedArgument : Yields env (fun a => [a.2]) (namedArgument env self) := by
  intro c hc
  refine (ensures_binder hc _).bind fun name d hd => ((Built.expect _).keeps hd).bind ?_
  exact fun _ d hd => ((hself false).after hd).bind fun _ d hd => .pure hd

theorem yields_arguments : Yields env Arguments.parts (arguments env self) := by
  have hnamed : Yields env Arguments.parts
      (Arguments.named <$> commaSeparated (namedArgument env self)) := fun c hc => .map <| by
    simpa [Arguments.parts, List.map_eq_flatMap] using
      yields_commaSeparated (yields_namedArgument hself) c hc
  have hpositional : Yields env Arguments.parts
      (Arguments.positional <$> commaSeparated (self false)) := fun c hc => .map <| by
    simpa [Arguments.parts] using yields_commaSeparated (hself false) c hc
  intro c hc
  refine (ensures_expect hc _).bind fun _ d hd => ?_
  refine ((Built.accept _).keeps hd).bind fun empty d hd => .ite (fun _ => .pure hd) fun _ => ?_
  refine .look rfl (.ite (fun _ => ?_) fun _ => ?_)
  · refine (hnamed.after hd).bind fun args d hd => ((Built.expect _).keeps hd).bind ?_
    exact fun _ d hd => .pure hd
  · refine (hpositional.after hd).bind fun args d hd => ((Built.expect _).keeps hd).bind ?_
    exact fun _ d hd => .pure hd

theorem ensures_suffixes (n : Nat) {inner : Surface} (h : Past env.source start [inner] c) :
    Ensures (suffixes env self closing start n inner) c fun t => Past env.source start [t] := by
  induction n generalizing inner c with
  | zero => exact .pure h
  | succ n ih =>
    refine .look rfl ?_
    split
    · refine ((Built.consume 1).keeps h).bind fun _ d hd => (Built.readName.keeps hd).bind ?_
      exact fun member d hd => (ensures_spanned hd).bind fun t d hd => ih hd
    · refine .ite (fun _ => .pure h) fun _ => ((Built.consume 1).keeps h).bind fun _ d hd => ?_
      refine ((hself false).after hd).bind fun filter d hd => ((Built.expect _).keeps hd).bind ?_
      exact fun _ d hd => (ensures_spanned hd).bind fun t d hd => ih hd
    · refine ((yields_arguments hself).after h).bind fun args d hd => ?_
      exact (ensures_spanned hd).bind fun t d hd => ih hd
    · exact .pure h

/-- Suffixes extend what they stand behind from its own start, which can be behind a parenthesis. -/
theorem ensures_withSuffixes {inner : Surface} (h : Past env.source start [inner] c) :
    Ensures (withSuffixes env self closing inner) c fun t => Past env.source start [t] := by
  have hinner := h.row.nested inner List.mem_cons_self
  have habove := h.row.above inner List.mem_cons_self
  have hbelow := h.row.below inner List.mem_cons_self
  have hown : Past env.source inner.span.start [inner] c :=
    ⟨h.sound, hinner.covers.starts, hinner.covers.nonempty.trans_le hbelow,
      (Row.singleton hinner).mono le_rfl hbelow⟩
  refine .look rfl fun t d hrun => ?_
  have hd := ensures_suffixes hself _ hown t d hrun
  exact ⟨hd.sound, h.starts, habove.trans_lt hd.moved, hd.row.mono habove le_rfl⟩

/-! #### Signs and operators -/

theorem yields_signed (n : Nat) : YieldsTree env (signed env self closing n) := by
  have hplain : YieldsTree env (primary env self >>= withSuffixes env self closing) :=
    fun c hc => (yields_primary hself c hc).bind fun inner d hd => ensures_withSuffixes hself hd
  induction n with
  | zero => exact hplain
  | succ n ih =>
    intro c hc
    refine .look rfl (.ite (fun hminus => ?_) fun _ => hplain c hc)
    refine .look rfl <| .look rfl ?_
    refine (ensures_consume hc one_pos (rest_ne_nil (eq_of_beq hminus))).bind fun _ d hd => ?_
    refine .look rfl ?_
    split
    · refine .look rfl (((Built.consume 1).keeps hd).bind fun _ d hd => ?_)
      refine (ensures_spanned hd).bind fun literal d hd => ?_
      exact ensures_withSuffixes hself (hd.withLeading _)
    · exact (ih.after hd).bind fun operand d hd => ensures_node hd _

omit hself in
theorem yields_leftAssociative {operator? : Token → Option Operator} {operand : Parse Surface}
    (h : YieldsTree env operand) : YieldsTree env (leftAssociative operator? operand) := by
  have hchain (n : Nat) {left : Surface} {start : Nat} {c : Cursor}
      (hleft : Past env.source start [left] c) :
      Ensures (chain operator? operand n left) c fun t => Past env.source start [t] := by
    induction n generalizing left c with
    | zero => exact .pure hleft
    | succ n ih =>
      refine .look rfl ?_
      split
      · exact .pure hleft
      · refine ((Built.consume 1).keeps hleft).bind fun _ d hd => (h.after hd).bind ?_
        exact fun right d hd => ih hd.binary
  intro c hc
  exact (h c hc).bind fun first d hd => .look rfl (hchain _ hd)

theorem yields_sum : YieldsTree env (sum env self closing) :=
  yields_leftAssociative <| yields_leftAssociative <| yields_leftAssociative fun c hc =>
    .look rfl (yields_signed hself _ c hc)

/-! #### Tests and comparisons -/

theorem yields_positiveTest : YieldsTree env (positiveTest env self closing) := by
  intro c hc
  refine .look rfl <| .look rfl <| .look rfl (.ite (fun hdash => ?_) fun _ => ?_)
  · have hminus : c.rest.head?.map (·.token) = some (.symbol .minus) := by
      simpa using (Bool.and_eq_true_iff.mp hdash).1
    exact (ensures_consume hc one_pos (rest_ne_nil hminus)).bind fun _ d hd => ensures_spanned hd
  · split
    · next op hop =>
      obtain ⟨t, ht, -⟩ := Option.bind_eq_some_iff.mp hop
      refine (ensures_consume hc one_pos (rest_ne_nil ht)).bind fun _ d hd => ?_
      exact ((yields_sum hself).after hd).bind fun value d hd => ensures_spanned hd
    · exact hself closing c hc

theorem yields_inTests : Yields env id (inTests env self closing) := by
  intro c hc
  refine .look rfl (.ite (fun hparen => .look rfl ?_) fun _ => ?_)
  · refine (ensures_consume hc one_pos (rest_ne_nil (eq_of_beq hparen))).bind fun _ d hd => ?_
    refine ((yields_positiveTest hself).after hd).bind fun first d hd => ?_
    refine ((Built.accept _).keeps hd).bind fun dots d hd => .ite (fun _ => ?_) fun _ => ?_
    · refine (ensures_intervalEnd hself false hd).bind fun form d hd => ?_
      exact (ensures_spanned hd).bind fun t d hd => .pure hd
    · refine .look rfl ?_
      refine (ensures_moreItems (yields_positiveTest hself) _ [first] hd).bind fun ts d hd => ?_
      refine ((Built.expect _).keeps hd).bind fun _ d hd => .pure ?_
      simpa using hd
  · exact (yields_positiveTest hself c hc).bind fun t d hd => .pure hd

theorem ensures_comparisons (n : Nat) {left : Surface} (h : Past env.source start [left] c) :
    Ensures (comparisons env self closing start n left) c fun t => Past env.source start [t] := by
  induction n generalizing left c with
  | zero => exact .pure h
  | succ n ih =>
    refine .look rfl ?_
    split
    · refine ((Built.consume 1).keeps h).bind fun _ d hd => ((yields_sum hself).after hd).bind ?_
      intro low d hd
      refine ((Built.expect _).keeps hd).bind fun _ d hd => ((yields_sum hself).after hd).bind ?_
      exact fun high d hd => (ensures_spanned hd).bind fun t d hd => ih hd
    · refine ((Built.consume 1).keeps h).bind fun _ d hd => ?_
      refine ((yields_inTests hself).after hd).bind fun ts d hd => ?_
      exact (ensures_spanned hd).bind fun t d hd => ih hd
    · refine ((Built.consume 1).keeps h).bind fun _ d hd => ((Built.expect _).keeps hd).bind ?_
      intro _ d hd
      refine (TypeExpr.built_read.keeps hd).bind fun target d hd => ?_
      exact (ensures_spanned hd).bind fun t d hd => ih hd
    · split
      · refine ((Built.consume 1).keeps h).bind fun _ d hd => ((yields_sum hself).after hd).bind ?_
        exact fun right d hd => ih hd.binary
      · exact .pure h

theorem yields_comparison : YieldsTree env (comparison env self closing) := fun c hc =>
  .look rfl <| (yields_sum hself c hc).bind fun _ _ hd =>
    .look rfl (ensures_comparisons hself _ hd)

theorem yields_expressionRule : YieldsTree env (expressionRule env self closing) := fun c hc =>
  .look rfl <| .ite (fun ht => ensures_textual hself hc ht) fun _ =>
    yields_leftAssociative (yields_leftAssociative (yields_comparison hself)) c hc

end Rules

/-! #### Whole texts -/

/-- By induction on the nesting: at no level there is nothing to read, and each level reads by the
rules in terms of the level below. -/
theorem yields_expressionWithin (n : Nat) (closing : Bool) :
    YieldsTree env (expressionWithin env n closing) := by
  induction n generalizing closing with
  | zero => exact fun c hc => .look rfl .fail
  | succ n ih => exact yields_expressionRule ih

theorem yields_positiveTests : Yields env id (positiveTests env) := by
  intro c hc
  refine .look rfl ?_
  have htest : YieldsTree env (positiveTest env (expressionWithin env (c.rest.length + 1)) false) :=
    yields_positiveTest (yields_expressionWithin _)
  simpa using yields_commaSeparated htest c hc

theorem ensures_wholeExpression (hc : Sound env.source c) (trailing : List String) :
    Ensures (wholeExpression env trailing) c fun t _ => Nested env.source t := by
  refine .bind (.look rfl (yields_expressionWithin _ false c hc)) fun tree d hd => ?_
  refine (built_endOfText.keeps hd).bind fun _ d hd => .pure ?_
  exact (hd.row.nested tree List.mem_cons_self).withTrailing trailing

/-- A failed attempt at negated tests leaves the reader where it was. -/
theorem ensures_wholeTests (hc : Sound env.source c) :
    Ensures (wholeTests env) c fun t _ => Nested env.source t := by
  have hnested {start : Nat} {t : Surface} {d : Cursor} (hd : Past env.source start [t] d) :
      Nested env.source t := hd.row.nested t List.mem_cons_self
  have hplain {d : Cursor} (hd : Sound env.source d) :
      Ensures (do
        let tests ← positiveTests env
        endOfText env
        spanned env (.tests false tests) (d.offset env.source)) d fun t _ =>
          Nested env.source t := by
    refine (yields_positiveTests d hd).bind fun ts d hd => (built_endOfText.keeps hd).bind ?_
    exact fun _ d hd => fun t d hrun => hnested (ensures_spanned hd t d hrun)
  have hnegated (hrest : c.rest ≠ []) : Ensures (negatedTests env) c fun ts =>
      Past env.source (c.offset env.source) ts := by
    refine (ensures_consume hc Nat.two_pos hrest).bind fun _ d hd => ?_
    refine (yields_positiveTests.after hd).bind fun ts d hd => ?_
    refine ((Built.expect _).keeps hd).bind fun _ d hd => ?_
    exact (built_endOfText.keeps hd).bind fun _ d hd => .pure hd
  refine .look rfl <| .look rfl <| .ite (fun hdash => ?_) fun _ => .look rfl <| .look rfl <|
    .ite (fun hnot => ?_) fun _ => hplain hc
  · have hrest : c.rest ≠ [] := fun hnil => by simp [hnil] at hdash
    refine (ensures_consume hc one_pos hrest).bind fun _ d hd => ?_
    exact fun t d hrun => hnested (ensures_spanned hd t d hrun)
  · have hrest : c.rest ≠ [] := fun hnil => by simp [hnil] at hnot
    cases hattempt : (negatedTests env).run c with
    | ok ts d =>
      have hd := hnegated hrest ts d hattempt
      exact fun t e hrun => hnested (ensures_spanned hd t e hrun)
    | error e after =>
      exact hplain (d := { c with known := after.known }) ⟨hc.ranked, hc.behind, hc.last⟩

/-! #### Texts -/

/-- A tree that is read comes from one of two attempts on the tokens of its text. -/
theorem exists_of_parseWith {rule : Setting → List String → Parse Surface} {source : String}
    {known : List String} {tree : Surface} (h : parseWith rule source known = .ok tree) :
    ∃ lexemes mergeNames names d, Token.scan source = .ok lexemes ∧
      (rule ⟨source, mergeNames⟩ (Piece.ofLexemes lexemes []).2).run
        ⟨(Piece.ofLexemes lexemes []).1, 0, names⟩ = .ok tree d := by
  unfold parseWith at h
  split at h
  · cases h
  · next lexemes hscan =>
    dsimp only at h
    split at h
    · cases h
    · generalize known.filter _ ++ rangeMembers = names at h
      cases hfirst : (rule ⟨source, false⟩ (Piece.ofLexemes lexemes []).2).run
          ⟨(Piece.ofLexemes lexemes []).1, 0, names⟩ with
      | ok t d =>
        rw [hfirst] at h
        cases h
        exact ⟨lexemes, false, names, d, hscan, hfirst⟩
      | error e d =>
        rw [hfirst] at h
        dsimp only at h
        cases hsecond : (rule ⟨source, true⟩ (Piece.ofLexemes lexemes []).2).run
            ⟨(Piece.ofLexemes lexemes []).1, 0, names⟩ with
        | ok t d =>
          rw [hsecond] at h
          cases h
          exact ⟨lexemes, true, names, d, hscan, hsecond⟩
        | error e d => rw [hsecond] at h; cases h

/-- What a rule ensures of its trees, from a sound start, holds of the trees of texts. -/
theorem nested_of_parseWith {rule : Setting → List String → Parse Surface}
    (hrule : ∀ env trailing c, Sound env.source c →
      Ensures (rule env trailing) c fun t _ => Nested env.source t)
    {source : String} {known : List String} {tree : Surface}
    (h : parseWith rule source known = .ok tree) : Nested source tree := by
  obtain ⟨lexemes, mergeNames, names, d, hscan, hrun⟩ := exists_of_parseWith h
  have hsound : Sound source ⟨(Piece.ofLexemes lexemes []).1, 0, names⟩ :=
    ⟨Piece.ranked hscan [], fun p _ => Nat.zero_le _, String.Pos.Raw.isValid_zero⟩
  exact hrule ⟨source, mergeNames⟩ _ _ hsound tree d hrun

/-- **Spans are nested like the nodes.** Every node of a tree that is read covers a stretch of the
text that is not empty, from one boundary of characters to another; its parts lie inside it, one
behind the other. -/
theorem nested_of_parse {source : String} {known : List String} {tree : Surface}
    (h : parseExpression source known = .ok tree ∨ parseTests source known = .ok tree) :
    Nested source tree := by
  rcases h with h | h
  · exact nested_of_parseWith (fun env trailing c hc => ensures_wholeExpression hc trailing) h
  · exact nested_of_parseWith (fun env _ c hc => ensures_wholeTests hc) h

/-- The parentheses around the first operand belong to no node, and its text is longer in bytes
than in characters. -/
theorem nested_of_parse_parenthesized :
    ∃ tree, parseExpression "(a + \"ä\").b > 1" [] = .ok tree ∧
      (tree.span.start, tree.span.stop) = (1, 16) ∧ Nested "(a + \"ä\").b > 1" tree := by
  have hextent : (parseExpression "(a + \"ä\").b > 1" []).toOption.map
      (fun t => (t.span.start, t.span.stop)) = some (1, 16) := by decide +kernel
  cases hparse : parseExpression "(a + \"ä\").b > 1" [] with
  | error e => rw [hparse] at hextent; cases hextent
  | ok tree =>
    rw [hparse] at hextent
    exact ⟨tree, rfl, Option.some.inj hextent, nested_of_parse (.inl hparse)⟩

end Surface

end Feel
