import Feel.Proofs.ReadingSteps

/-!
# Negated tests that are none

Tests that begin with `not` and a parenthesis are tried as negated tests first. Where that fails,
the text is read once more from its start, as tests one of which begins with a call. All that is
left of the attempt is the names it made known; they matter only where the arguments of that call
are read, since by the end of these they are known in any case.

* `Surface.plainTests`: tests that are not negated, up to the end of the text.
* `Parse.Begins`: what a rule comes to first.
* `Surface.plainTests_begins`: tests that begin with a call come to its arguments first.
* `Surface.wholeTests_of_failed_negation`: what is read where the attempt has failed.
-/

namespace Feel

namespace Parse

variable {α β γ : Type}

/-- The result of a step, without the cursor. -/
def outcome : EStateM.Result ParseError Cursor α → Except ParseError α
  | .ok a _ => .ok a
  | .error e _ => .error e

theorem Alike.outcome_eq {r s : EStateM.Result ParseError Cursor α} (h : Alike r s) :
    outcome r = outcome s := by
  cases h <;> rfl

/-- A result whose cursor has lost the known names. -/
def forgetKnown : EStateM.Result ParseError Cursor α → EStateM.Result ParseError Cursor α
  | .ok a c => .ok a { c with known := [] }
  | .error e c => .error e { c with known := [] }

theorem Alike.of_forgetKnown {r s : EStateM.Result ParseError Cursor α}
    (h : forgetKnown r = forgetKnown s)
    (hknown : ∀ name, name ∈ (final r).known ↔ name ∈ (final s).known) : Alike r s := by
  cases r <;> cases s <;> simp only [forgetKnown, reduceCtorEq, EStateM.Result.ok.injEq,
    EStateM.Result.error.injEq, Cursor.mk.injEq, and_true] at h
  · obtain ⟨rfl, hrest, hlast⟩ := h
    exact .ok ⟨hrest, hlast, hknown⟩
  · obtain ⟨rfl, hrest, hlast⟩ := h
    exact .error ⟨hrest, hlast, hknown⟩

/-! ### What a rule comes to first -/

/-- Whatever names are known, a step that stands before `c` gives `a` and stops before `d`. -/
def Gives (p : Parse α) (c : Cursor) (a : α) (d : Cursor) : Prop :=
  ∀ names, p.run (c.learn names) = .ok a (d.learn names)

theorem Gives.bind {p : Parse α} {f : α → Parse β} {c d e : Cursor} {a : α} {b : β}
    (hp : Gives p c a d) (hf : Gives (f a) d b e) : Gives (p >>= f) c b e := fun names => by
  rw [EStateM.run_bind, hp]
  exact hf names

theorem Gives.pure (a : α) (c : Cursor) : Gives (Pure.pure a) c a c := fun _ => rfl

theorem Gives.offset (env : Setting) (c : Cursor) :
    Gives (offset env) c ((c.rest.head?.map (·.start)).getD env.source.utf8ByteSize) c :=
  fun _ => rfl

theorem Gives.leading (c : Cursor) :
    Gives leading c ((c.rest.head?.map (·.comments)).getD []) c := fun _ => rfl

theorem Gives.spanned {env : Setting} (form : Form Surface) (start : Nat) (c : Cursor) :
    Gives (spanned env form start) c
      (.plain form (Span.ofOffsets env.source start (Nat.max c.last start))) c := fun _ => rfl

/-- Whatever names are known, a rule that stands before `c` comes to a second rule before `d`, and
goes on from what that one gives. -/
def Begins (p : Parse α) (q : Parse β) (c d : Cursor) : Prop :=
  ∃ next : β → Parse α, (∀ b, Built (next b)) ∧
    ∀ names, p.run (c.learn names) = (q >>= next).run (d.learn names)

namespace Begins

variable {p : Parse α} {q : Parse β} {c d : Cursor}

theorem refl (q : Parse β) (c : Cursor) : Begins q q c c :=
  ⟨pure, .pure, fun names => by rw [bind_pure]⟩

theorem bind {f : α → Parse γ} (h : Begins p q c d) (hf : ∀ a, Built (f a)) :
    Begins (p >>= f) q c d := by
  obtain ⟨next, hnext, hrun⟩ := h
  refine ⟨fun b => next b >>= f, fun b => .bind (hnext b) hf, fun names => ?_⟩
  rw [← bind_assoc, EStateM.run_bind, EStateM.run_bind, hrun]

/-- A rule that takes a step first. -/
theorem step {p : Parse γ} {f : γ → Parse α} {e : Cursor} {a : γ} (hp : Gives p c a e)
    (h : Begins (f a) q e d) : Begins (p >>= f) q c d := by
  obtain ⟨next, hnext, hrun⟩ := h
  refine ⟨next, hnext, fun names => ?_⟩
  rw [EStateM.run_bind, hp, ← hrun]

/-- What a rule gives depends on the known names only as far as the rule it comes to first does. -/
theorem alike {names : List String} (h : Begins p q c d)
    (hq : Alike (q.run d) (q.run (d.learn names))) : Alike (p.run c) (p.run (c.learn names)) := by
  obtain ⟨next, hnext, hrun⟩ := h
  have hc : p.run c = (q >>= next).run d := hrun []
  rw [hc, hrun, EStateM.run_bind, EStateM.run_bind]
  generalize q.run d = r at hq ⊢
  generalize q.run (d.learn names) = s at hq ⊢
  cases hq with
  | ok h => exact (hnext _).alike h
  | error h => exact .error h

end Begins

end Parse

namespace Surface

open Parse

variable {env : Setting} {self : Rule} {c : Cursor} {ts : List Token}

/-- Tests that are not negated, up to the end of the text. -/
def plainTests (env : Setting) : Parse Surface := do
  let start ← offset env
  let tests ← positiveTests env
  endOfText env
  spanned env (.tests false tests) start

/-! ### A call at the start -/

/-- A cursor before `not` and a parenthesis. -/
structure BeginsNegated (c : Cursor) : Prop where
  first : c.rest.head?.map (·.token) = some (.name "not")
  second : (c.rest.drop 1).head?.map (·.token) = some (.symbol .lparen)

namespace BeginsNegated

variable (h : BeginsNegated c)
include h

theorem peek : Gives Parse.peek c (some (.name "not")) c := fun names => by
  rw [← h.first]
  rfl

theorem peekSecond : Gives Parse.peekSecond c (some (.symbol .lparen)) c := fun names => by
  rw [← h.second]
  rfl

theorem peek_skip : Gives Parse.peek (c.skip 1) (some (.symbol .lparen)) (c.skip 1) :=
  fun names => by
    rw [← h.second]
    rfl

theorem nameAhead (isKnown : String → Bool) (names : List String) :
    Parse.nameAhead isKnown (c.learn names) = some ("not", 1) := by
  have hwords : words (c.rest.take maxWords) = ["not"] := by
    obtain ⟨first, second⟩ := h
    match hrest : c.rest, first, second with
    | p :: q :: ps, first, second =>
      have hp : p.token = .name "not" := Option.some.inj first
      have hq : q.token = .symbol .lparen := Option.some.inj second
      simp [words, maxWords, Token.word?, hp, hq]
  rw [Parse.nameAhead, Cursor.learn, hwords]
  rfl

/-- The word before the parenthesis is a name of its own. -/
theorem readName : Gives (Parse.readName env) c "not" (c.skip 1) := by
  have hplain (n : Nat) : Gives (plainNames n "not") (c.skip 1) "not" (c.skip 1) := by
    cases n with
    | zero => exact fun _ => rfl
    | succ n => exact h.peek_skip.bind fun _ => rfl
  intro names
  have hrun : (Parse.readName env).run (c.learn names) =
      (if env.mergeNames = true then Parse.remaining >>= fun n => plainNames n "not"
        else pure "not").run ((c.skip 1).learn names) := by
    rw [Parse.readName, EStateM.run_bind]
    rw [show EStateM.run get (c.learn names) = .ok (c.learn names) (c.learn names) from rfl]
    dsimp only
    rw [h.nameAhead]
    rfl
  rw [hrun]
  split
  · rw [EStateM.run_bind]
    exact hplain _ names
  · rfl

theorem primary : ∃ inner, Gives (Surface.primary env self) c inner (c.skip 1) := by
  have hform : Gives (primaryForm env self) c (.name "not") (c.skip 1) :=
    h.peek.bind (h.readName.bind (.pure _ _))
  exact ⟨_, h.peek.bind <| (Gives.offset _ _).bind <| (Gives.leading _).bind <| hform.bind <|
    (Gives.spanned _ _ _).bind (.pure _ _)⟩

end BeginsNegated

section Begins

variable (hself : ∀ closing, Built (self closing)) (h : BeginsNegated c)
include hself h

theorem suffixes_begin (closing : Bool) (inner : Surface) :
    Begins (withSuffixes env self closing inner) (arguments env self) (c.skip 1) (c.skip 1) := by
  have hrest : (c.skip 1).rest.length = (c.rest.drop 2).length + 1 := by
    have hsecond := h.second
    rw [Cursor.skip]
    cases hdrop : c.rest.drop 1 with
    | nil => simp [hdrop] at hsecond
    | cons p ps => rw [← List.drop_drop (i := 1) (j := 1), hdrop]; rfl
  refine .step (a := (c.rest.drop 2).length + 1) (fun names => by rw [← hrest]; rfl) ?_
  refine .step h.peek_skip (.bind (.refl _ _) fun args => ?_)
  exact .bind (.spanned _ _) fun _ => built_suffixes hself _ _ _

theorem unary_begins (closing : Bool) :
    Begins (unary env self closing) (arguments env self) c (c.skip 1) := by
  obtain ⟨inner, hinner⟩ : ∃ inner, Gives (primary env self) c inner (c.skip 1) := h.primary
  have hplain : Begins (primary env self >>= withSuffixes env self closing) (arguments env self)
      c (c.skip 1) := .step hinner (suffixes_begin hself h closing inner)
  refine .step (a := c.rest.length) (fun names => rfl) ?_
  cases c.rest.length with
  | zero => exact hplain
  | succ n => exact .step (h.peek.bind fun _ => rfl) hplain

end Begins

/-- A chain of operators begins like its first operand. -/
theorem leftAssociative_begins {operator? : Token → Option Operator} {operand : Parse Surface}
    {q : Parse (Arguments Surface)} {d : Cursor} (hbuilt : Built operand)
    (h : Begins operand q c d) : Begins (leftAssociative operator? operand) q c d :=
  h.bind fun _ => .bind .remaining fun _ => built_chain _ hbuilt _ _

section Begins

variable (hself : ∀ closing, Built (self closing)) (h : BeginsNegated c)
include hself h

theorem expressionRule_begins (closing : Bool) :
    Begins (expressionRule env self closing) (arguments env self) c (c.skip 1) := by
  have hsum : Begins (sum env self closing) (arguments env self) c (c.skip 1) :=
    leftAssociative_begins (built_product hself) <| leftAssociative_begins (built_power hself) <|
      leftAssociative_begins (built_unary hself) (unary_begins hself h closing)
  have hcomparison : Begins (comparison env self closing) (arguments env self) c (c.skip 1) :=
    .step (.offset _ _) <| hsum.bind fun _ => .bind .remaining fun _ =>
      built_comparisons hself _ _ _
  exact .step h.peek <| leftAssociative_begins (built_conjunction hself) <|
    leftAssociative_begins (built_comparison hself) hcomparison

end Begins

theorem plainTests_begins (h : BeginsNegated c) :
    Begins (plainTests env) (arguments env (expressionWithin env c.rest.length)) c
      (c.skip 1) := by
  have hexpression : Begins (expressionRule env (expressionWithin env c.rest.length) false)
      (arguments env (expressionWithin env c.rest.length)) c (c.skip 1) :=
    expressionRule_begins (built_expressionWithin _) h false
  have hfirst : Begins (positiveTest env (expressionWithin env (c.rest.length + 1)) false)
      (arguments env (expressionWithin env c.rest.length)) c (c.skip 1) :=
    .step (.offset _ _) <| .step h.peek <| .step h.peekSecond hexpression
  refine .step (.offset _ _) <| .bind (.step (fun _ => rfl) <| hfirst.bind fun _ => ?_) fun _ =>
    .bind built_endOfText fun _ => .spanned _ _
  exact .bind .remaining fun _ => .moreItems (built_positiveTest (built_expressionWithin _)) _ _

/-! ### Attempts that fail -/

/-- The text is read once more from its start, with the names that the attempt knew. -/
theorem wholeTests_eq (h : BeginsNegated c) {e : ParseError} {after : Cursor}
    (hfail : (negatedTests env).run c = .error e after) :
    (wholeTests env).run c = (plainTests env).run { c with known := after.known } := by
  have hminus : (c.rest.map (·.token) == [.symbol .minus]) = false := by
    have hfirst := h.first
    cases hrest : c.rest with
    | nil => rfl
    | cons p ps =>
      rw [hrest] at hfirst
      simp [Option.some.inj hfirst]
  have hnot : (c.rest.head?.map (·.token) == some (.name "not") &&
      (c.rest.drop 1).head?.map (·.token) == some (.symbol .lparen)) = true := by
    rw [h.first, h.second]
    rfl
  -- the place, the cursor as it was, and the two tokens that call for an attempt
  rw [wholeTests, EStateM.run_bind]
  show EStateM.run (get >>= fun before => _) c = _
  rw [EStateM.run_bind]
  show EStateM.run (ite _ _ _) c = _
  rw [hminus, if_neg Bool.false_ne_true]
  show EStateM.run (peek >>= fun token => peekSecond >>= fun next => _) c = _
  rw [EStateM.run_bind]
  show EStateM.run (peekSecond >>= fun next => _) c = _
  rw [EStateM.run_bind]
  show EStateM.run (ite _ _ _) c = _
  rw [hnot, if_pos rfl, hfail]
  rfl

/-- **Of a failed attempt at negated tests only names are left.** Tests that begin with `not` and a
parenthesis, but are no negated tests, are read from the start like tests that are not negated, by
a reader that knows in addition the names of several words that the attempt came across. They are
read just as if there had been no attempt, unless these names change how the arguments of `not` are
read. -/
theorem wholeTests_of_failed_negation (h : BeginsNegated c) {e : ParseError} {after : Cursor}
    (hfail : (negatedTests env).run c = .error e after) :
    (∃ names, after.known = names ++ c.known ∧ ∀ name ∈ names, ' ' ∈ name.toList) ∧
      (wholeTests env).run c = (plainTests env).run { c with known := after.known } ∧
      (Alike ((arguments env (expressionWithin env c.rest.length)).run (c.skip 1))
          ((arguments env (expressionWithin env c.rest.length)).run
            { c.skip 1 with known := after.known }) →
        outcome ((wholeTests env).run c) = outcome ((plainTests env).run c)) := by
  have hbuilt : Built (negatedTests env) := built_negatedTests
  obtain ⟨n, names, hafter, hnames⟩ := hbuilt.forward c
  rw [hfail] at hafter
  have hknown : after.known = names ++ c.known := by
    rw [show after = (c.skip n).learn names from hafter]
    rfl
  refine ⟨⟨names, hknown, hnames⟩, wholeTests_eq h hfail, fun harguments => ?_⟩
  rw [hknown] at harguments
  rw [wholeTests_eq h hfail, hknown]
  exact ((plainTests_begins h).alike harguments).outcome_eq.symm

/-- The cursor before the tokens of a text. -/
def startOf (source : String) : Cursor :=
  match Token.scan source with
  | .ok lexemes => ⟨(Piece.ofLexemes lexemes []).1, 0, []⟩
  | .error _ => default

/-- A text with a name that is declared, and read behind its declaration only. -/
def declaredInside : Setting := ⟨"not(\x7ba b: 1\x7d.a b) + 1", false⟩

theorem wholeTests_of_failed_negation_declared :
    BeginsNegated (startOf declaredInside.source) ∧
      (∃ e after, (negatedTests declaredInside).run (startOf declaredInside.source) =
        .error e after ∧ after.known = ["a b"]) ∧
      outcome ((wholeTests declaredInside).run (startOf declaredInside.source)) =
        outcome ((plainTests declaredInside).run (startOf declaredInside.source)) := by
  have hbegins : BeginsNegated (startOf declaredInside.source) :=
    ⟨by decide +kernel, by decide +kernel⟩
  have hknown : (final ((negatedTests declaredInside).run (startOf declaredInside.source))).known =
    ["a b"] := by decide +kernel
  cases hfail : (negatedTests declaredInside).run (startOf declaredInside.source) with
  | ok tests after =>
    have hends : (outcome ((negatedTests declaredInside).run
      (startOf declaredInside.source))).isOk = false := by decide +kernel
    rw [hfail] at hends
    cases hends
  | error e after =>
    rw [hfail] at hknown
    refine ⟨hbegins, ⟨e, after, rfl, hknown⟩, (wholeTests_of_failed_negation hbegins hfail).2.2 ?_⟩
    rw [show after.known = ["a b"] from hknown]
    -- the arguments declare the name themselves, so that in the end it is known either way
    refine .of_forgetKnown rfl fun name => ?_
    rw [show (final ((arguments declaredInside _).run
      ((startOf declaredInside.source).skip 1))).known = ["a b"] by decide +kernel]
    rw [show (final _).known = ["a b", "a b"] by decide +kernel]
    simp

end Surface

end Feel
