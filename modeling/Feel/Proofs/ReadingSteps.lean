import Feel.Surface.Parser
import Mathlib.Data.List.Basic

/-!
# What reading is made of

Every rule for types, expressions and tests is put together from a few basic steps: looking at the
cursor, taking tokens, making a name known, and failing. So what these steps have in common holds
of all rules: they go forward over the tokens, they make names of several words known and forget
none, and of the known names only the members count, not their order.

* `Cursor.Like`: cursors that differ in the order of the known names only.
* `Parse.Built`: steps that are put together from the basic ones.
* `Parse.Built.forward`: such a step goes forward and only adds to the known names.
* `Parse.Built.alike`: from like cursors it gives the same.
* `TypeExpr.built_read`, `Surface.built_expressionWithin`, `Surface.built_positiveTests`: rules are
  built.
-/

namespace Feel

/-! ### Cursors -/

namespace Cursor

/-- Cursors at one place that know the same names. -/
structure Like (c d : Cursor) : Prop where
  rest : c.rest = d.rest
  last : c.last = d.last
  known : ∀ name, name ∈ c.known ↔ name ∈ d.known

theorem Like.refl (c : Cursor) : c.Like c := ⟨rfl, rfl, fun _ => Iff.rfl⟩

theorem Like.contains {c d : Cursor} (h : c.Like d) : c.known.contains = d.known.contains := by
  funext name
  rw [Bool.eq_iff_iff, List.contains_iff_mem, List.contains_iff_mem]
  exact h.known name

/-- The cursor behind the next `n` tokens. -/
def skip (n : Nat) (c : Cursor) : Cursor :=
  { c with rest := c.rest.drop n, last := ((c.rest.take n).getLast?.map (·.stop)).getD c.last }

theorem skip_skip (m n : Nat) (c : Cursor) : (c.skip m).skip n = c.skip (m + n) := by
  have hlast : ((c.rest.drop m).take n).getLast?.or (c.rest.take m).getLast? =
      (c.rest.take (m + n)).getLast? := by
    rw [List.take_add, List.getLast?_append]
  simp only [skip, List.drop_drop, Cursor.mk.injEq, true_and, and_true]
  rw [← hlast]
  cases ((c.rest.drop m).take n).getLast? <;> rfl

/-- A cursor that knows more names. -/
def learn (names : List String) (c : Cursor) : Cursor := { c with known := names ++ c.known }

end Cursor

namespace Parse

/-! ### Basic steps and what is built of them -/

/-- Steps that are put together from the basic ones. What is done with a cursor that was looked at
does not depend on the order of the known names. -/
inductive Built : {α : Type} → Parse α → Prop where
  | pure {α : Type} (a : α) : Built (Pure.pure a)
  | bind {α β : Type} {p : Parse α} {f : α → Parse β} :
    Built p → (∀ a, Built (f a)) → Built (p >>= f)
  | get {β : Type} {f : Cursor → Parse β} :
    (∀ c d : Cursor, c.Like d → f c = f d) → (∀ c, Built (f c)) → Built (MonadState.get >>= f)
  | throw {α : Type} (e : ParseError) : Built (throw e : Parse α)
  | consume (n : Nat) : Built (consume n)
  | remember (name : String) : Built (remember name)

/-- The cursor that a step leaves, also where it fails. -/
def final {α : Type} : EStateM.Result ParseError Cursor α → Cursor
  | .ok _ c => c
  | .error _ c => c

theorem run_consume (n : Nat) (c : Cursor) : (consume n).run c = .ok () (c.skip n) := rfl

theorem run_remember (name : String) (c : Cursor) :
    (Parse.remember name).run c =
      .ok () (if name.toList.contains ' ' = true then c.learn [name] else c) := by
  unfold Parse.remember
  split <;> rfl

namespace Built

variable {α β : Type} {p : Parse α} {f : α → Parse β} {env : Setting}

theorem ite {b : Prop} [Decidable b] {p q : Parse α} (hp : Built p) (hq : Built q) :
    Built (if b then p else q) := by
  split
  · exact hp
  · exact hq

theorem map {g : α → β} (h : Built p) : Built (g <$> p) := by
  rw [map_eq_pure_bind]
  exact .bind h fun a => .pure (g a)

/-- **Reading goes forward and forgets nothing.** A step leaves the cursor behind some of the
tokens; the names that it makes known have several words. -/
theorem forward (h : Built p) (c : Cursor) :
    ∃ n names, final (p.run c) = (c.skip n).learn names ∧ ∀ name ∈ names, ' ' ∈ name.toList := by
  induction h generalizing c with
  | pure a => exact ⟨0, [], rfl, by simp⟩
  | @bind α β p f _ _ ihp ihf =>
    obtain ⟨n, names, hn, hnames⟩ := ihp c
    rw [EStateM.run_bind]
    cases hrun : p.run c with
    | error e c' =>
      rw [hrun] at hn
      exact ⟨n, names, hn, hnames⟩
    | ok a c' =>
      rw [hrun] at hn
      obtain ⟨m, more, hm, hmore⟩ := ihf a c'
      refine ⟨n + m, more ++ names, ?_, fun name hname => ?_⟩
      · rw [← Cursor.skip_skip]
        refine hm.trans ?_
        rw [show c' = (c.skip n).learn names from hn]
        simp only [Cursor.learn, Cursor.skip, List.append_assoc]
      · rcases List.mem_append.mp hname with h | h
        · exact hmore name h
        · exact hnames name h
  | get _ _ ih => exact ih c c
  | throw e => exact ⟨0, [], rfl, by simp⟩
  | consume n => exact ⟨n, [], rfl, by simp⟩
  | remember name =>
    rw [run_remember]
    split
    · next hname => exact ⟨0, [name], rfl, by simpa using hname⟩
    · exact ⟨0, [], rfl, by simp⟩

end Built

/-- Outcomes that are the same, with like cursors. -/
inductive Alike {α : Type} : EStateM.Result ParseError Cursor α →
    EStateM.Result ParseError Cursor α → Prop where
  | ok {a : α} {c d : Cursor} : c.Like d → Alike (.ok a c) (.ok a d)
  | error {e : ParseError} {c d : Cursor} : c.Like d → Alike (.error e c) (.error e d)

namespace Built

variable {α : Type} {p : Parse α}

/-- **Of the known names only the members count.** From like cursors a step gives the same. -/
theorem alike (h : Built p) {c d : Cursor} (hcd : c.Like d) : Alike (p.run c) (p.run d) := by
  induction h generalizing c d with
  | pure a => exact .ok hcd
  | @bind α β p f _ _ ihp ihf =>
    rw [EStateM.run_bind, EStateM.run_bind]
    have hp := ihp hcd
    generalize p.run c = r at hp ⊢
    generalize p.run d = s at hp ⊢
    cases hp with
    | ok h => exact ihf _ h
    | error h => exact .error h
  | @get β f hf _ ih =>
    have hrun : (MonadState.get >>= f : Parse β).run d = (f c).run d := by rw [hf c d hcd]; rfl
    rw [hrun]
    exact ih c hcd
  | throw e => exact .error hcd
  | consume n =>
    rw [run_consume, run_consume]
    refine .ok ⟨?_, ?_, hcd.known⟩
    · rw [Cursor.skip, Cursor.skip, hcd.rest]
    · rw [Cursor.skip, Cursor.skip, hcd.rest, hcd.last]
  | remember name =>
    rw [run_remember, run_remember]
    split
    · refine .ok ⟨hcd.rest, hcd.last, fun other => ?_⟩
      simp only [Cursor.learn, List.mem_append, hcd.known]
    · exact .ok hcd

end Built

namespace Built

variable {α β : Type} {p : Parse α} {env : Setting}

/-! ### Tokens, names and items -/

theorem peek : Built peek := .get (fun c d h => by rw [h.rest]) fun _ => .pure _

theorem peekSecond : Built peekSecond := .get (fun c d h => by rw [h.rest]) fun _ => .pure _

theorem remaining : Built remaining := .get (fun c d h => by rw [h.rest]) fun _ => .pure _

theorem offset : Built (offset env) := .get (fun c d h => by rw [h.rest]) fun _ => .pure _

theorem leading : Built leading := .get (fun c d h => by rw [h.rest]) fun _ => .pure _

theorem isNext (s : Symbol) : Built (isNext s) := .bind peek fun _ => .pure _

theorem accept (t : Token) : Built (accept t) :=
  .bind peek fun _ => .ite (.bind (.consume 1) fun _ => .pure _) (.pure _)

theorem fail (fault : ParseFault) : Built (fail env fault : Parse α) :=
  .bind offset fun _ => .throw _

theorem failExpected (what : Expectation) : Built (failExpected env what : Parse α) :=
  .bind peek fun _ => fail _

theorem expect (t : Token) : Built (expect env t) :=
  .bind (accept t) fun _ => .ite (.pure _) (failExpected _)

theorem spanned (form : Form Surface) (start : Nat) : Built (spanned env form start) :=
  .get (fun c d h => by rw [h.last]) fun _ => .pure _

theorem moreItems (h : Built p) (n : Nat) (items : List α) : Built (moreItems p n items) := by
  induction n generalizing items with
  | zero => exact .pure _
  | succ n ih => exact .bind (accept _) fun _ => .ite (.bind h fun _ => ih _) (.pure _)

theorem commaSeparated (h : Built p) : Built (commaSeparated p) :=
  .bind h fun _ => .bind remaining fun _ => moreItems h _ _

theorem plainNames (n : Nat) (name : String) : Built (plainNames n name) := by
  induction n generalizing name with
  | zero => exact .pure _
  | succ n ih =>
    refine .bind peek fun t => ?_
    split
    · exact .bind (.consume 1) fun _ => ih _
    · exact .pure _

theorem readName : Built (readName env) := by
  refine .get (fun c d h => ?_) fun c => ?_
  · simp only [nameAhead, h.contains, h.rest]
  · split
    · exact failExpected _
    · exact .bind (.consume _) fun _ =>
        .ite (.bind remaining fun _ => plainNames _ _) (.pure _)

theorem binder (ends : Token → Bool) : Built (binder env ends) :=
  .get (fun c d h => by rw [h.rest]) fun _ =>
    .ite (failExpected _) (.bind (.consume _) fun _ => .pure _)

theorem wholeBinder : Built (wholeBinder env) := binder _

end Built

end Parse

/-! ### Types -/

namespace TypeExpr

open Parse

variable {env : Setting} {self : Parse TypeExpr}

theorem built_angleList {α : Type} {item : Parse α} (h : Built item) : Built (angleList item) :=
  .bind (.isNext _) fun _ => .ite (.pure _) (.commaSeparated h)

theorem built_field (h : Built self) : Built (field env self) :=
  .bind .wholeBinder fun _ => .bind (.expect _) fun _ => .bind h fun _ => .pure _

theorem built_functionRule (h : Built self) : Built (functionRule env self) :=
  .bind (.expect _) fun _ => .bind (built_angleList h) fun _ => .bind (.expect _) fun _ =>
    .bind (.expect _) fun _ => .bind h fun _ => .pure _

theorem built_rangeRule (h : Built self) : Built (rangeRule env self) :=
  .get (fun c d h => by rw [h.rest]) fun _ => .bind (.consume _) fun _ => .bind (.expect _) fun _ =>
    .bind h fun _ => .bind (.expect _) fun _ => .pure _

theorem built_namedRule : Built (namedRule env) := by
  refine .get (fun c d h => ?_) fun c => ?_
  · simp only [nameAhead, h.rest, congrFun h.contains]
  · dsimp only
    split
    · exact .failExpected _
    · exact .bind (.consume _) fun _ => .pure _

theorem built_rule (h : Built self) : Built (rule env self) := by
  refine .bind (.accept _) fun _ => .ite (built_functionRule h) ?_
  refine .bind (.accept _) fun _ => .ite (.pure _) ?_
  refine .get (fun c d h => by rw [h.rest]) fun c => ?_
  refine .bind .peek fun _ => .bind .peekSecond fun _ => ?_
  refine .ite (.bind (.consume _) fun _ => .bind h fun _ => .bind (.expect _) fun _ => .pure _) ?_
  refine .ite (.bind (.consume _) fun _ => .bind (built_angleList (built_field h)) fun _ =>
    .bind (.expect _) fun _ => .pure _) ?_
  exact .ite (.bind (.consume _) fun _ => built_rangeRule h) built_namedRule

theorem built_readWithin (n : Nat) : Built (readWithin env n) := by
  induction n with
  | zero => exact .failExpected _
  | succ n ih => exact built_rule ih

theorem built_read : Built (read env) := .bind .remaining fun _ => built_readWithin _

end TypeExpr

/-! ### Expressions -/

namespace Surface

open Parse

variable {env : Setting} {self : Rule} {closing : Bool}

/-! #### What stands alone -/

section Primary

variable (hself : ∀ closing, Built (self closing))
include hself

omit hself in
theorem built_intervalClose : Built (intervalClose env) := by
  refine .bind .peek fun _ => ?_
  split
  · exact .bind (.consume 1) fun _ => .pure _
  · exact .bind (.consume 1) fun _ => .pure _
  · exact .bind (.consume 1) fun _ => .pure _
  · exact .failExpected _

theorem built_intervalEnd (start : Surface) (si : Bool) :
    Built (intervalEnd env self start si) :=
  .bind (hself true) fun _ => .bind built_intervalClose fun _ => .pure _

theorem built_parenthesized : Built (parenthesized env self) :=
  .bind .offset fun _ => .bind .leading fun _ => .bind (.expect _) fun _ =>
    .bind (hself false) fun _ => .bind (.accept _) fun _ => .ite
      (.bind (built_intervalEnd hself _ _) fun _ => .bind (.spanned _ _) fun _ => .pure _)
      (.bind (.expect _) fun _ => .pure _)

theorem built_listOrInterval : Built (listOrInterval env self) :=
  .bind (.expect _) fun _ => .bind (.accept _) fun _ => .ite (.pure _) <|
    .bind (hself false) fun _ => .bind (.accept _) fun _ => .ite (built_intervalEnd hself _ _) <|
      .bind .remaining fun _ => .bind (.moreItems (hself false) _ _) fun _ =>
        .bind (.expect _) fun _ => .pure _

theorem built_openInterval : Built (openInterval env self) :=
  .bind (.expect _) fun _ => .bind (hself false) fun _ => .bind (.expect _) fun _ =>
    built_intervalEnd hself _ _

omit hself in
theorem built_entryKey : Built (entryKey env) := by
  refine .bind .peek fun _ => ?_
  split
  · exact .bind (.consume 1) fun _ => .pure _
  · exact .wholeBinder

theorem built_entry : Built (entry env self) :=
  .bind built_entryKey fun _ => .bind (.expect _) fun _ => .bind (.remember _) fun _ =>
    .bind (hself false) fun _ => .pure _

theorem built_contextForm : Built (contextForm env self) :=
  .bind (.expect _) fun _ => .bind (.accept _) fun _ => .ite (.pure _) <|
    .bind (.commaSeparated (built_entry hself)) fun _ => .bind (.expect _) fun _ => .pure _

omit hself in
theorem built_temporalForm : Built (temporalForm env) := by
  refine .bind (.expect _) fun _ => .bind .peek fun _ => ?_
  split
  · exact .bind (.consume 1) fun _ => .pure _
  · exact .failExpected _

omit hself in
theorem built_atom (form : Form Surface) : Built (atom form) :=
  .bind (.consume 1) fun _ => .pure _

theorem built_primaryForm : Built (primaryForm env self) := by
  refine .bind .peek fun _ => ?_
  split
  · exact built_atom _
  · exact built_atom _
  · exact built_atom _
  · exact built_atom _
  · exact built_atom _
  · exact built_atom _
  · exact built_temporalForm
  · exact .bind .readName fun _ => .pure _
  · exact built_listOrInterval hself
  · exact built_openInterval hself
  · exact built_contextForm hself
  · exact .fail _

/-! #### Textual forms -/

theorem built_conditional : Built (conditional env self closing) :=
  .bind (.consume 1) fun _ => .bind (hself _) fun _ => .bind (.expect _) fun _ =>
    .bind (hself _) fun _ => .bind (.expect _) fun _ => .bind (hself _) fun _ => .pure _

theorem built_iterator : Built (iterator env self closing) := by
  refine .bind (.binder _) fun _ => .bind (.expect _) fun _ => .bind (hself _) fun _ =>
    .bind (.accept _) fun _ => .ite ?_ ?_
  · exact .bind (.map (hself _)) fun _ => .bind (.remember _) fun _ => .pure _
  · exact .bind (.pure _) fun _ => .bind (.remember _) fun _ => .pure _

theorem built_iteration : Built (iteration env self closing) :=
  .bind (.consume 1) fun _ => .bind (.commaSeparated (built_iterator hself)) fun _ =>
    .bind (.expect _) fun _ => .bind (hself _) fun _ => .pure _

theorem built_quantification : Built (quantification env self closing) :=
  .bind .peek fun _ => .bind (.consume 1) fun _ =>
    .bind (.commaSeparated (built_iterator hself)) fun _ => .bind (.expect _) fun _ =>
      .bind (hself _) fun _ => .pure _

omit hself in
theorem built_param : Built (param env) := by
  refine .bind .wholeBinder fun _ => .bind (.accept _) fun _ => .ite ?_ ?_
  · exact .bind (.map TypeExpr.built_read) fun _ => .bind (.remember _) fun _ => .pure _
  · exact .bind (.pure _) fun _ => .bind (.remember _) fun _ => .pure _

theorem built_functionDefinition : Built (functionDefinition env self closing) := by
  refine .bind (.consume 1) fun _ => .bind (.expect _) fun _ => ?_
  refine .bind (.isNext _) fun _ => .ite ?_ ?_
  · exact .bind (.pure _) fun _ => .bind (.expect _) fun _ => .bind (hself _) fun _ => .pure _
  · exact .bind (.commaSeparated built_param) fun _ => .bind (.expect _) fun _ =>
      .bind (hself _) fun _ => .pure _

theorem built_textual : Built (textual env self closing) := by
  refine .bind .offset fun _ => .bind .leading fun _ => .bind .peek fun _ => ?_
  dsimp only
  split
  · exact .bind (built_conditional hself) fun _ => .bind (.spanned _ _) fun _ => .pure _
  · exact .bind (built_iteration hself) fun _ => .bind (.spanned _ _) fun _ => .pure _
  · exact .bind (built_functionDefinition hself) fun _ => .bind (.spanned _ _) fun _ => .pure _
  · exact .bind (built_quantification hself) fun _ => .bind (.spanned _ _) fun _ => .pure _

theorem built_primary : Built (primary env self) :=
  .bind .peek fun _ => .ite (built_parenthesized hself) <| .ite (built_textual hself) <|
    .bind .offset fun _ => .bind .leading fun _ => .bind (built_primaryForm hself) fun _ =>
      .bind (.spanned _ _) fun _ => .pure _

/-! #### Filters, paths and calls -/

theorem built_namedArgument : Built (namedArgument env self) :=
  .bind .wholeBinder fun _ => .bind (.expect _) fun _ => .bind (hself _) fun _ => .pure _

theorem built_arguments : Built (arguments env self) := by
  refine .bind (.expect _) fun _ => .bind (.accept _) fun _ => .ite (.pure _) ?_
  refine .get (fun c d h => by rw [h.rest]) fun c => .ite ?_ ?_
  · exact .bind (.map (.commaSeparated (built_namedArgument hself))) fun _ =>
      .bind (.expect _) fun _ => .pure _
  · exact .bind (.map (.commaSeparated (hself false))) fun _ => .bind (.expect _) fun _ => .pure _

theorem built_suffixes (start n : Nat) (inner : Surface) :
    Built (suffixes env self closing start n inner) := by
  induction n generalizing inner with
  | zero => exact .pure _
  | succ n ih =>
    refine .bind .peek fun _ => ?_
    split
    · exact .bind (.consume 1) fun _ => .bind .readName fun _ => .bind (.spanned _ _) fun _ => ih _
    · exact .ite (.pure _) <| .bind (.consume 1) fun _ => .bind (hself _) fun _ =>
        .bind (.expect _) fun _ => .bind (.spanned _ _) fun _ => ih _
    · exact .bind (built_arguments hself) fun _ => .bind (.spanned _ _) fun _ => ih _
    · exact .pure _

theorem built_withSuffixes (inner : Surface) : Built (withSuffixes env self closing inner) :=
  .bind .remaining fun _ => built_suffixes hself _ _ _

/-! #### Signs, operators and tests -/

theorem built_signed (n : Nat) : Built (signed env self closing n) := by
  have hplain : Built (primary env self >>= withSuffixes env self closing) :=
    .bind (built_primary hself) fun _ => built_withSuffixes hself _
  induction n with
  | zero => exact hplain
  | succ n ih =>
    refine .bind (.isNext _) fun _ => .ite (.bind .offset fun _ => .bind .leading fun _ =>
      .bind (.consume 1) fun _ => .bind .peek fun _ => ?_) hplain
    split
    · exact .bind .leading fun _ => .bind (.consume 1) fun _ => .bind (.spanned _ _) fun _ =>
        built_withSuffixes hself _
    · exact .bind ih fun _ => .bind (.spanned _ _) fun _ => .pure _

omit hself in
theorem built_chain (operator? : Token → Option Operator) {operand : Parse Surface}
    (h : Built operand) (n : Nat) (left : Surface) : Built (chain operator? operand n left) := by
  induction n generalizing left with
  | zero => exact .pure _
  | succ n ih =>
    refine .bind .peek fun _ => ?_
    split
    · exact .pure _
    · exact .bind (.consume 1) fun _ => .bind h fun _ => ih _

omit hself in
theorem built_leftAssociative (operator? : Token → Option Operator) {operand : Parse Surface}
    (h : Built operand) : Built (leftAssociative operator? operand) :=
  .bind h fun _ => .bind .remaining fun _ => built_chain _ h _ _

theorem built_unary : Built (unary env self closing) :=
  .bind .remaining fun _ => built_signed hself _

theorem built_power : Built (power env self closing) := built_leftAssociative _ (built_unary hself)

theorem built_product : Built (product env self closing) :=
  built_leftAssociative _ (built_power hself)

theorem built_sum : Built (sum env self closing) := built_leftAssociative _ (built_product hself)

theorem built_positiveTest : Built (positiveTest env self closing) := by
  refine .bind .offset fun _ => .bind .peek fun _ => .bind .peekSecond fun _ => .ite ?_ ?_
  · exact .bind (.consume 1) fun _ => .spanned _ _
  · split
    · exact .bind (.consume 1) fun _ => .bind (built_sum hself) fun _ => .spanned _ _
    · exact hself _

theorem built_inTests : Built (inTests env self closing) := by
  refine .bind (.isNext _) fun _ => .ite ?_ (.bind (built_positiveTest hself) fun _ => .pure _)
  refine .bind .offset fun _ => .bind (.consume 1) fun _ =>
    .bind (built_positiveTest hself) fun _ => .bind (.accept _) fun _ => .ite ?_ ?_
  · exact .bind (built_intervalEnd hself _ _) fun _ => .bind (.spanned _ _) fun _ => .pure _
  · exact .bind .remaining fun _ => .bind (.moreItems (built_positiveTest hself) _ _) fun _ =>
      .bind (.expect _) fun _ => .pure _

theorem built_comparisons (start n : Nat) (left : Surface) :
    Built (comparisons env self closing start n left) := by
  induction n generalizing left with
  | zero => exact .pure _
  | succ n ih =>
    refine .bind .peek fun _ => ?_
    split
    · exact .bind (.consume 1) fun _ => .bind (built_sum hself) fun _ => .bind (.expect _) fun _ =>
        .bind (built_sum hself) fun _ => .bind (.spanned _ _) fun _ => ih _
    · exact .bind (.consume 1) fun _ => .bind (built_inTests hself) fun _ =>
        .bind (.spanned _ _) fun _ => ih _
    · exact .bind (.consume 1) fun _ => .bind (.expect _) fun _ =>
        .bind TypeExpr.built_read fun _ => .bind (.spanned _ _) fun _ => ih _
    · split
      · exact .bind (.consume 1) fun _ => .bind (built_sum hself) fun _ => ih _
      · exact .pure _

theorem built_comparison : Built (comparison env self closing) :=
  .bind .offset fun _ => .bind (built_sum hself) fun _ => .bind .remaining fun _ =>
    built_comparisons hself _ _ _

theorem built_conjunction : Built (conjunction env self closing) :=
  built_leftAssociative _ (built_comparison hself)

theorem built_expressionRule : Built (expressionRule env self closing) :=
  .bind .peek fun _ => .ite (built_textual hself) <|
    built_leftAssociative _ (built_conjunction hself)

end Primary

/-! #### Whole expressions and tests -/

theorem built_expressionWithin (n : Nat) (closing : Bool) :
    Built (expressionWithin env n closing) := by
  induction n generalizing closing with
  | zero => exact .bind .peek fun _ => .fail _
  | succ n ih => exact built_expressionRule ih

theorem built_endOfText : Built (endOfText env) := by
  refine .bind .peek fun _ => ?_
  split
  · exact .pure _
  · exact .fail _

theorem built_positiveTests : Built (positiveTests env) :=
  .bind .remaining fun _ => .commaSeparated (built_positiveTest (built_expressionWithin _))

theorem built_negatedTests : Built (negatedTests env) :=
  .bind (.consume 2) fun _ => .bind built_positiveTests fun _ => .bind (.expect _) fun _ =>
    .bind built_endOfText fun _ => .pure _

end Surface

end Feel
