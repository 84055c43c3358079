import Feel.Proofs.Connectives
import Feel.Proofs.IntegerRounding

/-!
# Comparisons of integers

Two inputs are compared by their types: where both are integers of the machine their order is asked
of the binary64 numbers that are nearest to them, where nothing is known of them their order is
exact. Equality is exact always. So the order of typed inputs agrees with equality and with the
order of untyped inputs exactly where rounding keeps two integers apart, as it does up to `2 ^ 53`.

* `Program.ofTree_comparison`: the program that compares two inputs.
* `Program.compare_integers_iff`: where comparisons of integers agree.
-/

namespace Feel

/-- The kinds of integers. -/
def NumberKind.IsInteger (kind : NumberKind) : Prop := kind = .integer ∨ kind = .long

/-! ### Comparisons of values -/

/-- The four orders, equality and its negation. -/
def Operator.isComparison (op : Operator) : Bool := op.isOrdering || op.isEquality

/-- What a comparison of two values gives in a mode; equality knows no modes. -/
def Datum.compared {κ : Type} (op : Operator) (mode : CompareMode) (left right : Datum κ) :
    Datum κ :=
  if op.isOrdering then compareAs op mode left right else left.equality right (op == .ne)

namespace Datum

variable {κ : Type} {x y : Number} {m n : Int}

theorem equality_integers {op : Operator} (hop : op.isEquality = true) (hx : x.IsInteger m)
    (hy : y.IsInteger n) : equality (number x : Datum κ) (number y) (op == .ne) =
      boolean (op.holds (Ord.compare m n)) := by
  simp only [equality, equal, same, hx.equal hy]
  generalize Ord.compare m n = o
  cases op with
  | eq => cases o <;> rfl
  | ne => cases o <;> rfl
  | _ => cases hop

/-- Only orders are asked of the nearest numbers. -/
theorem compared_double {op : Operator} (hop : op.isComparison = true) (hx : x.IsInteger m)
    (hy : y.IsInteger n) : compared op .double (number x : Datum κ) (number y) =
      boolean (op.holds (if op.isOrdering then
        Ord.compare (Binary64.nearest m) (Binary64.nearest n) else Ord.compare m n)) := by
  unfold compared
  split
  · exact compareAs_double op hx hy
  · next hordering =>
    refine equality_integers ?_ hx hy
    simpa [Operator.isComparison, hordering] using hop

theorem compared_natural {op : Operator} (hop : op.isComparison = true) (hx : x.IsInteger m)
    (hy : y.IsInteger n) : compared op .natural (number x : Datum κ) (number y) =
      boolean (op.holds (Ord.compare m n)) := by
  unfold compared
  split
  · exact compareAs_natural op hx hy
  · next hordering =>
    refine equality_integers ?_ hx hy
    simpa [Operator.isComparison, hordering] using hop

end Datum

/-! ### Programs -/

namespace Fragment

/-- The code that compares two fields of the input. -/
theorem binary_inputFields (options : Options) {op : Operator} (hop : op.isComparison = true)
    {a b : String} (hne : a ≠ b) {ta tb : Ty} (hcomparable : ta.comparable tb = true) (span : Span)
    (d : Draft) :
    ∃ f : Fragment, binary options span op (computed (.inputField a) ta)
        (computed (.inputField b) tb) d = .ok (f, d) ∧
      (∀ pool precision, f.code.simplify pool precision = f.code) ∧
      ∀ m site frame, f.code.denote m site frame = .ok (Datum.compared op (compareMode ta tb)
        ((frame.input.get? a).getD .null) ((frame.input.get? b).getD .null)) := by
  have hsame : Code.same (.inputField a) (.inputField b) = false := by
    simpa [Code.same] using hne
  have hknown : operands? options (computed (.inputField a) ta) (computed (.inputField b) tb) =
      none := by
    unfold operands? value? computed
    cases options.folding <;> rfl
  cases hordering : op.isOrdering with
  | true =>
    refine ⟨computed (.compare op (compareMode ta tb) (.inputField a) (.inputField b)) .boolean,
      ?_, fun pool precision => rfl, fun m site frame => ?_⟩
    · have hequality : op.isEquality = false := by cases op <;> first | rfl | cases hordering
      have hlogic : op.isLogic = false := by cases op <;> first | rfl | cases hordering
      have hresult : op.resultType ta tb = .boolean := by
        simp [Operator.resultType, hequality, hlogic, hordering, hcomparable]
      have hrule : outcome? options op (computed (.inputField a) ta) (computed (.inputField b) tb) =
          some (comparison options op (computed (.inputField a) ta)
            (computed (.inputField b) tb)) := by
        simp [outcome?, hequality, hlogic, hordering, hresult, computed, Ty.isBoolean]
      rw [binary, hrule, comparison, hknown]
      rfl
    · rw [Datum.compared, if_pos hordering]
      rfl
  | false =>
    have hequality : op.isEquality = true := by
      rwa [Operator.isComparison, hordering, Bool.false_or] at hop
    refine ⟨(computed (.equal (equalMode (computed (.inputField a) ta)
      (computed (.inputField b) tb)) (op == .ne) (.inputField a) (.inputField b)) .boolean).nonNull,
      ?_, fun pool precision => rfl, fun m site frame => ?_⟩
    · have hrule : outcome? options op (computed (.inputField a) ta) (computed (.inputField b) tb) =
          some (equality options op (computed (.inputField a) ta)
            (computed (.inputField b) tb)) := if_pos hequality
      rw [binary, hrule, equality, hknown]
      simp only [computed, hsame, Bool.and_false]
      rfl
    · rw [Datum.compared, if_neg (by rw [hordering]; decide)]
      rfl

end Fragment

namespace Program

variable {S : Scope}

/-- The tree of a comparison of two names. -/
def namesTree (op : Operator) (a b : String) (spans : Span × Span × Span)
    (comments : List String × List String × List String) : Surface :=
  .node (.binary op (.node (.name a) spans.1 comments.1) (.node (.name b) spans.2.1 comments.2.1))
    spans.2.2 comments.2.2

/-- **The program that compares two inputs** gives what the types of the inputs make of the
comparison. -/
theorem ofTree_comparison (source : String) {op : Operator} (hop : op.isComparison = true)
    {a b : String} (hne : a ≠ b) {ra rb : Reference} (ha : S.resolve? a = some ra) (hb : S.resolve? b = some rb)
    (hra : ra.origin = .input ∨ ra.origin = .dynamic)
    (hrb : rb.origin = .input ∨ rb.origin = .dynamic)
    (hcomparable : ra.type.comparable rb.type = true)
    (spans : Span × Span × Span) (comments : List String × List String × List String) :
    ∃ p, ofTree {} S source (namesTree op a b spans comments) = .ok p ∧
      ∀ natives input test, p.run natives input test = .ok (Datum.compared op
        (Fragment.compareMode ra.type rb.type) ((input.get? a).getD .null)
          ((input.get? b).getD .null)) := by
  obtain ⟨warnings, hterm⟩ : ∃ warnings, Term.ofSurface source (namesTree op a b spans comments) S =
      .ok (.node (.binary op (.node (.name a ra.origin) ra.type spans.1 comments.1 [])
        (.node (.name b rb.origin) rb.type spans.2.1 comments.2.1 []))
        (op.resultType ra.type rb.type) spans.2.2 comments.2.2 warnings) := by
    simp only [namesTree, Term.ofSurface, Term.ofForm, Elaboration.binary, Elaboration.name, ha, hb]
    exact ⟨_, rfl⟩
  have hfield : ∀ {ref : Reference} (name : String) (span : Span) (comments : List String)
      (d : Draft), ref.origin = .input ∨ ref.origin = .dynamic →
        Fragment.ofTerm (.node (.name name ref.origin) ref.type span comments []) S d =
          .ok (.computed (.inputField name) ref.type, d) := by
    rintro ⟨type, origin⟩ name span comments d (rfl | rfl) <;> rfl
  generalize hshape : Shape.binary op _ _ = shape at hterm
  let term : Term := .node shape (op.resultType ra.type rb.type) spans.2.2 comments.2.2 warnings
  let d : Draft := Draft.warn {} term.warnings
  obtain ⟨f, hf, hsimplify, hruns⟩ := Fragment.binary_inputFields S.options hop hne hcomparable
    spans.2.2 d
  have hlowered : Fragment.ofTerm term S d = .ok (f, d) := by
    subst hshape
    exact bind_eq_ok.mpr ⟨_, hfield a _ _ d hra, bind_eq_ok.mpr ⟨_, hfield b _ _ d hrb, hf⟩⟩
  refine ⟨ofFragment {} .expression source none S.options f d, ?_, fun natives input test => ?_⟩
  · exact bind_eq_ok.mpr ⟨term, hterm, bind_eq_ok.mpr ⟨(f, d), hlowered, rfl⟩⟩
  · have hroot : (ofFragment {} .expression source none S.options f d).root = f.code := by
      dsimp only [ofFragment]
      rw [hsimplify, ite_self]
    rw [run, hroot]
    exact hruns _ [] _

/-- The text that compares the inputs `a` and `b`. -/
def comparisonText (op : Operator) : String := "a " ++ op.symbol ++ " b"

/-- What the comparison of `a` and `b` gives, compiled over an input of a type. -/
def comparisonResult (type : Ty) (op : Operator) (natives : Natives) (input : Value)
    (test : Option Value) : Option Value :=
  (ofExpression {} (inputScope type) (comparisonText op)).toOption.bind fun p =>
    (p.run natives input test).toOption

/-- Whether a tree is that of a comparison of two names. -/
def isNamesTree (op : Operator) (a b : String) : Surface → Bool
  | .node (.binary op' (.node (.name a') _ _) (.node (.name b') _ _)) _ _ =>
    op' == op && a' == a && b' == b
  | _ => false

theorem eq_namesTree {op : Operator} {a b : String} {tree : Surface}
    (h : isNamesTree op a b tree = true) :
    ∃ spans comments, tree = namesTree op a b spans comments := by
  unfold isNamesTree at h
  split at h
  · next sa ca _ sb cb span cs =>
    simp only [Bool.and_eq_true, beq_iff_eq] at h
    obtain ⟨⟨rfl, rfl⟩, rfl⟩ := h
    exact ⟨(sa, sb, span), (ca, cb, cs), rfl⟩
  · cases h

/-- The texts are read as comparisons, whether their names are known or not. -/
theorem parse_comparisonText {op : Operator} (hop : op.isComparison = true) :
    ∀ known ∈ [(inputScope .any).knownNames,
        (inputScope (.context [("a", .any), ("b", .any)])).knownNames],
      ∃ spans comments, Surface.parseExpression (comparisonText op) known =
        .ok (namesTree op "a" "b" spans comments) := by
  have hall : ∀ op ∈ Operator.all.filter Operator.isComparison, ∀ known ∈
      [(inputScope .any).knownNames, (inputScope (.context [("a", .any), ("b", .any)])).knownNames],
      (Surface.parseExpression (comparisonText op) known).toOption.any (isNamesTree op "a" "b") =
        true := by
    decide +kernel
  intro known hknown
  have hparsed := hall op (List.mem_filter.mpr ⟨op.mem_all, hop⟩) known hknown
  cases htree : Surface.parseExpression (comparisonText op) known with
  | error e =>
    rw [htree] at hparsed
    cases hparsed
  | ok tree =>
    rw [htree] at hparsed
    obtain ⟨spans, comments, rfl⟩ := eq_namesTree hparsed
    exact ⟨spans, comments, rfl⟩

/-- The result of the program that compares two inputs. -/
theorem comparisonResult_eq {type : Ty} {op : Operator} (hop : op.isComparison = true)
    (hknown : (inputScope type).knownNames ∈ [(inputScope .any).knownNames,
      (inputScope (.context [("a", .any), ("b", .any)])).knownNames])
    {ra rb : Reference} (ha : (inputScope type).resolve? "a" = some ra)
    (hb : (inputScope type).resolve? "b" = some rb)
    (hra : ra.origin = .input ∨ ra.origin = .dynamic)
    (hrb : rb.origin = .input ∨ rb.origin = .dynamic)
    (hcomparable : ra.type.comparable rb.type = true) (natives : Natives) (v w : Value)
    (test : Option Value) :
    comparisonResult type op natives (.context [("a", v), ("b", w)]) test =
      some (Datum.compared op (Fragment.compareMode ra.type rb.type) v w) := by
  obtain ⟨spans, comments, hparse⟩ := parse_comparisonText hop _ hknown
  obtain ⟨p, hp, hruns⟩ := ofTree_comparison (comparisonText op) hop (by decide) ha hb
    hra hrb hcomparable spans comments
  rw [← ofExpression_eq_ofTree hparse] at hp
  rw [comparisonResult, hp]
  exact congrArg Except.toOption (hruns natives _ test)

/-- Exactly one of three statements holds. -/
def ExactlyOne (p q r : Prop) : Prop := p ∧ ¬ q ∧ ¬ r ∨ ¬ p ∧ q ∧ ¬ r ∨ ¬ p ∧ ¬ q ∧ r

/-- An order that agrees with another one or takes everything for equal makes the comparisons fit
together exactly where it agrees. -/
theorem comparisons_iff {o c : Ordering} (h : o = c ∨ o = .eq) :
    (ExactlyOne (o.isLT = true) (c.isEq = true) (o.isGT = true) ↔ o = c) ∧
      ((o.isLE = true ↔ o.isLT = true ∨ c.isEq = true) ↔ o = c) ∧
      ((∀ op : Operator, op.isComparison = true →
        op.holds (if op.isOrdering then o else c) = op.holds c) ↔ o = c) := by
  refine ⟨?_, ?_, ?_⟩
  · rcases h with rfl | rfl
    · cases o <;> simp [ExactlyOne]
    · cases c <;> simp [ExactlyOne]
  · rcases h with rfl | rfl
    · cases o <;> simp
    · cases c <;> simp
  · constructor
    · intro hagree
      rcases h with rfl | rfl
      · rfl
      · cases c with
        | lt => cases hagree .lt rfl
        | eq => rfl
        | gt => cases hagree .gt rfl
    · rintro rfl op -
      rw [ite_self]

open Binary64 (nearest)

/-- **Comparisons of integers.** Two inputs of integer types are ordered as the binary64 numbers
nearest to them, but for equality and for inputs of no known type the integers count. So exactly one
of `a < b`, `a = b` and `a > b` holds, `a <= b` holds where one of the first two does, and the types
make no difference, each exactly where the integers are equal or rounded to different numbers. Up to
`2 ^ 53` they are. -/
theorem compare_integers_iff {ka kb : NumberKind} (hka : ka.IsInteger) (hkb : kb.IsInteger)
    {x y : Number} {m n : Int} (hx : x.IsInteger m) (hy : y.IsInteger n) (natives : Natives)
    (test : Option Value) :
    let input : Value := .context [("a", .number x), ("b", .number y)]
    let typed (op : Operator) : Option Value := comparisonResult
      (.context [("a", .number ka), ("b", .number kb)]) op natives input test
    let untyped (op : Operator) : Option Value := comparisonResult .any op natives input test
    let yes : Option Value := some (.boolean true)
    let apart : Prop := m = n ∨ nearest m ≠ nearest n
    (∀ op, op.isComparison = true →
      typed op = some (.boolean (op.holds
        (if op.isOrdering then compare (nearest m) (nearest n) else compare m n))) ∧
      untyped op = some (.boolean (op.holds (compare m n)))) ∧
    (ExactlyOne (typed .lt = yes) (typed .eq = yes) (typed .gt = yes) ↔ apart) ∧
    ((typed .le = yes ↔ typed .lt = yes ∨ typed .eq = yes) ↔ apart) ∧
    ((∀ op, op.isComparison = true → typed op = untyped op) ↔ apart) ∧
    (m.natAbs ≤ 2 ^ 53 → n.natAbs ≤ 2 ^ 53 → apart) := by
  intro input typed untyped yes apart
  have hresults : ∀ op, op.isComparison = true →
      typed op = some (.boolean (op.holds
        (if op.isOrdering then compare (nearest m) (nearest n) else compare m n))) ∧
      untyped op = some (.boolean (op.holds (compare m n))) := by
    intro op hop
    have hdouble : Fragment.compareMode (.number ka) (.number kb) = .double := by
      rcases hka with rfl | rfl <;> rcases hkb with rfl | rfl <;> rfl
    have hknown : (inputScope (.context [("a", .number ka), ("b", .number kb)])).knownNames ∈
        [(inputScope .any).knownNames,
          (inputScope (.context [("a", .any), ("b", .any)])).knownNames] := .tail _ (.head _)
    have htyped : typed op = some (Datum.compared op
        (Fragment.compareMode (.number ka) (.number kb)) (.number x) (.number y)) :=
      comparisonResult_eq hop hknown rfl rfl (.inl rfl) (.inl rfl) rfl natives _ _ test
    have huntyped : untyped op = some (Datum.compared op .natural (.number x) (.number y)) :=
      comparisonResult_eq hop (.head _) rfl rfl (.inr rfl) (.inr rfl) rfl natives _ _ test
    rw [hdouble, Datum.compared_double hop hx hy] at htyped
    rw [Datum.compared_natural hop hx hy] at huntyped
    exact ⟨htyped, huntyped⟩
  have hiff : ∀ {b : Bool}, some (Datum.boolean b : Value) = yes ↔ b = true := by
    intro b
    simp [yes]
  have hapart : compare (nearest m) (nearest n) = compare m n ↔ apart :=
    Binary64.compare_nearest_eq_iff
  obtain ⟨hone, hle, hall⟩ := comparisons_iff (Binary64.compare_nearest m n)
  refine ⟨hresults, ?_, ?_, ?_, fun hm hn => ?_⟩
  · rw [(hresults .lt rfl).1, (hresults .eq rfl).1, (hresults .gt rfl).1, hiff, hiff, hiff,
      ← hapart]
    exact hone
  · rw [(hresults .le rfl).1, (hresults .lt rfl).1, (hresults .eq rfl).1, hiff, hiff, hiff,
      ← hapart]
    exact hle
  · rw [← hapart, ← hall]
    refine forall₂_congr fun op hop => ?_
    rw [(hresults op hop).1, (hresults op hop).2, Option.some.injEq, Datum.boolean.injEq]
  · rw [← hapart, Binary64.nearest_of_natAbs_le hm, Binary64.nearest_of_natAbs_le hn]

/-- Next to `2 ^ 53` there is no binary64 number for the integer above it: as integers the two are
neither less nor equal nor greater, though the first is at most the second. Without the types it is
less. -/
theorem compare_integers_iff_adjacent :
    let a : Number := .long 9007199254740992
    let b : Number := .long 9007199254740993
    let gives (type : Ty) (op : Operator) (yes : Bool) : Prop :=
      comparisonResult type op (fun _ _ => .null) (.context [("a", .number a), ("b", .number b)])
        none = some (.boolean yes)
    let longs : Ty := .context [("a", .number .long), ("b", .number .long)]
    (NumberKind.long.IsInteger ∧ a.IsInteger 9007199254740992 ∧ b.IsInteger 9007199254740993) ∧
      (gives longs .lt false ∧ gives longs .eq false ∧ gives longs .gt false ∧
        gives longs .le true) ∧
      gives .any .lt true := by
  intro a b gives longs
  have hlong : NumberKind.long.IsInteger := .inr rfl
  have ha : a.IsInteger 9007199254740992 := .long _
  have hb : b.IsInteger 9007199254740993 := .long _
  obtain ⟨hresults, -⟩ := compare_integers_iff hlong hlong ha hb (fun _ _ => .null) none
  exact ⟨⟨hlong, ha, hb⟩, ⟨(hresults .lt rfl).1, (hresults .eq rfl).1, (hresults .gt rfl).1,
    (hresults .le rfl).1⟩, (hresults .lt rfl).2⟩

end Program

end Feel
