import Feel.Proofs.Connectives
import Feel.Proofs.Powers
import Feel.Proofs.TypeTexts

/-!
# Literals of integers

The text of an integer is its digits, with a sign before them if it is negative. It is read as one
literal, sign included, and compiled to a constant. But the representation is chosen for the digits
alone and the sign is applied to the number they denote, so the two integers that only the negative
side of a representation holds come out one representation wider.

* `Decimal.parse?_of_digits`, `Number.parse?_repr`: the number of digits.
* `Number.ofLiteral`: the number of the literal of an integer.
* `Surface.parseExpression_integer`: the text of an integer is read as one literal.
* `Program.ofExpression_integer`: the constant that it is compiled to.
-/

namespace Feel

/-! ### Digits -/

namespace Decimal

variable {cs : List Char}

theorem parseDigits?_of_digits (h : ∀ c ∈ cs, c.isDigit = true) (n : ℕ) :
    parseDigits? cs n = some (Nat.ofDigitChars 10 cs n) := by
  induction cs generalizing n with
  | nil => rfl
  | cons c cs ih =>
    obtain ⟨hc, hcs⟩ := List.forall_mem_cons.mp h
    have hgroup : c ≠ '_' := by
      rintro rfl
      exact absurd hc (by decide)
    rw [parseDigits?.eq_3 _ _ _ hgroup, digitValue?, if_pos hc, Option.bind_some, ih hcs,
      Nat.ofDigitChars_cons, Nat.mul_comm]

theorem splitAtFirst_of_forall {p : Char → Bool} (h : ∀ c ∈ cs, p c = false) :
    splitAtFirst p cs = (cs, none) := by
  have hrest : cs.dropWhile (!p ·) = [] :=
    List.dropWhile_eq_nil_iff.mpr fun c hc => by rw [h c hc, Bool.not_false]
  rw [splitAtFirst, hrest]

theorem splitAtFirst_of_digits {p : Char → Bool} (hp : ∀ c, c.isDigit = true → p c = false)
    (h : ∀ c ∈ cs, c.isDigit = true) : splitAtFirst p cs = (cs, none) :=
  splitAtFirst_of_forall fun c hc => hp c (h c hc)

theorem parseInt?_of_digits (hne : cs ≠ []) (h : ∀ c ∈ cs, c.isDigit = true) :
    parseInt? cs = some (Nat.ofDigitChars 10 cs 0 : ℕ) := by
  have hdigits := parseDigits?_of_digits h 0
  cases cs with
  | nil => exact absurd rfl hne
  | cons c cs =>
    have hc := (List.forall_mem_cons.mp h).1
    have hother {d : Char} (hd : d.isDigit = false) : c ≠ d := by
      rintro rfl
      rw [hd] at hc
      cases hc
    have hnat : parseNat? (c :: cs) = some (Nat.ofDigitChars 10 (c :: cs) 0) := by
      unfold parseNat?
      split
      · next heq => exact absurd (List.cons.inj heq).1 (hother (by decide))
      · dsimp only
        split
        · next heq => cases heq
        · next heq => exact absurd (List.cons.inj heq).1 (hother (by decide))
        · exact hdigits
    unfold parseInt?
    split
    · next heq => exact absurd (List.cons.inj heq).1 (hother (by decide))
    · next heq => exact absurd (List.cons.inj heq).1 (hother (by decide))
    · rw [hnat]
      rfl

/-- Digits have no point and no exponent. -/
theorem parse?_of_digits {text : String} (hne : text.toList ≠ [])
    (h : ∀ c ∈ text.toList, c.isDigit = true) :
    parse? text = some (ofInt (Nat.ofDigitChars 10 text.toList 0 : ℕ)) := by
  have hmark : ∀ c : Char, c.isDigit = true → (c == 'e' || c == 'E') = false := by
    intro c hc
    by_contra hmark
    simp only [Bool.not_eq_false, Bool.or_eq_true, beq_iff_eq] at hmark
    rcases hmark with rfl | rfl <;> exact absurd hc (by decide)
  have hpoint : ∀ c : Char, c.isDigit = true → (c == '.') = false := by
    intro c hc
    by_contra hpoint
    simp only [Bool.not_eq_false, beq_iff_eq] at hpoint
    rw [hpoint] at hc
    exact absurd hc (by decide)
  have hempty : text.toList.isEmpty = false := by simpa using hne
  unfold parse?
  rw [splitAtFirst_of_digits hmark h]
  simp only [splitAtFirst_of_digits hpoint h, hempty, Option.getD_none, List.append_nil,
    parseInt?_of_digits hne h]
  rfl

end Decimal

/-! ### Numbers of literals -/

namespace Number

theorem digits_repr (m : ℕ) :
    m.repr.toList ≠ [] ∧ (∀ c ∈ m.repr.toList, c.isDigit = true) ∧
      Nat.ofDigitChars 10 m.repr.toList 0 = m := by
  rw [Nat.toList_repr]
  exact ⟨Nat.toDigits_ne_nil, fun c hc => Nat.isDigit_of_mem_toDigits (by decide) (by decide) hc,
    Nat.ofDigitChars_ten_toDigits⟩

/-- Digits denote a number in the narrowest representation that holds it. -/
theorem parse?_repr (m : ℕ) : parse? m.repr = some (ofInt m) := by
  obtain ⟨hne, hall, hvalue⟩ := digits_repr m
  have hwhole : (m.repr.toList.all Char.isDigit && !m.repr.toList.isEmpty) = true := by
    rw [Bool.and_eq_true, List.all_eq_true]
    exact ⟨hall, by simp⟩
  rw [parse?, if_pos hwhole, Decimal.parseDigits?_of_digits hall, Decimal.parse?_of_digits hne hall,
    hvalue, Option.bind_some, ofInt, ofIntLong]
  cases int32? (m : ℤ) with
  | some i => rfl
  | none => cases int64? (m : ℤ) <;> rfl

/-- An integer in a representation that holds it; decimals hold all. -/
def ofIntAs (k : NumberKind) (n : ℤ) : Number :=
  match k with
  | .integer => integer (Int32.ofInt n)
  | .long => long (Int64.ofInt n)
  | _ => decimal (Decimal.ofInt n)

theorem ofIntLong_eq {n : ℤ} (h : -2 ^ 63 ≤ n ∧ n < 2 ^ 63) : ofIntLong n = ofIntAs .long n := by
  rw [ofIntLong, int64?, if_pos (by omega)]
  rfl

theorem ofInt_eq (n : ℤ) : ofInt n = ofIntAs (narrowest n) n := by
  unfold narrowest
  split_ifs with hint hlong
  · rw [ofInt, int32?, if_pos (by omega)]
    rfl
  · rw [ofInt, int32?, if_neg (by omega)]
    exact ofIntLong_eq hlong
  · rw [ofInt, int32?, if_neg (by omega)]
    show ofIntLong n = decimal (Decimal.ofInt n)
    rw [ofIntLong, int64?, if_neg (by omega)]

theorem narrowest_cases (n : ℤ) :
    narrowest n = .integer ∨ narrowest n = .long ∨ narrowest n = .decimal := by
  unfold narrowest
  split_ifs <;> simp

theorem kind_ofIntAs (n v : ℤ) : (ofIntAs (narrowest v) n).kind = narrowest v := by
  rcases narrowest_cases v with h | h | h <;> rw [h] <;> rfl

/-- The number of the literal of an integer: the sign is applied to the number of the digits. -/
def ofLiteral (n : ℤ) : Number := if n < 0 then (ofInt n.natAbs).neg else ofInt n.natAbs

/-- The representation of a literal is that of its digits. Below zero, what fits there is symmetric,
so that the number of the literal fits as well. -/
theorem ofLiteral_eq (n : ℤ) : ofLiteral n = ofIntAs (narrowest n.natAbs) n := by
  rw [ofLiteral, ofInt_eq]
  split
  · next hneg =>
    have habs : (n.natAbs : ℤ) = -n := by omega
    rw [habs]
    unfold narrowest
    split_ifs with hint hlong
    · have htoInt : (Int32.ofInt (-n)).toInt = -n :=
        Int32.toInt_ofInt_of_le (by omega) (by omega)
      have hnarrow : narrowest n = .integer := if_pos (by omega)
      rw [ofIntAs, neg, htoInt, neg_neg, ofInt_eq, hnarrow]
    · have htoInt : (Int64.ofInt (-n)).toInt = -n :=
        Int64.toInt_ofInt_of_le (by omega) (by omega)
      rw [ofIntAs, neg, htoInt, neg_neg, ofIntLong_eq (by omega)]
    · show decimal (Decimal.ofInt (-n)).neg = decimal (Decimal.ofInt n)
      rw [Decimal.neg, Decimal.ofInt, neg_neg]
      rfl
  · next hnonneg => rw [show (n.natAbs : ℤ) = n by omega]

/-- Two integers have digits that only a wider representation holds. -/
theorem narrowest_natAbs_iff (n : ℤ) :
    narrowest n.natAbs = narrowest n ↔ n ≠ -2 ^ 31 ∧ n ≠ -2 ^ 63 := by
  unfold narrowest
  split_ifs <;> simp only [true_iff, false_iff, ne_eq] <;> omega

theorem value_ofIntAs_narrowest (n : ℤ) :
    (ofIntAs (narrowest n.natAbs) n).value? = some (n : ℚ) := by
  unfold narrowest
  split_ifs with hint hlong
  · rw [ofIntAs, value?, Int32.toInt_ofInt_of_le (by omega) (by omega)]
  · rw [ofIntAs, value?, Int64.toInt_ofInt_of_le (by omega) (by omega)]
  · exact congrArg some (Decimal.value_ofInt n)

end Number

/-! ### The text of an integer -/

/-- The tokens of the text of an integer. -/
def Token.ofInteger : ℤ → List Token
  | .ofNat m => [.number m.repr]
  | .negSucc m => [.symbol .minus, .number (m + 1).repr]

theorem Token.scanned_integer (n : ℤ) : Scanned (toString n).toList (ofInteger n) := by
  have hnumeral (m : ℕ) : isNumeral m.repr = true := by
    obtain ⟨hne, hall, -⟩ := Number.digits_repr m
    have hend : m.repr.toList.dropWhile Char.isDigit = [] := List.dropWhile_eq_nil_iff.mpr hall
    rw [isNumeral, hend]
    cases hcs : m.repr.toList with
    | nil => exact absurd hcs hne
    | cons c cs =>
      have hc := hall c (by rw [hcs]; exact List.mem_cons_self)
      simp [hc, isNumeralEnd, isExponent]
  have hdigits (m : ℕ) : Scanned m.repr.toList [.number m.repr] := by
    have hnext : next (m.repr.toList ++ []) = .ok (.number m.repr, []) :=
      next_written (t := .number m.repr) (hnumeral m) rfl
    rw [List.append_nil] at hnext
    refine .next hnext ?_ (by simp) .nil
    have hhead := (Bool.and_eq_true_iff.mp (hnumeral m)).1
    by_contra hseparator
    simp only [isSeparator, Bool.not_eq_false, Bool.or_eq_true, beq_iff_eq] at hseparator
    rcases hseparator with ((h | h) | h) | h <;> rw [h] at hhead <;> exact absurd hhead (by decide)
  cases n with
  | ofNat m => exact hdigits m
  | negSucc m =>
    have htext : (toString (Int.negSucc m)).toList = '-' :: (m + 1).repr.toList :=
      String.toList_append
    rw [htext]
    refine .next ?_ rfl (by simp) (hdigits (m + 1))
    obtain ⟨hne, hall, -⟩ := Number.digits_repr (m + 1)
    cases hcs : (m + 1).repr.toList with
    | nil => exact absurd hcs hne
    | cons c cs =>
      have hc := hall c (by rw [hcs]; exact List.mem_cons_self)
      -- of the symbols of two characters only the arrow begins like a sign
      have harrow : ('>' == c) = false := by
        rw [beq_eq_false_iff_ne]
        rintro rfl
        exact absurd hc (by decide)
      have hprefix : (fun u : Symbol => u.text.toList.isPrefixOf ('-' :: c :: cs)) =
          (· == .minus) := by
        funext u
        cases u
        case arrow => simp [Symbol.text, List.isPrefixOf, harrow]
        all_goals rfl
      refine next_of_scanSymbol (by decide) ?_
      rw [scanSymbol?, hprefix]
      rfl

namespace Surface

open Parse

variable {env : Setting} {names : List String} {self : Rule} {closing : Bool} {n : ℤ}

/-- Nothing stands behind an expression at the end of a text. -/
theorem withSuffixes_end (inner : Surface) :
    Reads (withSuffixes env self closing inner) [] [] (· = inner) names :=
  Reads.remaining.next (.pure rfl)

/-- The sign of an integer and its digits are one literal. -/
theorem unary_integer : Reads (unary env self closing) (Token.ofInteger n) []
    (fun s => ∃ span, s = .plain (.number (toString n)) span) names := by
  cases n with
  | ofNat m =>
    have hform : Reads (primaryForm env self) [.number m.repr] [] (· = .number m.repr) names :=
      Reads.peek.next ((Reads.consume 1).next (.pure rfl))
    have hprimary : Reads (primary env self) [.number m.repr] []
        (fun s => ∃ span, s = .plain (.number m.repr) span) names := by
      refine Reads.peek.next ?_
      rw [if_neg (by simp), if_neg (by simp [beginsTextual])]
      refine Reads.offset.bind fun start _ => Reads.leading.next (hform.next ?_)
      refine (Reads.spanned _ start).bind fun s hs => .pure ?_
      obtain ⟨span, rfl⟩ := hs
      exact ⟨span, rfl⟩
    refine Reads.remaining.next ((Reads.isNext .minus).next ?_)
    rw [if_neg (by simp [Token.ofInteger])]
    exact hprimary.bind fun inner hinner => (withSuffixes_end inner).imp fun s hs => hs ▸ hinner
  | negSucc m =>
    refine Reads.remaining.next ((Reads.isNext .minus).next ?_)
    rw [if_pos (by rfl)]
    refine Reads.offset.bind fun start _ => Reads.leading.next ((Reads.consume 1).next ?_)
    refine Reads.peek.next (Reads.leading.next ((Reads.consume 1).next ?_))
    refine (Reads.spanned _ start).bind fun s hs => ?_
    obtain ⟨span, rfl⟩ := hs
    exact (withSuffixes_end _).imp fun s hs => ⟨span, hs⟩

theorem wholeExpression_integer (env : Setting) :
    Reads (wholeExpression env []) (Token.ofInteger n) []
      (fun s => ∃ span, s = .plain (.number (toString n)) span) names := by
  have hsum (self : Rule) : Reads (sum env self false) (Token.ofInteger n) []
      (fun s => ∃ span, s = .plain (.number (toString n)) span) names :=
    leftAssociative_stops (leftAssociative_stops (leftAssociative_stops unary_integer rfl) rfl) rfl
  have hcomparison (self : Rule) : Reads (comparison env self false) (Token.ofInteger n) []
      (fun s => ∃ span, s = .plain (.number (toString n)) span) names :=
    Reads.offset.bind fun start _ => (hsum self).bind fun left hleft =>
      Reads.remaining.next (.pure hleft)
  have hrule (self : Rule) : Reads (expressionRule env self false) (Token.ofInteger n) []
      (fun s => ∃ span, s = .plain (.number (toString n)) span) names := by
    refine Reads.peek.next ?_
    rw [if_neg (by cases n <;> simp [Token.ofInteger, beginsTextual])]
    exact leftAssociative_stops (leftAssociative_stops (hcomparison self) rfl) rfl
  have hend : Reads (endOfText env) [] [] (· = ()) names := Reads.peek.next (.pure rfl)
  refine Reads.bind (Reads.remaining.next (hrule _)) fun s hs => hend.next (.pure ?_)
  obtain ⟨span, rfl⟩ := hs
  exact ⟨span, rfl⟩

/-- The text of an integer is read as one literal, whatever names are known. -/
theorem parseExpression_integer (n : ℤ) (known : List String) :
    ∃ span, parseExpression (toString n) known = .ok (.plain (.number (toString n)) span) := by
  obtain ⟨lexemes, pieces, hscan, hpieces, htokens, hcomments⟩ := (Token.scanned_integer n).pieces
  have hempty : pieces.isEmpty = false := by
    cases pieces with
    | nil => cases n <;> cases htokens
    | cons p ps => rfl
  have hholds : Cursor.Holds ⟨pieces, 0, TypeExpr.knownNames known⟩ (Token.ofInteger n)
      (TypeExpr.knownNames known) := ⟨htokens, hcomments, rfl⟩
  obtain ⟨tree, c, hrun, ⟨span, rfl⟩, -⟩ :=
    wholeExpression_integer ⟨toString n, false⟩ _ hholds
  refine ⟨span, ?_⟩
  simp only [parseExpression, parseWith, hscan, hpieces, hempty, Bool.false_eq_true, if_false]
  rw [show (known.filter fun s => s.toList.contains ' ') ++ rangeMembers =
    TypeExpr.knownNames known from rfl, hrun]

end Surface

/-! ### The constant -/

namespace Elaboration

theorem literal?_integer (n : ℤ) : literal? (toString n) = some (Number.ofLiteral n) := by
  cases n with
  | ofNat m =>
    have hsign : ∀ cs, m.repr.toList ≠ '-' :: cs := by
      intro cs hcs
      obtain ⟨-, hall, -⟩ := Number.digits_repr m
      exact absurd (hall '-' (by rw [hcs]; exact List.mem_cons_self)) (by decide)
    have hnonneg : Number.ofLiteral m = Number.ofInt m := if_neg (Int.natCast_nonneg m).not_gt
    rw [show Int.ofNat m = m from rfl, hnonneg, ← Number.parse?_repr]
    show literal? m.repr = _
    unfold literal?
    split
    · next cs hcs => exact absurd hcs (hsign cs)
    · rfl
  | negSucc m =>
    have htext : (toString (Int.negSucc m)).toList = '-' :: (m + 1).repr.toList :=
      String.toList_append
    have hneg : Number.ofLiteral (.negSucc m) = (Number.ofInt (m + 1 : ℕ)).neg :=
      if_pos (Int.negSucc_lt_zero m)
    rw [literal?, htext, hneg]
    show (Number.parse? (String.ofList (m + 1).repr.toList)).map Number.neg = _
    rw [String.ofList_toList, Number.parse?_repr]
    rfl

end Elaboration

/-- A number is lowered to code that is known to load it. -/
theorem Fragment.ofWarnedTerm_number (m : Number) (span : Span) (scope : Scope) :
    ∃ f d, ofWarnedTerm (.plain (.number m) (.number m.kind) span) scope {} = .ok (f, d) ∧
      f.code.valueIn? d.constants = some (.number m) ∧ f.type = .number m.kind := by
  refine ⟨_, _, rfl, ?_, rfl⟩
  cases m <;> rfl

namespace Program

/-- **Literals of integers.** In every scope the text of an integer is compiled to a constant, which
is the program's value over every input. The constant is equal to the integer and has the narrowest
representation that holds its magnitude. So it has the narrowest one that holds the integer itself,
except for the least integers of 32 and of 64 bits. -/
theorem ofExpression_integer (entry : EntryPoint) (scope : Scope) (n : ℤ) :
    ∃ p m, ofExpression entry scope (toString n) = .ok p ∧
      p.root.valueIn? p.constants = some (.number m) ∧ p.resultType = .number m.kind ∧
      (∀ natives input test, p.run natives input test = .ok (.number m)) ∧
      m.value? = some (n : ℚ) ∧ m = .ofIntAs (Number.narrowest n.natAbs) n ∧
      (m = .ofIntAs (Number.narrowest n) n ↔ n ≠ -2 ^ 31 ∧ n ≠ -2 ^ 63) := by
  obtain ⟨span, hparse⟩ := Surface.parseExpression_integer n scope.knownNames
  obtain ⟨m, hm⟩ : ∃ m, m = Number.ofIntAs (Number.narrowest n.natAbs) n := ⟨_, rfl⟩
  have hliteral : Elaboration.literal? (toString n) = some m := by
    rw [Elaboration.literal?_integer, Number.ofLiteral_eq, hm]
  have hterm : Term.ofSurface (toString n) (.plain (.number (toString n)) span) scope =
      .ok (.plain (.number m) (.number m.kind) span) := by
    show (Elaboration.number (toString n) span scope >>= fun t => pure (t.withComments [])) = _
    rw [Elaboration.number, hliteral]
    rfl
  obtain ⟨f, d, hlower, hvalue, htype⟩ := Fragment.ofWarnedTerm_number m span scope
  have hroot : (ofFragment entry .expression (toString n) none scope.options f d).root =
      f.code := by
    dsimp only [ofFragment]
    rw [Code.simplify_of_valueIn? hvalue, ite_self]
  have hcompiled : ofExpression entry scope (toString n) =
      .ok (ofFragment entry .expression (toString n) none scope.options f d) := by
    rw [ofExpression_eq_ofTree hparse, ofTree, hterm]
    show ((Fragment.ofWarnedTerm (.plain (.number m) (.number m.kind) span) scope).run {} >>=
      fun x => _) = _
    rw [StateT.run, hlower]
    rfl
  refine ⟨_, m, hcompiled, hroot ▸ hvalue, htype, run_of_known hvalue, ?_, hm, ?_⟩
  · exact hm ▸ Number.value_ofIntAs_narrowest n
  · rw [← Number.narrowest_natAbs_iff, hm]
    refine ⟨fun h => ?_, fun h => by rw [h]⟩
    rw [← Number.kind_ofIntAs n n.natAbs, h, Number.kind_ofIntAs]

end Program

end Feel
