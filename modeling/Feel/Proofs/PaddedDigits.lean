import Feel.Proofs.IntegerLiterals

/-!
# Digits in calendar texts

Numbers in the texts of dates, times and durations are rows of digits, some of them filled up with
zeros from the left. Rows of digits hold no blanks, and reading one gives the number it was written
for, however many zeros lead.

* `Calendar.IsDigits`: rows of digits and the numbers they denote.
* `Calendar.isDigits_padded`: what is written with a width.
* `Text.trim_of_unblank`: a text without blanks is trimmed to itself.
-/

namespace Feel

/-! ### Characters -/

namespace Text

variable {c : Char}

theorem toNat_of_isDigit (h : c.isDigit = true) : 48 ≤ c.toNat ∧ c.toNat ≤ 57 := by
  simpa [Char.isDigit, UInt32.le_iff_toNat_le] using h

theorem toNat_of_isAlpha (h : c.isAlpha = true) :
    65 ≤ c.toNat ∧ c.toNat ≤ 90 ∨ 97 ≤ c.toNat ∧ c.toNat ≤ 122 := by
  have halpha : c.isAlpha = (decide ('A'.val ≤ c.val ∧ c.val ≤ 'Z'.val) ||
      (decide ('a'.val ≤ c.val) && decide (c.val ≤ 'z'.val))) := rfl
  rw [halpha] at h
  simpa [UInt32.le_iff_toNat_le] using h

theorem isBlank_of_visible (h : 33 ≤ c.toNat ∧ c.toNat ≤ 126) : isBlank c = false := by
  simp only [isBlank, Bool.or_eq_false_iff, Bool.and_eq_false_iff, decide_eq_false_iff_not,
    beq_eq_false_iff_ne]
  omega

theorem isBlank_of_isDigit (h : c.isDigit = true) : isBlank c = false :=
  isBlank_of_visible (by have := toNat_of_isDigit h; omega)

theorem isBlank_of_isAlpha (h : c.isAlpha = true) : isBlank c = false :=
  isBlank_of_visible (by have := toNat_of_isAlpha h; omega)

theorem isAlpha_of_isDigit (h : c.isDigit = true) : c.isAlpha = false := by
  by_contra halpha
  have hdigit := toNat_of_isDigit h
  have hletter := toNat_of_isAlpha (Bool.eq_true_of_not_eq_false halpha)
  omega

theorem beq_of_isDigit {d : Char} (hd : d.isDigit = false) (h : c.isDigit = true) :
    (c == d) = false := by
  rw [beq_eq_false_iff_ne]
  rintro rfl
  rw [h] at hd
  cases hd

theorem trimStart_of_head {cs : List Char} (h : isBlank c = false) :
    trimStart (c :: cs) = c :: cs := by
  rw [trimStart, List.dropWhile_cons, h]
  rfl

theorem dropWhile_of_forall {p : Char → Bool} {cs : List Char} (h : ∀ c ∈ cs, p c = false) :
    cs.dropWhile p = cs := by
  cases cs with
  | nil => rfl
  | cons c cs => exact List.dropWhile_cons_of_neg (by simp [h c List.mem_cons_self])

/-- A text without blanks is trimmed to itself. -/
theorem trim_of_unblank {s : String} (h : ∀ c ∈ s.toList, isBlank c = false) : trim s = s := by
  rw [trim, trimStart, dropWhile_of_forall h, trimEnd,
    dropWhile_of_forall fun c hc => h c (List.mem_reverse.mp hc), List.reverse_reverse,
    String.ofList_toList]

end Text

/-- A text is split at the first character that is looked for. -/
theorem Decimal.splitAtFirst_append {p : Char → Bool} {cs rest : List Char} {d : Char}
    (h : ∀ c ∈ cs, p c = false) (hd : p d = true) :
    splitAtFirst p (cs ++ d :: rest) = (cs, some rest) := by
  have hnot : ∀ c ∈ cs, (!p c) = true := fun c hc => by rw [h c hc]; rfl
  rw [splitAtFirst, List.dropWhile_append_of_pos hnot, List.takeWhile_append_of_pos hnot]
  simp [hd]

/-- A text without the character is its own lead; any other is put together again. -/
theorem Decimal.splitAtFirst_cases (q : Char → Bool) (cs : List Char) :
    ((splitAtFirst q cs).2 = none ∧ (splitAtFirst q cs).1 = cs) ∨
      ∃ d rest, (splitAtFirst q cs).2 = some rest ∧ q d = true ∧
        (splitAtFirst q cs).1 ++ d :: rest = cs := by
  unfold splitAtFirst
  split
  · exact .inl ⟨rfl, rfl⟩
  · next d rest hdrop =>
    refine .inr ⟨d, rest, rfl, ?_, ?_⟩
    · have hhead := List.head?_dropWhile_not (fun c => !q c) cs
      rw [hdrop] at hhead
      simpa using hhead
    · rw [← hdrop, List.takeWhile_append_dropWhile]

/-! ### Rows of digits -/

namespace Calendar

/-- A row of digits and the number it denotes. -/
structure IsDigits (cs : List Char) (n : ℕ) : Prop where
  nonempty : cs ≠ []
  digit : ∀ c ∈ cs, c.isDigit = true
  value : Nat.ofDigitChars 10 cs 0 = n

variable {cs ds rest : List Char} {n m k w : ℕ}

theorem natOfDigits_eq (cs : List Char) : natOfDigits cs = Nat.ofDigitChars 10 cs 0 := by
  simp only [natOfDigits, Nat.ofDigitChars_eq_foldl, Nat.mul_comm]

theorem IsDigits.unblank (h : IsDigits cs n) : ∀ c ∈ cs, Text.isBlank c = false :=
  fun c hc => Text.isBlank_of_isDigit (h.digit c hc)

theorem IsDigits.ne (h : IsDigits cs n) {c : Char} (hc : c ∈ cs) {d : Char}
    (hd : d.isDigit = false) : c ≠ d := by
  rintro rfl
  rw [h.digit c hc] at hd
  cases hd

theorem isDigits_repr (n : ℕ) : IsDigits n.repr.toList n :=
  have h := Number.digits_repr n
  ⟨h.1, h.2.1, h.2.2⟩

theorem length_repr_le (h : n < 10 ^ w) (hw : 0 < w) : n.repr.toList.length ≤ w := by
  rw [Nat.toList_repr]
  exact (Nat.length_toDigits_le_iff (by decide) hw).mpr h

theorem toList_padded (w n : ℕ) : (padded w n).toList =
    List.replicate (w - n.repr.toList.length) '0' ++ n.repr.toList := by
  rw [padded, Nat.toString_eq_repr, String.toList_append, Decimal.zeros, String.toList_ofList,
    String.length_toList]

/-- Zeros that lead do not change the number. -/
theorem isDigits_padded (w n : ℕ) : IsDigits (padded w n).toList n := by
  have hrepr := isDigits_repr n
  rw [toList_padded]
  refine ⟨List.append_ne_nil_of_right_ne_nil _ hrepr.nonempty, ?_, ?_⟩
  · intro c hc
    rcases List.mem_append.mp hc with hzero | hdigit
    · rw [List.eq_of_mem_replicate hzero]
      decide
    · exact hrepr.digit c hdigit
  · rw [Nat.ofDigitChars_append, Nat.ofDigitChars_replicate_zero, Nat.mul_zero, hrepr.value]

/-- A number that fits the width is written in it. -/
theorem length_padded (h : n < 10 ^ w) (hw : 0 < w) : (padded w n).toList.length = w := by
  have hle := length_repr_le h hw
  rw [toList_padded, List.length_append, List.length_replicate]
  omega

theorem IsDigits.append (h : IsDigits cs n) (h' : IsDigits ds m) :
    IsDigits (cs ++ ds) (n * 10 ^ ds.length + m) := by
  refine ⟨List.append_ne_nil_of_left_ne_nil h.nonempty _, ?_, ?_⟩
  · exact fun c hc => (List.mem_append.mp hc).elim (h.digit c) (h'.digit c)
  · rw [Nat.ofDigitChars_append, h.value, Nat.ofDigitChars_eq_ofDigitChars_zero, h'.value,
      Nat.mul_comm]

end Calendar

end Feel
