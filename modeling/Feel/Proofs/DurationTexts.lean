import Feel.Proofs.PaddedDigits
import Feel.Proofs.RoundingErrors
import Feel.Value.Text

/-!
# Durations read back

The text of a duration lists its components, each an amount and a unit; components that are zero are
left out, and the day is divided from the hours by a `T`. Reading splits the text at the units and
adds the components up, seconds with a fraction among them, and the sum is the duration that was
written.

* `Duration.parse?_write`: a text of components is read by adding them up.
* `Duration.whole?_of_integer`, `Duration.amount?_places`: the amounts.
* `Duration.datePart?_monthPart`, `Duration.timePart?_cons`: what one component adds.
* `Duration.parse?_dayTimeText`, `Duration.parse?_yearMonthText`: both kinds read back.
-/

namespace Feel

namespace Duration

open Calendar

/-! ### Components -/

/-- The amount and the unit of a component. -/
abbrev Part := List Char × Char

/-- An amount without letters or blanks, and a letter for its unit. -/
structure IsPart (p : Part) : Prop where
  nonempty : p.1 ≠ []
  amount : ∀ c ∈ p.1, c.isAlpha = false
  unblank : ∀ c ∈ p.1, Text.isBlank c = false
  unit : p.2.isAlpha = true

/-- Components one after another. -/
def writeParts (parts : List Part) : List Char := parts.flatMap fun p => p.1 ++ [p.2]

/-- The components behind the `T`, which is left out with them. -/
def writeTime : Option (List Part) → List Char
  | none => []
  | some parts => 'T' :: writeParts parts

/-- The text of a duration by its sign and its components. -/
def write (negative : Bool) (date : List Part) (time : Option (List Part)) : List Char :=
  (if negative then ['-'] else []) ++ 'P' :: (writeParts date ++ writeTime time)

/-- The milliseconds of whole days and of a time. -/
def timeSum? : Option (List Part) → ℤ → Option ℤ
  | none, days => some days
  | some time, days => timePart? time days

/-- What components add up to. -/
def ofParts? (date : List Part) (time : Option (List Part)) : Option Parsed := do
  let p ← datePart? date ⟨0, 0, false⟩
  if p.yearMonth then
    if p.days != 0 || time.isSome then none else some (.yearMonth (Int64.ofInt p.months))
  else
    let days ← fits? (p.days * 86400000)
    let millis ← timeSum? time days
    let nanos ← inRange? (millis * millisecond)
    some (.dayTime nanos)

section Components

variable {parts date : List Part} {time : Option (List Part)} {negative : Bool} {s : String}

/-- Characters without a letter gather for the next amount. -/
theorem components?_amount {amount : List Char} (h : ∀ c ∈ amount, c.isAlpha = false)
    (rest gathered : List Char) :
    components? (amount ++ rest) gathered = components? rest (amount.reverse ++ gathered) := by
  induction amount generalizing gathered with
  | nil => rfl
  | cons c amount ih =>
    obtain ⟨hc, hamount⟩ := List.forall_mem_cons.mp h
    rw [List.cons_append, components?, if_neg (by rw [hc]; decide), ih hamount,
      List.reverse_cons, List.append_assoc, List.singleton_append]

/-- The components of a text are those it was written from. -/
theorem components?_writeParts (h : ∀ p ∈ parts, IsPart p) :
    components? (writeParts parts) [] = some parts := by
  induction parts with
  | nil => rfl
  | cons p parts ih =>
    obtain ⟨hp, hparts⟩ := List.forall_mem_cons.mp h
    have hgathered : p.1.reverse.isEmpty = false := by simp [hp.nonempty]
    rw [writeParts, List.flatMap_cons, List.append_assoc, components?_amount hp.amount,
      List.singleton_append, List.append_nil, components?, if_pos hp.unit,
      if_neg (by rw [hgathered]; decide), List.reverse_reverse]
    exact congrArg (Option.map (p :: ·)) (ih hparts)

theorem mem_writeParts {c : Char} (h : c ∈ writeParts parts) :
    ∃ p ∈ parts, c ∈ p.1 ∨ c = p.2 := by
  obtain ⟨p, hp, hc⟩ := List.mem_flatMap.mp h
  exact ⟨p, hp, by simpa using hc⟩

theorem splitAtFirst_writeParts (hdate : ∀ p ∈ date, IsPart p ∧ p.2 ≠ 'T') :
    Decimal.splitAtFirst (· == 'T') (writeParts date ++ writeTime time) =
      (writeParts date, time.map writeParts) := by
  have hmark : ∀ c ∈ writeParts date, (c == 'T') = false := by
    intro c hc
    obtain ⟨p, hp, hamount | rfl⟩ := mem_writeParts hc
    · rw [beq_eq_false_iff_ne]
      rintro rfl
      exact absurd ((hdate p hp).1.amount _ hamount) (by decide)
    · exact beq_eq_false_iff_ne.mpr (hdate p hp).2
  cases time with
  | none => rw [writeTime, List.append_nil, Decimal.splitAtFirst_of_forall hmark, Option.map_none]
  | some parts => exact Decimal.splitAtFirst_append hmark rfl

theorem writeParts_ne_nil (h : parts ≠ []) : writeParts parts ≠ [] := by
  cases parts with
  | nil => exact absurd rfl h
  | cons p parts => simp [writeParts]

/-- A text of components has no blanks around it. -/
theorem trim_write (hs : s.toList = write negative date time) (hdate : ∀ p ∈ date, IsPart p)
    (htime : ∀ parts ∈ time, ∀ p ∈ parts, IsPart p) : Text.trim s = s := by
  have hparts {parts : List Part} (h : ∀ p ∈ parts, IsPart p) :
      ∀ c ∈ writeParts parts, Text.isBlank c = false := by
    intro c hc
    obtain ⟨p, hp, hamount | rfl⟩ := mem_writeParts hc
    · exact (h p hp).unblank c hamount
    · exact Text.isBlank_of_isAlpha (h p hp).unit
  refine Text.trim_of_unblank fun c hc => ?_
  rw [hs, write] at hc
  rcases List.mem_append.mp hc with hc | hc
  · split at hc
    · rw [List.mem_singleton.mp hc]
      decide
    · cases hc
  rcases List.mem_cons.mp hc with rfl | hc
  · decide
  rcases List.mem_append.mp hc with hc | hc
  · exact hparts hdate c hc
  cases time with
  | none => cases hc
  | some parts =>
    rcases List.mem_cons.mp hc with rfl | hc
    · decide
    · exact hparts (htime parts rfl) c hc

theorem readBody?_write (hdate : ∀ p ∈ date, IsPart p ∧ p.2 ≠ 'T')
    (htime : ∀ parts ∈ time, parts ≠ [] ∧ ∀ p ∈ parts, IsPart p)
    (hne : date ≠ [] ∨ time ≠ none) :
    readBody? ('P' :: (writeParts date ++ writeTime time)) = ofParts? date time := by
  have hbody : (writeParts date ++ writeTime time).isEmpty = false := by
    rcases hne with hne | hne
    · simp [writeParts_ne_nil hne]
    · cases time with
      | none => exact absurd rfl hne
      | some parts => simp [writeTime]
  have hrest : (time.map writeParts == some []) = false := by
    cases time with
    | none => rfl
    | some parts => simpa using writeParts_ne_nil (htime parts rfl).1
  have hparts := components?_writeParts fun p hp => (hdate p hp).1
  rw [readBody?]
  simp only [char?, if_true, Option.bind_eq_bind, Option.bind_some, hbody,
    splitAtFirst_writeParts hdate, hrest, Bool.false_eq_true, if_false, hparts, ofParts?,
    Option.isSome_map]
  refine congrArg (Option.bind _) (funext fun p => ?_)
  cases time with
  | none => rfl
  | some parts =>
    simp only [Option.map_some, components?_writeParts (htime parts rfl).2, Option.bind_some]
    rfl

theorem join_map_some (p : Option Parsed) : (p.map some).join = p := by
  cases p <;> rfl

/-- **A text of components** is read by adding them up and applying the sign. -/
theorem read?_write (o : Overflow) (hs : (Text.trim s).toList = write negative date time)
    (hdate : ∀ p ∈ date, IsPart p ∧ p.2 ≠ 'T')
    (htime : ∀ parts ∈ time, parts ≠ [] ∧ ∀ p ∈ parts, IsPart p)
    (hne : date ≠ [] ∨ time ≠ none) :
    read? o s = (ofParts? date time).elim (some none) fun p =>
      (p.signed? o negative).map some := by
  rw [← readBody?_write hdate htime hne, read?, hs]
  cases negative <;> rfl

theorem parse?_write (hs : (Text.trim s).toList = write negative date time)
    (hdate : ∀ p ∈ date, IsPart p ∧ p.2 ≠ 'T')
    (htime : ∀ parts ∈ time, parts ≠ [] ∧ ∀ p ∈ parts, IsPart p)
    (hne : date ≠ [] ∨ time ≠ none) :
    parse? s = (ofParts? date time).bind (Parsed.signed? .wraps negative) := by
  rw [parse?, read?_write .wraps hs hdate htime hne]
  cases ofParts? date time with
  | none => rfl
  | some p => exact join_map_some _

/-- Components that are read make up the text. -/
theorem writeParts_of_components? {cs gathered : List Char}
    (h : components? cs gathered = some parts) : gathered.reverse ++ cs = writeParts parts := by
  induction cs generalizing gathered parts with
  | nil =>
    unfold components? at h
    split at h
    · next hempty =>
      cases h
      rw [List.isEmpty_iff.mp hempty]
      rfl
    · cases h
  | cons c cs ih =>
    unfold components? at h
    split at h
    · split at h
      · cases h
      · obtain ⟨rest, hrest, rfl⟩ := Option.map_eq_some_iff.mp h
        have hcs := ih hrest
        rw [List.reverse_nil, List.nil_append] at hcs
        rw [hcs]
        simp [writeParts]
    · simpa using ih h

theorem eq_cons_of_char? {c : Char} {cs rest : List Char} (h : char? c cs = some rest) :
    cs = c :: rest := by
  cases cs with
  | nil => cases h
  | cons d cs =>
    rw [char?] at h
    split at h
    · next hd => rw [hd, Option.some.inj h]
    · cases h

theorem exists_parts_of_body {cs : List Char} {v : Parsed}
    (h : readBody? cs = some v) :
    ∃ date time, cs = 'P' :: (writeParts date ++ writeTime time) ∧
      ofParts? date time = some v := by
  unfold readBody? at h
  dsimp only at h
  obtain ⟨rest, hchar, h⟩ := Option.bind_eq_some_iff.mp h
  by_cases hrest : rest.isEmpty = true
  · rw [if_pos hrest] at h
    cases h
  by_cases htime : ((Decimal.splitAtFirst (· == 'T') rest).2 == some []) = true
  · rw [if_neg hrest, if_pos htime] at h
    cases h
  rw [if_neg hrest, if_neg htime] at h
  obtain ⟨date, hdate, h⟩ := Option.bind_eq_some_iff.mp h
  obtain ⟨p, hp, h⟩ := Option.bind_eq_some_iff.mp h
  have hlead := writeParts_of_components? hdate
  rw [List.reverse_nil, List.nil_append] at hlead
  obtain ⟨htrail, hsplit⟩ | ⟨d, chars, htrail, hd, hsplit⟩ :=
    Decimal.splitAtFirst_cases (· == 'T') rest
  · rw [htrail] at h
    refine ⟨date, none, ?_, ?_⟩
    · rw [eq_cons_of_char? hchar, writeTime, List.append_nil, ← hlead, hsplit]
    · rw [ofParts?, hp]
      exact h
  · rw [htrail] at h
    by_cases hmonths : p.yearMonth = true
    · rw [if_pos hmonths, if_pos (by simp)] at h
      cases h
    · rw [if_neg hmonths] at h
      obtain ⟨days, hdays, h⟩ := Option.bind_eq_some_iff.mp h
      obtain ⟨time, htime, h⟩ := Option.bind_eq_some_iff.mp h
      have hchars := writeParts_of_components? htime
      rw [List.reverse_nil, List.nil_append] at hchars
      refine ⟨date, some time, ?_, ?_⟩
      · rw [beq_iff_eq.mp hd] at hsplit
        rw [eq_cons_of_char? hchar, writeTime, ← hchars, ← hlead, hsplit]
      · rw [ofParts?, hp, Option.bind_eq_bind, Option.bind_some, if_neg hmonths, hdays]
        exact h

/-- **A duration that is read** is what the components of its text add up to, with the sign. -/
theorem exists_parts {v : Parsed} (h : parse? s = some v) :
    ∃ negative date time p, (Text.trim s).toList = write negative date time ∧
      ofParts? date time = some p ∧ p.signed? .wraps negative = some v := by
  unfold parse? read? at h
  generalize (Text.trim s).toList = chars at h ⊢
  have hchars : ∃ negative cs, splitSign chars = (negative, cs) ∧
      chars = (if negative then ['-'] else []) ++ cs := by
    unfold splitSign
    split
    · exact ⟨true, _, rfl, rfl⟩
    · exact ⟨false, _, rfl, rfl⟩
  obtain ⟨negative, cs, hsplit, hcs⟩ := hchars
  rw [hsplit] at h
  obtain ⟨p, hp, hsigned⟩ : ∃ p, readBody? cs = some p ∧ p.signed? .wraps negative = some v := by
    dsimp only at h
    cases hbody : readBody? cs with
    | none =>
      rw [hbody] at h
      cases h
    | some p =>
      rw [hbody, Option.elim_some, join_map_some] at h
      exact ⟨p, rfl, h⟩
  obtain ⟨date, time, rfl, hvalue⟩ := exists_parts_of_body hp
  exact ⟨negative, date, time, p, hcs, hvalue, hsigned⟩

end Components

/-! ### Amounts -/

/-- Digits with an optional sign, and the integer they denote. -/
inductive IsInteger : List Char → ℤ → Prop
  | plain {cs : List Char} {n : ℕ} (h : IsDigits cs n) : IsInteger cs n
  | plus {cs : List Char} {n : ℕ} (h : IsDigits cs n) : IsInteger ('+' :: cs) n
  | minus {cs : List Char} {n : ℕ} (h : IsDigits cs n) : IsInteger ('-' :: cs) (-n)

variable {cs ds : List Char} {n m k : ℕ} {z : ℤ}

theorem fits?_eq_some (h : -2 ^ 63 ≤ z ∧ z < 2 ^ 63) : fits? z = some z :=
  if_pos (by omega)

theorem fits?_eq_none (h : ¬ (-2 ^ 63 ≤ z ∧ z < 2 ^ 63)) : fits? z = none :=
  if_neg (by omega)

/-- A whole amount is what its digits denote, if that fits. -/
theorem whole?_of_integer (h : IsInteger cs z) : whole? cs = fits? z := by
  have hbound (z : ℤ) : ((some z).filter fun n =>
      decide (-0x80000000000000000000000000000000 ≤ n ∧
        n < 0x80000000000000000000000000000000)).bind fits? = fits? z := by
    by_cases hz : -0x80000000000000000000000000000000 ≤ z ∧
        z < 0x80000000000000000000000000000000
    · rw [Option.filter_some, if_pos (decide_eq_true hz), Option.bind_some]
    · rw [Option.filter_some, if_neg (by rw [decide_eq_true_iff]; exact hz), Option.bind_none,
        fits?_eq_none (by omega)]
  have hdigits {cs : List Char} {n : ℕ} (h : IsDigits cs n) :
      (if cs.isEmpty || !cs.all Char.isDigit then none else Decimal.parseDigits? cs 0) =
        some n := by
    have hall : cs.all Char.isDigit = true := List.all_eq_true.mpr h.digit
    have hne : cs.isEmpty = false := by simpa using h.nonempty
    rw [hall, hne, Decimal.parseDigits?_of_digits h.digit, h.value]
    rfl
  unfold whole? Decimal.parseExponent?
  cases h with
  | @plain cs n h =>
    dsimp only
    split
    · next rest => exact absurd rfl (h.ne List.mem_cons_self (by decide))
    · next rest => exact absurd rfl (h.ne List.mem_cons_self (by decide))
    · rw [hdigits h]
      exact hbound n
  | @plus cs n h =>
    show (((if cs.isEmpty || !cs.all Char.isDigit then none else Decimal.parseDigits? cs 0).map
      Int.ofNat).filter _).bind fits? = _
    rw [hdigits h]
    exact hbound n
  | @minus cs n h =>
    show (((Option.bind (if cs.isEmpty || !cs.all Char.isDigit then none
      else Decimal.parseDigits? cs 0) fun n => some (n : ℤ)).map fun n => -n).filter _).bind
        fits? = _
    rw [hdigits h]
    exact hbound (-n)

/-- An amount of digits, perhaps with a point among them. -/
theorem amount?_of_split {c : Char} {lead : List Char} {trail : Option (List Char)}
    (hc : c.isDigit = true)
    (hsplit : Decimal.splitAtFirst (· == '.') (c :: cs) = (lead, trail))
    (hdigits : IsDigits (lead ++ trail.getD []) n) :
    amount? (c :: cs) = some (Float.ofScientific n true (trail.getD []).length) := by
  have hall : (lead ++ trail.getD []).all Char.isDigit = true :=
    List.all_eq_true.mpr hdigits.digit
  have hne : (lead ++ trail.getD []).isEmpty = false := by simpa using hdigits.nonempty
  unfold amount?
  split
  next negative rest hsign =>
  split at hsign
  · next heq =>
    rw [(List.cons.inj heq).1] at hc
    exact absurd hc (by decide)
  · next heq =>
    rw [(List.cons.inj heq).1] at hc
    exact absurd hc (by decide)
  · obtain ⟨rfl, rfl⟩ := Prod.mk.inj hsign
    rw [hsplit]
    simp only [hall, hne, natOfDigits_eq, hdigits.value]
    rfl

theorem amount?_repr (n : ℕ) : amount? n.repr.toList = some (Float.ofScientific n true 0) := by
  have hn := isDigits_repr n
  obtain ⟨c, cs, hcs⟩ := List.exists_cons_of_ne_nil hn.nonempty
  rw [hcs] at hn ⊢
  have hsplit : Decimal.splitAtFirst (· == '.') (c :: cs) = (c :: cs, none) :=
    Decimal.splitAtFirst_of_forall fun d hd => Text.beq_of_isDigit rfl (hn.digit d hd)
  refine amount?_of_split (hn.digit c List.mem_cons_self) hsplit ?_
  rwa [Option.getD_none, List.append_nil]

/-- An amount with three places behind the point. -/
theorem amount?_places (n : ℕ) (hm : m < 1000) :
    amount? (n.repr.toList ++ '.' :: (padded 3 m).toList) =
      some (Float.ofScientific (n * 1000 + m) true 3) := by
  have hn := isDigits_repr n
  have hlength : (padded 3 m).toList.length = 3 := length_padded hm (by decide)
  have hdigits := hn.append (isDigits_padded 3 m)
  rw [hlength, show (10 : ℕ) ^ 3 = 1000 from rfl] at hdigits
  obtain ⟨c, cs, hcs⟩ := List.exists_cons_of_ne_nil hn.nonempty
  have hsplit : Decimal.splitAtFirst (· == '.') (n.repr.toList ++ '.' :: (padded 3 m).toList) =
      (n.repr.toList, some (padded 3 m).toList) :=
    Decimal.splitAtFirst_append (fun d hd => Text.beq_of_isDigit rfl (hn.digit d hd)) rfl
  rw [hcs] at hn hsplit hdigits ⊢
  rw [List.cons_append] at hsplit ⊢
  rw [amount?_of_split (hn.digit c List.mem_cons_self) hsplit hdigits, Option.getD_some, hlength]

/-! ### Components that may be left out -/

/-- A component that is left out where it is zero. -/
def optionalPart (n : ℕ) (unit : Char) : List Part :=
  if n = 0 then [] else [(n.repr.toList, unit)]

theorem isPart_repr (n : ℕ) {unit : Char} (hunit : unit.isAlpha = true) :
    IsPart (n.repr.toList, unit) :=
  ⟨(isDigits_repr n).nonempty, fun c hc => Text.isAlpha_of_isDigit ((isDigits_repr n).digit c hc),
    (isDigits_repr n).unblank, hunit⟩

theorem isPart_optionalPart {unit : Char} (hunit : unit.isAlpha = true) :
    ∀ p ∈ optionalPart n unit, IsPart p ∧ p.2 = unit := by
  unfold optionalPart
  intro p hp
  split at hp
  · cases hp
  · rw [List.mem_singleton.mp hp]
    exact ⟨isPart_repr n hunit, rfl⟩

theorem toList_optionalPart (n : ℕ) {name : String} {unit : Char} (hname : name.toList = [unit]) :
    (if n = 0 then "" else toString n ++ name).toList = writeParts (optionalPart n unit) := by
  unfold optionalPart
  split
  · rfl
  · rw [String.toList_append, Nat.toString_eq_repr, hname]
    simp [writeParts]

/-! ### Days and time -/

/-- The seconds of a minute in milliseconds, with three places where they have a fraction. -/
def secondsAmount (millis : ℕ) : List Char :=
  if millis % 1000 = 0 then (millis / 1000).repr.toList
  else (millis / 1000).repr.toList ++ '.' :: (padded 3 (millis % 1000)).toList

/-- The components behind the `T`, of a duration in milliseconds. -/
def timeParts (total : ℕ) : List Part :=
  let hours := total / 3600000 % 24
  let minutes := total / 60000 % 60
  let millis := total % 60000
  optionalPart hours 'H' ++ (optionalPart minutes 'M' ++
    if 0 < millis ∨ (hours = 0 ∧ minutes = 0) then [(secondsAmount millis, 'S')] else [])

/-- Whole days are written without a time. -/
def timeOf (total : ℕ) : Option (List Part) :=
  if total % 86400000 = 0 ∧ total ≠ 0 then none else some (timeParts total)

theorem isPart_seconds (millis : ℕ) : IsPart (secondsAmount millis, 'S') := by
  have hlead := isDigits_repr (millis / 1000)
  have hplaces := isDigits_padded 3 (millis % 1000)
  unfold secondsAmount
  split
  · exact isPart_repr _ (by decide)
  · have hchars {q : Char → Bool} (hdigit : ∀ c : Char, c.isDigit = true → q c = false)
        (hpoint : q '.' = false) :
        ∀ c ∈ (millis / 1000).repr.toList ++ '.' :: (padded 3 (millis % 1000)).toList,
          q c = false := by
      intro c hc
      rcases List.mem_append.mp hc with hc | hc
      · exact hdigit c (hlead.digit c hc)
      · rcases List.mem_cons.mp hc with rfl | hc
        · exact hpoint
        · exact hdigit c (hplaces.digit c hc)
    exact ⟨List.append_ne_nil_of_left_ne_nil hlead.nonempty _,
      hchars (fun _ => Text.isAlpha_of_isDigit) (by decide),
      hchars (fun _ => Text.isBlank_of_isDigit) (by decide), show Char.isAlpha 'S' = true by decide⟩

theorem isPart_timeParts (total : ℕ) : ∀ p ∈ timeParts total, IsPart p := by
  intro p hp
  rcases List.mem_append.mp hp with hp | hp
  · exact (isPart_optionalPart (by decide) p hp).1
  rcases List.mem_append.mp hp with hp | hp
  · exact (isPart_optionalPart (by decide) p hp).1
  split at hp
  · rw [List.mem_singleton.mp hp]
    exact isPart_seconds _
  · cases hp

theorem timeParts_ne_nil (total : ℕ) : timeParts total ≠ [] := by
  unfold timeParts optionalPart
  dsimp only
  split_ifs <;> simp_all

/-- The text of a days-and-time duration lists its components. -/
theorem toList_dayTimeText (nanos : ℤ) {total : ℕ} (h : (milliseconds nanos).natAbs = total) :
    (dayTimeText nanos).toList =
      write (decide (nanos < 0)) (optionalPart (total / 86400000) 'D') (timeOf total) := by
  have hsign : (if nanos < 0 then "-P" else "P").toList =
      (if decide (nanos < 0) = true then ['-'] else []) ++ ['P'] := by
    by_cases hneg : nanos < 0 <;> simp [hneg]
  have hseconds : (if total % 60000 % 1000 = 0 then toString (total % 60000 / 1000) ++ "S"
      else
        toString (total % 60000 / 1000) ++ "." ++ padded 3 (total % 60000 % 1000) ++ "S").toList =
        secondsAmount (total % 60000) ++ ['S'] := by
    unfold secondsAmount
    split_ifs <;> simp [String.toList_append]
  have htime : (total / 3600000 % 24 = 0 ∧ total / 60000 % 60 = 0 ∧ total % 60000 = 0 ∧
      total / 86400000 ≠ 0) ↔ (total % 86400000 = 0 ∧ total ≠ 0) := by omega
  unfold dayTimeText
  rw [h]
  dsimp only
  rw [String.toList_append, String.toList_append, hsign,
    toList_optionalPart _ (show "D".toList = ['D'] from rfl), write,
    List.append_assoc, List.append_assoc, List.singleton_append]
  congr 3
  simp only [htime, timeOf]
  split
  · rfl
  · rw [writeTime, String.toList_append, String.toList_append, String.toList_append,
      toList_optionalPart _ (show "H".toList = ['H'] from rfl),
      toList_optionalPart _ (show "M".toList = ['M'] from rfl), timeParts]
    simp only [writeParts, List.flatMap_append, List.append_assoc]
    split
    · rw [hseconds]
      simp
    · simp

/-- A component of a time adds its milliseconds. -/
theorem timePart?_cons {unit : Char} {s v : ℕ} {amount : List Char} {rest : List Part} {millis : ℤ}
    (hunit : unit = 'H' ∧ s = 3600000 ∨ unit = 'M' ∧ s = 60000 ∨ unit = 'S' ∧ s = 1000)
    (hamount : amount? amount = some (Float.ofScientific n true k)) (hk : k = 0 ∨ k = 3)
    (hn : n < 2 ^ 53) (hv : v < 2 ^ 40) (hvalue : n * s = v * 10 ^ k)
    (hfits : -2 ^ 63 ≤ millis + v ∧ millis + v < 2 ^ 63) :
    timePart? ((amount, unit) :: rest) millis = timePart? rest (millis + v) := by
  have hs : s ≠ 0 ∧ s < 2 ^ 53 := by omega
  have hround := Binary64.toInt64_round_scaled hk hs.1 hs.2 hn hv hvalue
  have hscale (s : ℕ) : (OfNat.ofNat s : Float) = Float.ofNat s := rfl
  rcases hunit with ⟨rfl, rfl⟩ | ⟨rfl, rfl⟩ | ⟨rfl, rfl⟩
  all_goals
    rw [timePart?, hamount]
    simp only [Option.bind_eq_bind, Option.bind_some, hscale, hround, fits?_eq_some hfits]

theorem timePart?_optionalPart {unit : Char} {s : ℕ} {rest : List Part} {millis : ℤ}
    (hunit : unit = 'H' ∧ s = 3600000 ∨ unit = 'M' ∧ s = 60000) (hn : n < 60)
    (hfits : -2 ^ 63 ≤ millis ∧ millis + (n * s : ℕ) < 2 ^ 63) :
    timePart? (optionalPart n unit ++ rest) millis = timePart? rest (millis + (n * s : ℕ)) := by
  unfold optionalPart
  split
  · next hzero => rw [hzero, Nat.zero_mul, Int.natCast_zero, Int.add_zero, List.nil_append]
  · have hsmall : n * s < 2 ^ 40 := by
      rcases hunit with ⟨-, rfl⟩ | ⟨-, rfl⟩ <;> omega
    exact timePart?_cons (by tauto) (amount?_repr n) (.inl rfl) (by omega) hsmall (by simp)
      (by omega)

theorem timePart?_seconds {millis : ℕ} {sum : ℤ} (hmillis : millis < 60000)
    (hfits : -2 ^ 63 ≤ sum ∧ sum + millis < 2 ^ 63) :
    timePart? [(secondsAmount millis, 'S')] sum = some (sum + millis) := by
  have hunit : 'S' = 'H' ∧ 1000 = 3600000 ∨ 'S' = 'M' ∧ 1000 = 60000 ∨ 'S' = 'S' ∧ 1000 = 1000 :=
    .inr (.inr ⟨rfl, rfl⟩)
  unfold secondsAmount
  split_ifs with hplaces
  · rw [timePart?_cons (v := millis) hunit (amount?_repr _) (.inl rfl) (by omega) (by omega)
      (by omega) (by omega), timePart?]
  · rw [timePart?_cons (v := millis) hunit (amount?_places _ (by omega)) (.inr rfl)
      (by omega) (by omega) (by omega) (by omega), timePart?]

/-- **Hours, minutes and seconds** add up to the milliseconds beyond the whole days. -/
theorem timePart?_timeParts {total : ℕ} {sum : ℤ}
    (hfits : -2 ^ 63 ≤ sum ∧ sum + (total % 86400000 : ℕ) < 2 ^ 63) :
    timePart? (timeParts total) sum = some (sum + (total % 86400000 : ℕ)) := by
  unfold timeParts
  dsimp only
  rw [timePart?_optionalPart (s := 3600000) (.inl ⟨rfl, rfl⟩) (by omega) (by omega),
    timePart?_optionalPart (s := 60000) (.inr ⟨rfl, rfl⟩) (by omega) (by omega)]
  split_ifs with hlast
  · rw [timePart?_seconds (by omega) (by omega)]
    exact congrArg some (by omega)
  · rw [timePart?]
    exact congrArg some (by omega)

theorem timeSum?_timeOf {total : ℕ} {days : ℤ} (hdays : 0 ≤ days)
    (hfits : days + (total % 86400000 : ℕ) < 2 ^ 63) :
    timeSum? (timeOf total) days = some (days + (total % 86400000 : ℕ)) := by
  unfold timeOf
  split_ifs with hwhole
  · rw [timeSum?, hwhole.1, Nat.cast_zero, add_zero]
  · exact timePart?_timeParts (by omega)

theorem datePart?_days (h : n < 2 ^ 63) :
    datePart? (optionalPart n 'D') ⟨0, 0, false⟩ = some ⟨0, n, false⟩ := by
  unfold optionalPart
  split
  · next hzero => rw [hzero]; rfl
  · rw [datePart?, whole?_of_integer (.plain (isDigits_repr _)), fits?_eq_some (by omega)]
    rfl

theorem inRange?_milliseconds (millis : ℤ) (h : -2 ^ 63 < millis ∧ millis < 2 ^ 63) :
    inRange? (millis * millisecond) = some (millis * millisecond) := by
  unfold inRange?
  exact if_pos (by unfold limit millisecond; omega)

theorem ofParts?_dayTime {total : ℕ} (h : total < 2 ^ 63) :
    ofParts? (optionalPart (total / 86400000) 'D') (timeOf total) =
      some (.dayTime (total * millisecond)) := by
  obtain ⟨days, hd⟩ : ∃ days : ℤ, days = (total / 86400000 : ℕ) * 86400000 := ⟨_, rfl⟩
  have hdays : fits? days = some days := fits?_eq_some (by omega)
  have hsum : timeSum? (timeOf total) days = some (total : ℤ) :=
    (timeSum?_timeOf (by omega) (by omega)).trans (congrArg some (by omega))
  have hnanos := inRange?_milliseconds total (by omega)
  rw [ofParts?, datePart?_days (by omega), Option.bind_eq_bind, Option.bind_some]
  simp only [Bool.false_eq_true, if_false, ← hd]
  rw [hdays, Option.bind_eq_bind, Option.bind_some, hsum, Option.bind_some, hnanos,
    Option.bind_some]

/-- **A days-and-time duration** of whole milliseconds is read back from its text. -/
theorem parse?_dayTimeText {nanos : ℤ} (hrange : inRange? nanos = some nanos)
    (hmillis : millisecond ∣ nanos) : parse? (dayTimeText nanos) = some (.dayTime nanos) := by
  have hlimit : -limit ≤ nanos ∧ nanos ≤ limit := by
    unfold inRange? at hrange
    split at hrange
    · assumption
    · cases hrange
  obtain ⟨z, rfl⟩ := hmillis
  have hz : milliseconds (millisecond * z) = z := Int.mul_tdiv_cancel_left z (by decide)
  have htotal : z.natAbs < 2 ^ 63 := by
    unfold limit millisecond at hlimit
    omega
  have hchars := toList_dayTimeText (millisecond * z) (congrArg Int.natAbs hz)
  have hdate : ∀ p ∈ optionalPart (z.natAbs / 86400000) 'D', IsPart p ∧ p.2 ≠ 'T' :=
    fun p hp => (isPart_optionalPart (by decide) p hp).imp_right fun h => by rw [h]; decide
  have htime : ∀ parts ∈ timeOf z.natAbs, parts ≠ [] ∧ ∀ p ∈ parts, IsPart p := by
    intro parts hparts
    unfold timeOf at hparts
    split at hparts
    · cases hparts
    · rw [← Option.mem_some.mp hparts]
      exact ⟨timeParts_ne_nil _, isPart_timeParts _⟩
  have hne : optionalPart (z.natAbs / 86400000) 'D' ≠ [] ∨ timeOf z.natAbs ≠ none := by
    unfold optionalPart timeOf
    by_cases hdays : z.natAbs / 86400000 = 0
    · exact .inr (by rw [if_neg (by omega)]; exact Option.some_ne_none _)
    · exact .inl (by rw [if_neg hdays]; exact List.cons_ne_nil _ _)
  have htrim := trim_write hchars (fun p hp => (hdate p hp).1) fun parts hp => (htime parts hp).2
  rw [parse?_write (by rw [htrim]; exact hchars) hdate htime hne, ofParts?_dayTime htotal,
    Option.bind_some]
  have hsign : millisecond * z < 0 ↔ z < 0 := by
    unfold millisecond
    omega
  simp only [Parsed.signed?, hsign, decide_eq_true_eq]
  refine congrArg (some ∘ Parsed.dayTime) ?_
  split <;> unfold millisecond <;> omega

/-! ### Years and months -/

/-- The components of a number of months; no months at all are written as such. -/
def monthParts (total : ℕ) : List Part :=
  if total / 12 = 0 then [((total % 12).repr.toList, 'M')]
  else ((total / 12).repr.toList, 'Y') :: optionalPart (total % 12) 'M'

theorem isPart_monthParts (total : ℕ) : ∀ p ∈ monthParts total, IsPart p ∧ p.2 ≠ 'T' := by
  unfold monthParts
  split_ifs
  · exact List.forall_mem_singleton.mpr ⟨isPart_repr _ (by decide), show 'M' ≠ 'T' by decide⟩
  · refine List.forall_mem_cons.mpr
      ⟨⟨isPart_repr _ (by decide), show 'Y' ≠ 'T' by decide⟩, fun p hp => ?_⟩
    exact (isPart_optionalPart (by decide) p hp).imp_right fun h => by rw [h]; decide

/-- The text of a years-and-months duration lists its components. -/
theorem toList_yearMonthText (months : ℤ) :
    (yearMonthText months).toList =
      write (decide (months < 0)) (monthParts months.natAbs) none := by
  unfold yearMonthText write monthParts optionalPart writeTime writeParts
  by_cases hneg : months < 0 <;> simp only [hneg, decide_true, decide_false]
  all_goals
    split_ifs <;> simp_all

/-- A component of years or months adds its months, where the amount and the sum fit. -/
theorem datePart?_monthPart {unit : Char} {s : ℤ} {amount : List Char} {rest : List Part}
    {months days : ℤ} {yearMonth : Bool} (hunit : unit = 'Y' ∧ s = 12 ∨ unit = 'M' ∧ s = 1)
    (hamount : IsInteger amount z) :
    datePart? ((amount, unit) :: rest) ⟨months, days, yearMonth⟩ =
      (fits? (z * s)).bind fun n => (fits? (months + n)).bind fun sum =>
        datePart? rest ⟨sum, days, true⟩ := by
  have hwhole := whole?_of_integer hamount
  rw [datePart?, hwhole, Option.bind_eq_bind]
  by_cases hz : -2 ^ 63 ≤ z ∧ z < 2 ^ 63
  · rw [fits?_eq_some hz, Option.bind_some]
    rcases hunit with ⟨rfl, rfl⟩ | ⟨rfl, rfl⟩
    · rfl
    · rw [Int.mul_one, fits?_eq_some hz]
      rfl
  · have hmonths : ¬ (-2 ^ 63 ≤ z * s ∧ z * s < 2 ^ 63) := by
      rcases hunit with ⟨-, rfl⟩ | ⟨-, rfl⟩ <;> omega
    rw [fits?_eq_none hz, fits?_eq_none hmonths]
    rfl

theorem datePart?_monthParts {total : ℕ} (h : total < 2 ^ 63) :
    datePart? (monthParts total) ⟨0, 0, false⟩ = some ⟨total, 0, true⟩ := by
  have hunit : 'M' = 'Y' ∧ (1 : ℤ) = 12 ∨ 'M' = 'M' ∧ (1 : ℤ) = 1 := .inr ⟨rfl, rfl⟩
  have hamount (n : ℕ) : IsInteger n.repr.toList n := .plain (isDigits_repr n)
  have hparse {months : ℤ} (hmonths : months = total) :
      datePart? [] ⟨months, 0, true⟩ = some ⟨total, 0, true⟩ := by rw [datePart?, hmonths]
  unfold monthParts optionalPart
  split_ifs with hyear hmonth
  · rw [datePart?_monthPart hunit (hamount _), fits?_eq_some (by omega), Option.bind_some,
      fits?_eq_some (by omega), Option.bind_some, hparse (by omega)]
  all_goals
    rw [datePart?_monthPart (.inl ⟨rfl, rfl⟩) (hamount _), fits?_eq_some (by omega),
      Option.bind_some, fits?_eq_some (by omega), Option.bind_some]
  · exact hparse (by omega)
  · rw [datePart?_monthPart hunit (hamount _), fits?_eq_some (by omega), Option.bind_some,
      fits?_eq_some (by omega), Option.bind_some, hparse (by omega)]

theorem ofParts?_monthParts {total : ℕ} (h : total < 2 ^ 63) :
    ofParts? (monthParts total) none = some (.yearMonth (Int64.ofInt total)) := by
  rw [ofParts?, datePart?_monthParts h, Option.bind_eq_bind, Option.bind_some]
  rfl

/-- **A years-and-months duration** is read back from its text, except for the longest negative
one: its months without the sign do not fit. -/
theorem parse?_yearMonthText {months : Int64} (h : months ≠ Int64.minValue) :
    parse? (yearMonthText months.toInt) = some (.yearMonth months) := by
  have hchars := toList_yearMonthText months.toInt
  have hparts := isPart_monthParts months.toInt.natAbs
  have hne : monthParts months.toInt.natAbs ≠ [] := by
    unfold monthParts
    split <;> exact List.cons_ne_nil _ _
  have hmin : months.toInt ≠ -2 ^ 63 := fun hmin => h (Int64.toInt_inj.mp hmin)
  have hlower := Int64.le_toInt months
  have hupper := Int64.toInt_lt months
  have htrim := trim_write hchars (fun p hp => (hparts p hp).1) (by simp)
  rw [parse?_write (by rw [htrim]; exact hchars) hparts (by simp) (.inl hne),
    ofParts?_monthParts (by omega), Option.bind_some]
  rw [Parsed.signed?]
  by_cases hneg : months.toInt < 0
  · rw [if_pos (decide_eq_true hneg), Int.ofNat_natAbs_of_nonpos (by omega), Int64.ofInt_neg,
      Int64.ofInt_toInt, Overflow.neg?, Overflow.result?, Option.map_some, Int64.neg_neg]
  · rw [if_neg (by simpa using hneg), Int.natAbs_of_nonneg (by omega), Int64.ofInt_toInt,
      Option.map_some]

end Duration

variable {κ : Type}

/-- **Both kinds of durations** are read back from their texts: any number of months but the least
of the range, and any number of milliseconds within the limits. -/
theorem Datum.parseDuration?_text :
    (∀ months : Int64, months ≠ Int64.minValue →
      parseDuration? (yearMonthDuration months : Datum κ).text =
        some (yearMonthDuration months : Datum κ)) ∧
    (∀ nanos : ℤ, Duration.inRange? nanos = some nanos → Duration.millisecond ∣ nanos →
      parseDuration? (dayTimeDuration nanos : Datum κ).text =
        some (dayTimeDuration nanos : Datum κ)) := by
  refine ⟨fun months h => ?_, fun nanos hrange hmillis => ?_⟩
  · rw [text, parseDuration?, Duration.parse?_yearMonthText h]
    rfl
  · rw [text, parseDuration?, Duration.parse?_dayTimeText hrange hmillis]
    rfl

/-- The longest negative durations of both kinds that are read back. -/
theorem Datum.parseDuration?_text_longest :
    parseDuration? (yearMonthDuration (Int64.minValue + 1) : Datum Unit).text =
        some (yearMonthDuration (Int64.minValue + 1) : Datum Unit) ∧
      parseDuration? (dayTimeDuration (-Duration.limit) : Datum Unit).text =
        some (dayTimeDuration (-Duration.limit) : Datum Unit) :=
  ⟨parseDuration?_text.1 _ (by decide), parseDuration?_text.2 _ (by decide) (by decide)⟩

end Feel
