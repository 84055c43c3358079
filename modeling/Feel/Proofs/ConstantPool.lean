import Feel.Fragment.Draft
import Feel.Proofs.Equality
import Feel.Proofs.Simplify

/-!
# The constant pool

A value takes the place of the first pooled value of its type that is the same, and a place of
its own where there is none; what is in the pool never changes. The same is not identical: numbers
are the same whatever their representation, and a list of an integer and a decimal has the type of
a list of a decimal and an integer. The type tells representations apart in values whose lists have
elements of one type and whose ranges have bounds of one type. Elsewhere a literal gets the numbers
of an earlier one.

* `Draft.internAll`: a draft after more values were pooled.
* `Draft.representative`: the value that stands at the place of another.
* `Datum.Uniform`: values in which types tell the representations of numbers apart.
* `Datum.SameForm`: values that are identical but for equal numbers of one representation.
* `Draft.interned_iff`: what the place of a value holds, and what a literal evaluates to.
-/

namespace Feel

/-! ### Places -/

namespace Draft

/-- The draft after values were pooled one after the other. -/
def internAll (d : Draft) (vs : List Value) : Draft := vs.foldl (fun d v => (d.intern v).2) d

theorem internAll_cons (d : Draft) (v : Value) (vs : List Value) :
    d.internAll (v :: vs) = (d.intern v).2.internAll vs := rfl

theorem constants_internAll (d : Draft) (vs : List Value) :
    d.constants <+: (d.internAll vs).constants := by
  induction vs generalizing d with
  | nil => exact List.prefix_refl _
  | cons v vs ih =>
    obtain ⟨more, hmore⟩ := d.constants_intern v
    exact List.IsPrefix.trans ⟨more, hmore.symm⟩ (ih _)

theorem mem_intern {d : Draft} {v w : Value} (h : w ∈ (d.intern v).2.constants) :
    w ∈ d.constants ∨ w = v := by
  unfold intern at h
  split at h
  · exact .inl h
  · rcases List.mem_append.mp h with h | h
    · exact .inl h
    · exact .inr (List.mem_singleton.mp h)

/-- Nothing is in a pool but what was there and what was pooled. -/
theorem mem_internAll {d : Draft} {vs : List Value} {w : Value}
    (h : w ∈ (d.internAll vs).constants) : w ∈ d.constants ∨ w ∈ vs := by
  induction vs generalizing d with
  | nil => exact .inl h
  | cons v vs ih =>
    rcases ih (internAll_cons d v vs ▸ h) with h | h
    · rcases mem_intern h with h | rfl
      · exact .inl h
      · exact .inr List.mem_cons_self
    · exact .inr (List.mem_cons_of_mem _ h)

/-- The first pooled value that a value can share a place with, or the value itself. -/
def representative (d : Draft) (v : Value) : Value := (d.constants.find? (sharesPlace · v)).getD v

theorem representative_eq_iff {d : Draft} {v : Value} : d.representative v = v ↔
    ∀ w, d.constants.find? (sharesPlace · v) = some w → w = v := by
  unfold representative
  cases d.constants.find? (sharesPlace · v) <;> simp

theorem representative_cases (d : Draft) (v : Value) : d.representative v = v ∨
    d.representative v ∈ d.constants ∧ sharesPlace (d.representative v) v = true := by
  unfold representative
  cases h : d.constants.find? (sharesPlace · v) with
  | none => exact .inl rfl
  | some w => exact .inr ⟨List.mem_of_find?_eq_some h, (List.find?_eq_some_iff_append.mp h).1⟩

/-- The place of a value holds its representative. -/
theorem getElem?_intern (d : Draft) (v : Value) :
    (d.intern v).2.constants[(d.intern v).1]? = some (d.representative v) := by
  unfold intern representative
  rw [List.find?_eq_bind_findIdx?_getElem?]
  cases h : d.constants.findIdx? (sharesPlace · v) with
  | none => simp
  | some i =>
    obtain ⟨hlt, -⟩ := List.findIdx?_eq_some_iff_getElem.mp h
    simp [List.getElem?_eq_getElem hlt]

/-- It holds it from then on. -/
theorem getElem?_internAll (d : Draft) (v : Value) (ws : List Value) :
    ((d.intern v).2.internAll ws).constants[(d.intern v).1]? = some (d.representative v) := by
  obtain ⟨more, hmore⟩ := constants_internAll (d.intern v).2 ws
  rw [← hmore, List.getElem?_append_left (d.intern_lt v)]
  exact getElem?_intern d v

end Draft

/-! ### Types that tell representations apart -/

/-- A value in which the elements of each list have one type, nulls apart, the bounds of each range
have one type, and each context has each name once. -/
inductive Datum.Uniform : Value → Prop
  | null : Uniform .null
  | boolean (b : Bool) : Uniform (.boolean b)
  | number (n : Number) : Uniform (.number n)
  | string (s : String) : Uniform (.string s)
  | date (d : Date) : Uniform (.date d)
  | time (t : Time) : Uniform (.time t)
  | dateTime (t : DateTime) : Uniform (.dateTime t)
  | dayTimeDuration (n : Int) : Uniform (.dayTimeDuration n)
  | yearMonthDuration (m : Int64) : Uniform (.yearMonthDuration m)
  | list {items : List Value} (t : Ty) (htype : ∀ v ∈ items, v = .null ∨ v.type = t)
      (h : ∀ v ∈ items, Uniform v) : Uniform (.list items)
  | context {entries : List (String × Value)} (hnames : (entries.map (·.1)).Nodup)
      (h : ∀ e ∈ entries, Uniform e.2) : Uniform (.context entries)
  | range {s e : Option Value} {si ei : Bool}
      (htype : ∀ v w, s = some v → e = some w → w.type = v.type)
      (hs : ∀ v, s = some v → Uniform v) (he : ∀ v, e = some v → Uniform v) :
      Uniform (.range s e si ei)

/-- Values that are identical but for numbers, which are equal and of one representation. -/
inductive Datum.SameForm : Value → Value → Prop
  | self (v : Value) : SameForm v v
  | number {m n : Number} (hkind : m.kind = n.kind) (h : m.equal n = true) :
      SameForm (.number m) (.number n)
  | list {vs ws : List Value} (h : List.Forall₂ SameForm vs ws) : SameForm (.list vs) (.list ws)
  | context {es fs : List (String × Value)} (hnames : es.map (·.1) = fs.map (·.1))
      (h : List.Forall₂ SameForm (es.map (·.2)) (fs.map (·.2))) :
      SameForm (.context es) (.context fs)
  | range {s e t f : Option Value} {si ei : Bool} (hs : Option.Rel SameForm s t)
      (he : Option.Rel SameForm e f) : SameForm (.range s e si ei) (.range t f si ei)

namespace Ty

/-- Types that are one type, nulls apart, join to it. -/
theorem joinAll_of_uniform {t : Ty} {ts : List Ty} (h : ∀ u ∈ ts, u = null ∨ u = t)
    (ht : t ∈ ts) : joinAll ts = t := by
  have hfold : ∀ (us : List Ty) (acc : Ty), (∀ u ∈ us, u = null ∨ u = t) → acc = null ∨ acc = t →
      acc = t ∨ t ∈ us → us.foldl join acc = t := by
    intro us
    induction us with
    | nil =>
      intro acc _ _ hmem
      rcases hmem with rfl | hmem
      · rfl
      · cases hmem
    | cons u us ih =>
      intro acc hus hacc hmem
      rw [List.forall_mem_cons] at hus
      have hnext : acc.join u = null ∨ acc.join u = t := by
        rcases hacc with rfl | rfl <;> rcases hus.1 with rfl | rfl <;> simp
      refine ih _ hus.2 hnext ?_
      rcases hmem with rfl | hmem
      · left
        rcases hus.1 with rfl | rfl <;> simp
      · rcases List.mem_cons.mp hmem with rfl | hmem
        · left
          rcases hacc with rfl | rfl <;> simp
        · exact .inr hmem
  rw [joinAll_eq_foldl (List.ne_nil_of_mem ht)]
  exact hfold ts null h (.inl rfl) (.inr ht)

end Ty

namespace Datum

variable {v w : Value}

/-- Items of two lists of one type, each of which has items of one type, have one type where they
are the same. -/
theorem type_eq_of_items {vs ws : List Value} {t u : Ty} (hvs : ∀ v ∈ vs, v = .null ∨ v.type = t)
    (hws : ∀ w ∈ ws, w = .null ∨ w.type = u) (htype : (list vs).type = (list ws).type)
    (hv : v ∈ vs) (hw : w ∈ ws) (hsame : v.same w = true) : v.type = w.type := by
  have htypes : ∀ {xs : List Value} {r : Ty}, (∀ x ∈ xs, x = .null ∨ x.type = r) →
      ∀ s ∈ xs.map type, s = .null ∨ s = r := by
    intro xs r h s hs
    obtain ⟨x, hx, rfl⟩ := List.mem_map.mp hs
    exact (h x hx).imp (fun e => by rw [e, type]) id
  rcases hvs v hv with rfl | hvt
  · cases w <;> first | rfl | simp [same] at hsame
  · rcases hws w hw with rfl | hwu
    · cases v <;> first | rfl | simp [same] at hsame
    · have hjoin : Ty.joinAll (vs.map type) = t :=
        Ty.joinAll_of_uniform (htypes hvs) (hvt ▸ List.mem_map_of_mem hv)
      have hjoin' : Ty.joinAll (ws.map type) = u :=
        Ty.joinAll_of_uniform (htypes hws) (hwu ▸ List.mem_map_of_mem hw)
      rw [type_list, type_list, hjoin, hjoin'] at htype
      rw [hvt, hwu, Ty.list.inj htype]

/-- Entries of two contexts of one type that stand at one position. -/
theorem forall₂_of_contexts {es fs : List (String × Value)}
    (h : (context es).type = (context fs).type) :
    List.Forall₂ (fun e f => e.1 = f.1 ∧ e.2.type = f.2.type) es fs := by
  rw [type, type, entryTypes_eq, entryTypes_eq] at h
  have hentries := List.forall₂_eq_eq_eq ▸ Ty.context.inj h
  rw [List.forall₂_map_left_iff, List.forall₂_map_right_iff] at hentries
  exact hentries.imp fun _ _ h => Prod.mk.inj h

/-- **Types tell representations apart**: uniform values of one type that are the same have one
form. -/
theorem Uniform.sameForm (hv : v.Uniform) (hw : w.Uniform) (htype : v.type = w.type)
    (hsame : v.same w = true) : v.SameForm w := by
  induction hv generalizing w with
  | number m =>
    cases w with
    | number n =>
      rw [type, type] at htype
      rw [same] at hsame
      exact .number (Ty.number.inj htype) hsame
    | _ => simp [same] at hsame
  | @list vs t ht hvs ih =>
    cases hw with
    | @list ws u hu hws =>
      have hitems := List.forall₂_iff_zip.mp (same_list_iff.mp hsame)
      refine .list (List.forall₂_iff_zip.mpr ⟨hitems.1, fun {a b} hab => ?_⟩)
      obtain ⟨ha, hb⟩ := List.of_mem_zip hab
      have hsame := hitems.2 hab
      exact ih a ha (hws b hb) (type_eq_of_items ht hu htype ha hb hsame) hsame
    | _ => simp [same] at hsame
  | @context es hnames hes ih =>
    cases hw with
    | @context fs hnames' hfs =>
      have hentries := forall₂_of_contexts htype
      have hlookup := (same_context_iff hnames hnames').mp hsame
      refine .context ?_ ?_
      · exact List.forall₂_eq_eq_eq ▸ List.forall₂_map_left_iff.mpr
          (List.forall₂_map_right_iff.mpr (hentries.imp fun _ _ h => h.1))
      · rw [List.forall₂_map_left_iff, List.forall₂_map_right_iff]
        refine List.forall₂_iff_zip.mpr ⟨hentries.length_eq, fun {e f} hef => ?_⟩
        obtain ⟨he, hf⟩ := List.of_mem_zip hef
        obtain ⟨hname, htype⟩ := (List.forall₂_iff_zip.mp hentries).2 hef
        have hsame := hlookup e.1
        rw [(Entries.lookup_eq_some_iff_mem hnames).mpr he, hname,
          (Entries.lookup_eq_some_iff_mem hnames').mpr hf, Option.rel_some_some] at hsame
        exact ih e he (hfs f hf) htype hsame
    | _ => simp [same] at hsame
  | @range s e si ei hbounds hs he ihs ihe =>
    cases hw with
    | @range t f ti fi hbounds' ht hf =>
      obtain ⟨hstart, hfinish, rfl, rfl⟩ := same_range_iff.mp hsame
      rw [type, type] at htype
      have htype := (Ty.range.inj htype).1
      cases hstart with
      | none =>
        cases hfinish with
        | none => exact .range .none .none
        | some h => exact .range .none (.some (ihe _ rfl (hf _ rfl) htype h))
      | some h =>
        refine .range (.some (ihs _ rfl (ht _ rfl) htype h)) ?_
        cases hfinish with
        | none => exact .none
        | some h' =>
          refine .some (ihe _ rfl (hf _ rfl) ?_ h')
          rw [hbounds _ _ rfl rfl, hbounds' _ _ rfl rfl]
          exact htype
    | _ => simp [same] at hsame
  | _ =>
    cases w <;> first
      | (simp [same] at hsame; done)
      | (simp only [same, beq_iff_eq] at hsame; rw [hsame]; exact .self _)
      | exact .self _

end Datum

/-! ### Pooled values -/

namespace Draft

/-- The code of a value loads the value itself or its representative. -/
theorem valueIn?_constantCode (d : Draft) (v : Value) (ws : List Value) :
    (d.constantCode v).1.valueIn? ((d.constantCode v).2.internAll ws).constants =
      some (if isInline v then v else d.representative v) := by
  unfold constantCode
  split
  · rfl
  · exact getElem?_internAll d v ws

/-- **The constant pool.** After any values were pooled, a value is pooled, and more after it. What
was in the pool is still there. At the place of the value there is a value that is the same and of
its type, if not the value itself; it is the value itself if and only if the first pooled value that
is the same and of its type is identical to it; and where all values are uniform its numbers have
the representations of those of the value. This is what a literal of the value evaluates to, unless
its value is inline. -/
theorem interned_iff (vs : List Value) (v : Value) (ws : List Value) :
    let d := ({} : Draft).internAll vs
    let pool := ((d.intern v).2.internAll ws).constants
    d.constants <+: pool ∧
      ∃ w, pool[(d.intern v).1]? = some w ∧
        (w = v ∨ w.same v = true ∧ w.type = v.type) ∧
        (w = v ↔ ∀ u, d.constants.find? (fun u => u.same v && u.type == v.type) = some u → u = v) ∧
        ((∀ u ∈ v :: vs, u.Uniform) → w.SameForm v) ∧
        ∀ natives precision frame,
          (d.constantCode v).1.run natives ((d.constantCode v).2.internAll ws).constants precision
            frame = .ok (if isInline v then v else w) := by
  intro d pool
  obtain ⟨more, hmore⟩ := d.constants_intern v
  have hgrows : d.constants <+: pool :=
    List.IsPrefix.trans ⟨more, hmore.symm⟩ (constants_internAll _ ws)
  have hcases : d.representative v = v ∨ d.representative v ∈ d.constants ∧
      (d.representative v).same v = true ∧ (d.representative v).type = v.type := by
    refine (d.representative_cases v).imp_right fun ⟨hmem, hshare⟩ => ⟨hmem, ?_⟩
    simpa [sharesPlace] using hshare
  refine ⟨hgrows, d.representative v, getElem?_internAll d v ws, hcases.imp_right And.right,
    representative_eq_iff, fun huniform => ?_, fun natives precision frame => ?_⟩
  · rcases hcases with heq | ⟨hmem, hsame, htype⟩
    · rw [heq]
      exact .self v
    · obtain hnone | hpooled := mem_internAll hmem
      · cases hnone
      · exact (huniform _ (List.mem_cons_of_mem _ hpooled)).sameForm
          (huniform v List.mem_cons_self) htype hsame
  · exact Code.denote_of_valueIn? (valueIn?_constantCode d v ws) [] frame

/-- After a list of an integer and a decimal, the place of the list of the same numbers as a decimal
and an integer holds another value; after a list of integers, that of decimals holds its own. -/
theorem interned_iff_mixed :
    let one : Value := .number (.decimal ⟨10, 1⟩)
    let two : Value := .number (.decimal ⟨20, 1⟩)
    let mixed : Value := .list [.int 1, two]
    let crossed : Value := .list [one, .int 2]
    let integers : Value := .list [.int 1, .int 2]
    let decimals : Value := .list [one, two]
    let place (v w : Value) :=
      let d := ({} : Draft).internAll [v]
      (d.intern w).2.constants[(d.intern w).1]?
    (∃ w, place mixed crossed = some w ∧ w ≠ crossed) ∧
      (∃ w, place integers decimals = some w ∧ w.SameForm decimals) := by
  intro one two mixed crossed integers decimals place
  constructor
  · have hshared : (mixed.same crossed && mixed.type == crossed.type) = true := by decide +kernel
    obtain ⟨-, w, hw, -, hiff, -⟩ := interned_iff [mixed] crossed []
    refine ⟨w, hw, fun heq => ?_⟩
    have hfirst : mixed = crossed := hiff.mp heq mixed (List.find?_cons_of_pos hshared)
    injection hfirst with hitems
    injection hitems with hone
    injection hone with hnumber
    cases hnumber
  · obtain ⟨-, w, hw, -, -, hform, -⟩ := interned_iff [integers] decimals []
    refine ⟨w, hw, hform (List.forall_mem_cons.mpr ⟨?_, List.forall_mem_singleton.mpr ?_⟩)⟩
    · refine .list (.number .decimal) ?_ ?_ <;> rw [List.forall_mem_cons, List.forall_mem_singleton]
      · exact ⟨.inr rfl, .inr rfl⟩
      · exact ⟨.number _, .number _⟩
    · refine .list (.number .integer) ?_ ?_ <;> rw [List.forall_mem_cons, List.forall_mem_singleton]
      · exact ⟨.inr rfl, .inr rfl⟩
      · exact ⟨.number _, .number _⟩

end Draft

end Feel
