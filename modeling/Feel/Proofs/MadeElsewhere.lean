import Feel.Proofs.PortableCode
import Feel.Proofs.RepeatedLowering
import Feel.Proofs.TableCells

/-!
# Code that differs in its cursors

An expression that is lowered twice into one draft gets cursors of other numbers the second time.
Code that differs in nothing but its cursors does the same, at whatever places it runs: it holds of
the same values, or fails in the same way, as far as what it sees was made elsewhere.

* `Code.Portable.rename_portable`: renamed code is portable.
* `Code.Alike`: code that is the same but for its cursors.
* `Datum.Elsewhere`, `Frame.Elsewhere`: nothing in sight was made at or below given places.
* `Program.holds_alike`: alike code holds of the same values.
-/

namespace Feel

/-! ### Renamed portable code -/

namespace Code.Portable

variable {R : Renaming} {c : Code}

theorem rebase_portable {cursor cursor' : String} {s : Code} (hs : s.Portable)
    (h : s.isStep cursor = true) : ((s.rename R).rebase cursor cursor').Portable := by
  have hlocal : (Code.local cursor').Portable :=
    portable_iff.mpr ⟨trivial, List.forall_mem_nil _⟩
  obtain ⟨op, mode, v, nullCheck, rfl⟩ | ⟨op, v, rfl⟩ := isStep_iff.mp h
  · have hv : (const v).Portable := hs.part (by simp [children])
    have hplain : v.Plain := hv.here
    rw [rebase_rename_arith, hplain.rename]
    exact portable_iff.mpr ⟨trivial, List.forall_mem_cons.mpr
      ⟨hlocal, List.forall_mem_singleton.mpr hv⟩⟩
  · have hv : (const v).Portable := hs.part (by simp [children])
    have hplain : v.Plain := hv.here
    rw [rebase_rename_temporal, hplain.rename]
    exact portable_iff.mpr ⟨trivial, List.forall_mem_cons.mpr
      ⟨hlocal, List.forall_mem_singleton.mpr hv⟩⟩

theorem renameDomain_portable {d : Domain Code} (hstepping : d.Stepping)
    (hcells : ∀ c ∈ d.cells, c.Portable) (ih : ∀ c ∈ d.cells, (c.rename R).Portable) :
    (renameDomain R d).Stepping ∧ ∀ c ∈ (renameDomain R d).cells, c.Portable := by
  cases d with
  | values c => exact ⟨trivial, List.forall_mem_singleton.mpr (ih c List.mem_cons_self)⟩
  | steps f l cursor s p =>
    obtain ⟨hs, hp⟩ := hstepping
    rw [renameDomain_steps hs hp]
    refine ⟨⟨isStep_rebase hs, isStep_rebase hp⟩, ?_⟩
    simp only [Domain.cells, List.forall_mem_cons] at hcells ih ⊢
    exact ⟨ih.1, ih.2.1, rebase_portable hcells.2.2.1 hs, rebase_portable hcells.2.2.2.1 hp,
      List.forall_mem_nil _⟩

theorem renameBindings_portable {bs : List (Binding Code)}
    (hstepping : ∀ b ∈ bs, b.domain.Stepping)
    (hcells : ∀ c ∈ bs.flatMap (·.domain.cells), c.Portable)
    (ih : ∀ c ∈ bs.flatMap (·.domain.cells), (c.rename R).Portable) :
    (∀ b ∈ renameBindings R bs, b.domain.Stepping) ∧
      ∀ c ∈ (renameBindings R bs).flatMap (·.domain.cells), c.Portable := by
  have hdomain : ∀ b ∈ bs, _ := fun b hb => renameDomain_portable (hstepping b hb)
    (cells_of_binding hcells hb) (cells_of_binding ih hb)
  rw [renameBindings_eq]
  refine ⟨List.forall_mem_map.mpr fun b hb => (hdomain b hb).1, fun c hc => ?_⟩
  obtain ⟨b', hb', hc⟩ := List.mem_flatMap.mp hc
  obtain ⟨b, hb, rfl⟩ := List.mem_map.mp hb'
  exact (hdomain b hb).2 c hc

/-- Renamed code is portable. -/
theorem rename_portable (hc : c.Portable) (R : Renaming) : (c.rename R).Portable := by
  revert hc
  refine partsInduction (P := fun c => c.Portable → (c.rename R).Portable) (fun c ih hc => ?_) c
  obtain ⟨hown, hparts⟩ := portable_iff.mp hc
  have ih : ∀ d ∈ c.children, (d.rename R).Portable := fun d hd => ih d hd (hparts d hd)
  have hrenamed : ∀ d ∈ c.children.map (rename R), d.Portable := List.forall_mem_map.mpr ih
  cases c with
  | const v =>
    have hv : v.Plain := hown
    show (const (v.rename R)).Portable
    rw [hv.rename]
    exact hc
  | list items =>
    show (list (renameList R items)).Portable
    rw [renameList_eq]
    exact portable_iff.mpr ⟨trivial, hrenamed⟩
  | context es =>
    show (context (renameEntries R es)).Portable
    rw [renameEntries_eq]
    refine portable_iff.mpr ⟨trivial, fun d hd => ?_⟩
    rw [children, List.map_map] at hd
    obtain ⟨e, he, rfl⟩ := List.mem_map.mp hd
    exact ih e.2 (List.mem_map_of_mem he)
  | range s e si ei =>
    show (range (renameOption R s) (renameOption R e) si ei).Portable
    rw [renameOption_eq, renameOption_eq]
    refine portable_iff.mpr ⟨trivial, ?_⟩
    rw [children, Option.toList_map, Option.toList_map, ← List.map_append]
    exact List.forall_mem_map.mpr ih
  | forIn bs body =>
    obtain ⟨hstepping, hcells⟩ := renameBindings_portable (R := R) hown
      (fun d hd => hparts d (List.mem_append_left _ hd))
      fun d hd => ih d (List.mem_append_left _ hd)
    exact portable_iff.mpr ⟨hstepping, List.forall_mem_append.mpr
      ⟨hcells, List.forall_mem_singleton.mpr (ih body (by simp [children]))⟩⟩
  | quantified every bs condition =>
    obtain ⟨hstepping, hcells⟩ := renameBindings_portable (R := R) hown
      (fun d hd => hparts d (List.mem_append_left _ hd))
      fun d hd => ih d (List.mem_append_left _ hd)
    exact portable_iff.mpr ⟨hstepping, List.forall_mem_append.mpr
      ⟨hcells, List.forall_mem_singleton.mpr (ih condition (by simp [children]))⟩⟩
  | call target args names =>
    cases target with
    | builtin name =>
      show (call (.builtin name) (renameList R args) names).Portable
      rw [renameList_eq]
      exact portable_iff.mpr ⟨trivial, hrenamed⟩
    | value callee =>
      show (call (.value (callee.rename R)) (renameList R args) names).Portable
      rw [renameList_eq]
      exact portable_iff.mpr ⟨trivial, hrenamed⟩
  | decision t => exact hown.elim
  | constRef i => exact hc
  | input => exact hc
  | testInput => exact hc
  | «local» name => exact hc
  | inputField name => exact hc
  | _ => exact portable_iff.mpr ⟨trivial, hrenamed⟩

end Code.Portable

/-! ### Code that is the same but for its cursors -/

/-- Renaming can give all cursors one name, so that it does not tell their numbers apart. -/
def Renaming.Merges (R : Renaming) : Prop := ∀ x y, R.cursor x = R.cursor y

namespace Code

/-- Renamings that merge all cursors to one name make the two the same code. -/
def Alike (c d : Code) : Prop :=
  ∀ A B : Renaming, A.cursor = B.cursor → A.Merges → c.rename A = d.rename B

theorem Portable.alike {c : Code} (h : c.Portable) : c.Alike c := fun _ _ hcursor _ =>
  h.rename_congr hcursor

/-- Code is like the code with its cursors renamed. -/
theorem Portable.alike_rename {c : Code} (h : c.Portable) (R : Renaming) :
    c.Alike (c.rename R) := fun A B hcursor hmerges => by
  refine (h.rename_rename fun x => ?_).symm
  rw [← congrFun hcursor, hmerges]

theorem Alike.symm {c d : Code} (h : c.Alike d) : d.Alike c := fun A B hcursor hmerges =>
  (h B A hcursor.symm fun x y => by rw [← hcursor, hmerges x y]).symm

/-- Constant parts of alike code are alike. -/
theorem Alike.simplify {c d : Code} (h : c.Alike d) (hc : c.Portable) (hd : d.Portable)
    {pool : List Value} (hpool : ∀ w ∈ pool, w.Unplaced) (precision : Nat) :
    (c.simplify pool precision).Alike (d.simplify pool precision) := by
  intro A B hcursor hmerges
  rw [← hc.simplify_rename fun w hw => hpool w hw A, h A B hcursor hmerges,
    hd.simplify_rename fun w hw => hpool w hw B]

end Code

/-! ### What was made elsewhere -/

namespace Renaming

/-- A renaming that moves no place but those at or below given ones. -/
def MovesOnly (R : Renaming) (places : List Site) : Prop :=
  ∀ p, (∀ a ∈ places, ¬ a <:+ p) → R.place p = p

/-- The renaming that does the same to cursors and leaves all places. -/
def onCursors (R : Renaming) : Renaming := ⟨id, R.cursor, Function.injective_id⟩

theorem onCursors_carries (R : Renaming) (site : Site) : R.onCursors.Carries site site :=
  fun _ => rfl

theorem MovesOnly.carries {R : Renaming} {places : List Site} (h : R.MovesOnly places)
    {site : Site} (hsite : ∀ a ∈ places, a.Apart site) : R.Carries site site := fun x =>
  h _ fun a ha => (hsite a ha).not_suffix_append x

end Renaming

/-- No closure of the value was made at or below the places: a renaming that moves only these sees
nothing of the value but its cursors. -/
def Datum.Elsewhere (places : List Site) (v : Value) : Prop :=
  ∀ R : Renaming, R.MovesOnly places → v.rename R = v.rename R.onCursors

/-- No closure in sight was made at or below the places. -/
def Frame.Elsewhere (places : List Site) (frame : Frame) : Prop :=
  ∀ R : Renaming, R.MovesOnly places → frame.rename R = frame.rename R.onCursors

section Elsewhere

variable {places places' : List Site} {v : Value} {frame : Frame}

theorem Renaming.MovesOnly.mono {R : Renaming} (h : R.MovesOnly places)
    (hsub : ∀ a ∈ places, ∃ b ∈ places', b <:+ a) : R.MovesOnly places' := by
  refine fun p hp => h p fun a ha hap => ?_
  obtain ⟨b, hb, hba⟩ := hsub a ha
  exact hp b hb (hba.trans hap)

theorem Datum.Elsewhere.mono (h : v.Elsewhere places')
    (hsub : ∀ a ∈ places, ∃ b ∈ places', b <:+ a) : v.Elsewhere places := fun R hR =>
  h R (hR.mono hsub)

theorem Frame.Elsewhere.mono (h : frame.Elsewhere places')
    (hsub : ∀ a ∈ places, ∃ b ∈ places', b <:+ a) : frame.Elsewhere places := fun R hR =>
  h R (hR.mono hsub)

/-- Values without functions were not made anywhere. -/
theorem Datum.Plain.elsewhere (h : v.Plain) (places : List Site) : v.Elsewhere places :=
  fun R _ => (h.rename R).trans (h.rename R.onCursors).symm

/-- The frame of a run over an input without functions. -/
theorem Frame.elsewhere_ofInput {input : Value} (h : input.Plain) (places : List Site) :
    (Frame.ofInput input).Elsewhere places := fun R hR => by
  rw [Frame.ofInput, Frame.rename, Frame.rename, h.elsewhere places R hR]
  rfl

end Elsewhere

/-! ### Runs -/

namespace Program

variable {natives : Natives} {o : Options} {pool : List Value} {c d : Code} {site site' : Site}
  {frame : Frame} {v : Value}

/-- In programs alike code stays alike. -/
theorem finished_alike (h : c.Alike d) (hc : c.Portable) (hd : d.Portable)
    (hpool : ∀ w ∈ pool, w.Unplaced) : (finished o pool c).Alike (finished o pool d) := by
  unfold finished
  split
  · exact h.simplify hc hd hpool o.precision
  · exact h

/-- **Alike code holds of the same values**, wherever it runs. -/
theorem holds_alike (hnatives : natives.Uniform) (h : c.Alike d) (hc : c.Portable)
    (hd : d.Portable) (hpool : ∀ w ∈ pool, w.Unplaced) (hframe : frame.Elsewhere [site, site'])
    (hv : v.Elsewhere [site, site']) :
    (action o natives pool d).holds site' frame v =
      (action o natives pool c).holds site frame v := by
  obtain ⟨R, hR, hcarries⟩ := Renaming.exists_carries site site'
  let A : Renaming := ⟨R.place, fun _ => "", R.place_injective⟩
  have hmoves : A.MovesOnly [site, site'] := hR.place
  have hmerges : A.Merges := fun _ _ => rfl
  have halike := finished_alike (o := o) h hc hd hpool
  have hunplaced : ∀ R : Renaming, ∀ w ∈ pool, w.rename R = w := fun R w hw => hpool w hw R
  rcases hcarries with hcarries | hcarries
  · exact Code.Portable.holds_eq_of_rename_eq hnatives (hunplaced A) (hunplaced A.onCursors)
      hcarries (A.onCursors_carries site') (hframe A hmoves) (hv A hmoves)
      (halike A A.onCursors rfl hmerges)
  · exact Code.Portable.holds_eq_of_rename_eq hnatives (hunplaced A.onCursors) (hunplaced A)
      (A.onCursors_carries site) hcarries (hframe A hmoves).symm (hv A hmoves).symm
      (halike A.onCursors A rfl hmerges)

end Program

end Feel
