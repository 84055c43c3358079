import Feel.Program.Compile
import Feel.Proofs.Refinement

/-!
# The programs of expressions

How the program of an expression comes about, for statements about all of them.

* `Program.inputScope`: what an expression over an input sees.
* `Program.of_ofExpression`: the steps from a text to its program.
* `Program.exists_run`: a run of a program, from what is seen of it.
-/

namespace Feel

namespace Program

/-- What an expression over an input of a type sees, where nothing else is asked for. -/
def inputScope (type : Ty) : Scope := { inputType := type }

/-- The fragment of a text comes from its parse tree and the term of the tree. -/
theorem of_fragment {scope : Scope} {source : String} {fragment : Fragment} {draft : Draft}
    (h : Fragment.ofExpression source scope {} = .ok (fragment, draft)) :
    ∃ tree term, Surface.parseExpression source scope.knownNames = .ok tree ∧
      Term.ofSurface source tree scope = .ok term ∧
      Fragment.ofTerm term scope (Draft.warn {} term.warnings) = .ok (fragment, draft) := by
  obtain ⟨⟨tree, d⟩, htree, hrun⟩ := bind_eq_ok.mp h
  obtain ⟨⟨term, d'⟩, hterm, hrun⟩ := bind_eq_ok.mp hrun
  have hrun : Fragment.ofTerm term scope (d'.warn term.warnings) = .ok (fragment, draft) := hrun
  obtain ⟨tree', htree', heq⟩ := bind_eq_ok.mp htree
  cases heq
  obtain ⟨term', hterm', heq⟩ := bind_eq_ok.mp hterm
  cases heq
  refine ⟨tree, term, ?_, hterm', hrun⟩
  cases hparse : Surface.parseExpression source scope.knownNames with
  | ok parsed =>
    rw [hparse] at htree'
    cases htree'
    rfl
  | error e =>
    rw [hparse] at htree'
    cases htree'

/-- The program of a text is the program of its fragment. -/
theorem of_ofExpression {entry : EntryPoint} {scope : Scope} {source : String} {p : Program}
    (h : ofExpression entry scope source = .ok p) :
    ∃ fragment draft, Fragment.ofExpression source scope {} = .ok (fragment, draft) ∧
      p = ofFragment entry .expression source none scope.options fragment draft := by
  obtain ⟨⟨fragment, draft⟩, hrun, hp⟩ := bind_eq_ok.mp h
  exact ⟨fragment, draft, hrun, (pure_eq_ok.mp hp).symm⟩

/-- A program that is compiled, with what is seen of it. -/
theorem exists_ok {ε α β : Type} {x : Except ε α} {see : α → β} {b : β}
    (h : x.toOption.map see = some b) : ∃ a, x = .ok a ∧ see a = b := by
  cases x with
  | error e => cases h
  | ok a => exact ⟨a, rfl, Option.some.inj h⟩

/-- A program that is compiled and run, with what is seen of both. -/
theorem exists_run {ε α : Type} {x : Except ε Program} {natives : Natives} {input : Value}
    {test : Option Value} {see : Program → Value → α} {a : α}
    (h : (x.toOption.bind fun p => (p.run natives input test).toOption.map (see p)) = some a) :
    ∃ p v, x = .ok p ∧ p.run natives input test = .ok v ∧ see p v = a := by
  cases x with
  | error e => cases h
  | ok p =>
    obtain ⟨v, hv, ha⟩ := Option.map_eq_some_iff.mp h
    refine ⟨p, v, rfl, ?_, ha⟩
    cases hrun : p.run natives input test with
    | error e =>
      rw [hrun] at hv
      cases hv
    | ok w =>
      rw [hrun] at hv
      cases hv
      rfl

end Program

end Feel
