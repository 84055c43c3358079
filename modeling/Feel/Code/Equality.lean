import Feel.Code.Basic

/-!
# Equality of code

Structural equality of trees. Constants are compared as values, so that numbers are equal
whatever their representation.

* `Code.same`: trees of one form, with the same labels and the same parts.
* `Code.bare`: the root of a tree without its parts.
* `Code.same_plain`: equality of roots and of parts.
-/

namespace Feel

namespace Code

mutual

/-- Structural equality. -/
def same : Code → Code → Bool
  | const v, d => match d with
    | const w => v.same w
    | _ => false
  | constRef i, d => match d with
    | constRef j => i == j
    | _ => false
  | input, d => match d with
    | input => true
    | _ => false
  | testInput, d => match d with
    | testInput => true
    | _ => false
  | «local» n, d => match d with
    | «local» m => n == m
    | _ => false
  | inputField n, d => match d with
    | inputField m => n == m
    | _ => false
  | member s n, d => match d with
    | member t m => same s t && n == m
    | _ => false
  | arith o m l r n, d => match d with
    | arith o' m' l' r' n' => o == o' && m == m' && same l l' && same r r' && n == n'
    | _ => false
  | concat l r, d => match d with
    | concat l' r' => same l l' && same r r'
    | _ => false
  | temporal o l r, d => match d with
    | temporal o' l' r' => o == o' && same l l' && same r r'
    | _ => false
  | compare o m l r, d => match d with
    | compare o' m' l' r' => o == o' && m == m' && same l l' && same r r'
    | _ => false
  | equal m n l r, d => match d with
    | equal m' n' l' r' => m == m' && n == n' && same l l' && same r r'
    | _ => false
  | logic o s l r, d => match d with
    | logic o' s' l' r' => o == o' && s == s' && same l l' && same r r'
    | _ => false
  | not c, d => match d with
    | not d => same c d
    | _ => false
  | negate c, d => match d with
    | negate d => same c d
    | _ => false
  | dynamic o l r, d => match d with
    | dynamic o' l' r' => o == o' && same l l' && same r r'
    | _ => false
  | ite c y n, d => match d with
    | ite c' y' n' => same c c' && same y y' && same n n'
    | _ => false
  | list a, d => match d with
    | list b => sameList a b
    | _ => false
  | context a, d => match d with
    | context b => sameEntries a b
    | _ => false
  | range s e si ei, d => match d with
    | range s' e' si' ei' => sameOption s s' && sameOption e e' && si == si' && ei == ei'
    | _ => false
  | between v l h, d => match d with
    | between v' l' h' => same v v' && same l l' && same h h'
    | _ => false
  | instanceOf v t, d => match d with
    | instanceOf v' t' => same v v' && t == t'
    | _ => false
  | filter s f k, d => match d with
    | filter s' f' k' => same s s' && same f f' && k == k'
    | _ => false
  | forIn bs b, d => match d with
    | forIn bs' b' => sameBindings bs bs' && same b b'
    | _ => false
  | quantified e bs c, d => match d with
    | quantified e' bs' c' => e == e' && sameBindings bs bs' && same c c'
    | _ => false
  | function ps b t, d => match d with
    | function ps' b' t' => ps == ps' && same b b' && t == t'
    | _ => false
  | call g as ns, d => match d with
    | call g' as' ns' => sameTarget g g' && sameList as as' && ns == ns'
    | _ => false
  | convert v t, d => match d with
    | convert v' t' => same v v' && t == t'
    | _ => false
  | unaryMatch t, d => match d with
    | unaryMatch t' => same t t'
    | _ => false
  | listContains l v, d => match d with
    | listContains l' v' => same l l' && same v v'
    | _ => false
  | rangeContains r v, d => match d with
    | rangeContains r' v' => same r r' && same v v'
    | _ => false
  | withTestInput s b, d => match d with
    | withTestInput s' b' => same s s' && same b b'
    | _ => false
  | decision t, d => match d with
    | decision t' => sameMatrix t t'
    | _ => false
termination_by c => sizeOf c
decreasing_by all_goals simp_wf <;> omega

def sameList : List Code → List Code → Bool
  | [], [] => true
  | a :: as, b :: bs => same a b && sameList as bs
  | _, _ => false
termination_by cs => sizeOf cs
decreasing_by all_goals simp_wf <;> omega

def sameEntries : List (String × Code) → List (String × Code) → Bool
  | [], [] => true
  | (n, a) :: as, (m, b) :: bs => n == m && same a b && sameEntries as bs
  | _, _ => false
termination_by es => sizeOf es
decreasing_by all_goals simp_wf <;> omega

def sameOption : Option Code → Option Code → Bool
  | none, none => true
  | some a, some b => same a b
  | _, _ => false
termination_by c => sizeOf c
decreasing_by all_goals simp_wf <;> omega

def sameBindings : List (Binding Code) → List (Binding Code) → Bool
  | [], [] => true
  | ⟨n, d⟩ :: as, ⟨m, e⟩ :: bs => n == m && sameDomain d e && sameBindings as bs
  | _, _ => false
termination_by bs => sizeOf bs
decreasing_by all_goals simp_wf <;> omega

def sameDomain : Domain Code → Domain Code → Bool
  | .values a, .values b => same a b
  | .steps f l c s p, .steps f' l' c' s' p' =>
    same f f' && same l l' && c == c' && same s s' && same p p'
  | _, _ => false
termination_by d => sizeOf d
decreasing_by all_goals simp_wf <;> omega

def sameTarget : Target Code → Target Code → Bool
  | .builtin n, .builtin m => n == m
  | .value a, .value b => same a b
  | _, _ => false
termination_by t => sizeOf t
decreasing_by all_goals simp_wf <;> omega

def sameMatrix : DecisionMatrix Code → DecisionMatrix Code → Bool
  | ⟨n, is, rs, os, p, a, s⟩, ⟨n', is', rs', os', p', a', s'⟩ =>
    n == n' && sameList is is' && sameRules rs rs' && sameOutputs os os' && p == p' &&
      a == a' && s == s'
termination_by t => sizeOf t
decreasing_by all_goals simp_wf <;> omega

def sameRules : List (MatrixRule Code) → List (MatrixRule Code) → Bool
  | [], [] => true
  | ⟨cs, os⟩ :: as, ⟨ds, ps⟩ :: bs => sameList cs ds && sameList os ps && sameRules as bs
  | _, _ => false
termination_by rs => sizeOf rs
decreasing_by all_goals simp_wf <;> omega

def sameOutputs : List (MatrixOutput Code) → List (MatrixOutput Code) → Bool
  | [], [] => true
  | ⟨n, c, ps, d⟩ :: as, ⟨n', c', ps', d'⟩ :: bs =>
    n == n' && sameOption c c' && sameList ps ps' && sameOption d d' && sameOutputs as bs
  | _, _ => false
termination_by os => sizeOf os
decreasing_by all_goals simp_wf <;> omega

end

/-- Code of different forms is not the same. -/
theorem same_of_ctorIdx_ne {c d : Code} (h : c.ctorIdx ≠ d.ctorIdx) : c.same d = false := by
  cases c <;> rw [same] <;> intros <;> subst_vars <;> exact h rfl

/-! ### Forms and parts -/

/-- Whether the root is neither a constant nor an iteration nor a table. -/
def isPlain : Code → Bool
  | const _ | constRef _ | forIn _ _ | quantified _ _ _ | decision _ => false
  | _ => true

/-- The root of a tree, with leaves in the places of its parts. -/
def bare : Code → Code
  | member _ name => member input name
  | arith op mode _ _ nullCheck => arith op mode input input nullCheck
  | concat _ _ => concat input input
  | temporal op _ _ => temporal op input input
  | compare op mode _ _ => compare op mode input input
  | equal mode negated _ _ => equal mode negated input input
  | logic op shortCircuit _ _ => logic op shortCircuit input input
  | not _ => not input
  | negate _ => negate input
  | dynamic op _ _ => dynamic op input input
  | ite _ _ _ => ite input input input
  | list items => list (items.map fun _ => input)
  | context entries => context (entries.map fun e => (e.1, input))
  | range s f si ei => range (s.map fun _ => input) (f.map fun _ => input) si ei
  | between _ _ _ => between input input input
  | instanceOf _ target => instanceOf input target
  | filter _ _ kind => filter input input kind
  | function params _ type => function params input type
  | call (.builtin name) args names => call (.builtin name) (args.map fun _ => input) names
  | call (.value _) args names => call (.value input) (args.map fun _ => input) names
  | convert _ target => convert input target
  | unaryMatch _ => unaryMatch input
  | listContains _ _ => listContains input input
  | rangeContains _ _ => rangeContains input input
  | withTestInput _ _ => withTestInput input input
  | c => c

theorem sameList_bare (cs ds : List Code) : sameList cs ds =
    (sameList (cs.map fun _ => input) (ds.map fun _ => input) && sameList cs ds) := by
  induction cs generalizing ds with
  | nil => cases ds <;> simp [sameList]
  | cons c cs ih =>
    cases ds with
    | nil => simp [sameList]
    | cons d ds =>
      simp only [List.map_cons, sameList, same, Bool.true_and]
      rw [Bool.and_left_comm, ← ih]

theorem sameEntries_bare (es fs : List (String × Code)) : sameEntries es fs =
    (sameEntries (es.map fun e => (e.1, input)) (fs.map fun f => (f.1, input)) &&
      sameList (es.map (·.2)) (fs.map (·.2))) := by
  induction es generalizing fs with
  | nil => cases fs <;> simp [sameEntries, sameList]
  | cons e es ih =>
    obtain ⟨name, c⟩ := e
    cases fs with
    | nil => simp [sameEntries, sameList]
    | cons f fs =>
      obtain ⟨name', d⟩ := f
      simp only [List.map_cons, sameEntries, sameList, same, Bool.and_true, ih fs]
      ac_rfl

theorem ctorIdx_bare (c : Code) : c.bare.ctorIdx = c.ctorIdx := by
  cases c with
  | call target => cases target <;> rfl
  | _ => rfl

/-- **Plain forms are the same** where their roots are and their parts are, one by one. -/
theorem same_plain {c d : Code} (h : c.isPlain = true) :
    c.same d = (c.bare.same d.bare && sameList c.children d.children) := by
  by_cases hform : d.ctorIdx = c.ctorIdx
  case neg =>
    have hbare : c.bare.ctorIdx ≠ d.bare.ctorIdx := by
      rw [ctorIdx_bare, ctorIdx_bare]
      exact Ne.symm hform
    rw [same_of_ctorIdx_ne (Ne.symm hform), same_of_ctorIdx_ne hbare, Bool.false_and]
  cases c with
  | list cs =>
    obtain ⟨ds, rfl⟩ : ∃ ds, d = list ds := list.elim d hform fun _ => ⟨_, rfl⟩
    simp only [same, bare, children]
    exact sameList_bare cs ds
  | context es =>
    obtain ⟨fs, rfl⟩ : ∃ fs, d = context fs := context.elim d hform fun _ => ⟨_, rfl⟩
    simp only [same, bare, children]
    exact sameEntries_bare es fs
  | range s e si ei =>
    obtain ⟨s', e', si', ei', rfl⟩ : ∃ s' e' si' ei', d = range s' e' si' ei' :=
      range.elim d hform fun _ _ _ _ => ⟨_, _, _, _, rfl⟩
    simp only [same, bare, children]
    cases s <;> cases s' <;> cases e <;> cases e' <;>
      simp [sameOption, sameList, same, Bool.and_assoc, Bool.and_comm, Bool.and_left_comm]
  | call target args names =>
    obtain ⟨target', args', names', rfl⟩ : ∃ target' args' names', d = call target' args' names' :=
      call.elim d hform fun _ _ _ => ⟨_, _, _, rfl⟩
    have hargs := sameList_bare args args'
    cases target <;> cases target' <;>
      simp only [same, bare, children, sameTarget, sameList, Bool.false_and, Bool.true_and]
    all_goals
      rw [hargs]
      ac_rfl
  | const | constRef | forIn | quantified | decision => cases h
  | _ =>
    cases d <;> first | cases hform | skip
    all_goals
      simp only [same, bare, children, sameList, Bool.and_true, Bool.true_and]
    all_goals ac_rfl

theorem isPlain_of_form {c d : Code} (h : c.isPlain = true) (hform : d.ctorIdx = c.ctorIdx) :
    d.isPlain = true := by
  cases d with
  | const | constRef | forIn | quantified | decision => cases c <;> cases h <;> cases hform
  | _ => rfl

end Code

end Feel
