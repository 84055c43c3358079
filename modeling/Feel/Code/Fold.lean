import Feel.Code.Basic

/-!
# Folds over code

One recursion that combines what is known of the parts of a tree, and the questions that are
answered by it.

* `Code.fold`: combines the results for the direct parts, in the order of `Code.children`.
* `Code.readsTest`: whether a tree reads the value under test of its own frame.
-/

namespace Feel

namespace Code

mutual

/-- Combines the results for the direct parts of a tree. -/
def fold {α : Type} (f : Code → List α → α) : Code → α
  | const v => f (const v) []
  | constRef i => f (constRef i) []
  | input => f input []
  | testInput => f testInput []
  | «local» n => f («local» n) []
  | inputField n => f (inputField n) []
  | member s n => f (member s n) [fold f s]
  | arith op mode l r n => f (arith op mode l r n) [fold f l, fold f r]
  | concat l r => f (concat l r) [fold f l, fold f r]
  | temporal op l r => f (temporal op l r) [fold f l, fold f r]
  | compare op mode l r => f (compare op mode l r) [fold f l, fold f r]
  | equal mode neg l r => f (equal mode neg l r) [fold f l, fold f r]
  | logic op s l r => f (logic op s l r) [fold f l, fold f r]
  | not c => f (not c) [fold f c]
  | negate c => f (negate c) [fold f c]
  | dynamic op l r => f (dynamic op l r) [fold f l, fold f r]
  | ite c y n => f (ite c y n) [fold f c, fold f y, fold f n]
  | list items => f (list items) (foldList f items)
  | context es => f (context es) (foldEntries f es)
  | range s e si ei => f (range s e si ei) (foldOption f s ++ foldOption f e)
  | between v l h => f (between v l h) [fold f v, fold f l, fold f h]
  | instanceOf v t => f (instanceOf v t) [fold f v]
  | filter s p kind => f (filter s p kind) [fold f s, fold f p]
  | forIn bs body => f (forIn bs body) (foldBindings f bs ++ [fold f body])
  | quantified every bs c => f (quantified every bs c) (foldBindings f bs ++ [fold f c])
  | function ps body t => f (function ps body t) [fold f body]
  | call target args names => f (call target args names) (foldTarget f target ++ foldList f args)
  | convert v t => f (convert v t) [fold f v]
  | unaryMatch t => f (unaryMatch t) [fold f t]
  | listContains l v => f (listContains l v) [fold f l, fold f v]
  | rangeContains r v => f (rangeContains r v) [fold f r, fold f v]
  | withTestInput s b => f (withTestInput s b) [fold f s, fold f b]
  | decision t => f (decision t) (foldMatrix f t)

def foldList {α : Type} (f : Code → List α → α) : List Code → List α
  | [] => []
  | c :: cs => fold f c :: foldList f cs

def foldEntries {α : Type} (f : Code → List α → α) : List (String × Code) → List α
  | [] => []
  | (_, c) :: es => fold f c :: foldEntries f es

def foldOption {α : Type} (f : Code → List α → α) : Option Code → List α
  | none => []
  | some c => [fold f c]

def foldBindings {α : Type} (f : Code → List α → α) : List (Binding Code) → List α
  | [] => []
  | ⟨_, domain⟩ :: bs => foldDomain f domain ++ foldBindings f bs

def foldDomain {α : Type} (f : Code → List α → α) : Domain Code → List α
  | .values c => [fold f c]
  | .steps a b _ s p => [fold f a, fold f b, fold f s, fold f p]

def foldTarget {α : Type} (f : Code → List α → α) : Target Code → List α
  | .builtin _ => []
  | .value c => [fold f c]

def foldMatrix {α : Type} (f : Code → List α → α) : DecisionMatrix Code → List α
  | ⟨_, inputs, rules, outputs, _, _, _⟩ =>
    foldList f inputs ++ foldRules f rules ++ foldOutputs f outputs

def foldRules {α : Type} (f : Code → List α → α) : List (MatrixRule Code) → List α
  | [] => []
  | ⟨cs, os⟩ :: rs => foldList f cs ++ foldList f os ++ foldRules f rs

def foldOutputs {α : Type} (f : Code → List α → α) : List (MatrixOutput Code) → List α
  | [] => []
  | ⟨_, check, ps, fallback⟩ :: os =>
    foldOption f check ++ foldList f ps ++ foldOption f fallback ++ foldOutputs f os

end

/-- Whether a tree reads the value under test of its own frame; the body of a test on
another value does not. -/
def readsTest (c : Code) : Bool :=
  c.fold fun c parts =>
    match c with
    | testInput => true
    | withTestInput _ _ => parts.headD false
    | _ => parts.any id

end Code

end Feel
