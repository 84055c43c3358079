import Feel.Surface.Basic

/-!
# Parts of parse trees

A parse tree is a form of its direct parts, and a function on trees is given by what it makes of
a form once the parts have been dealt with.

* `Form.parts`, `Form.map`: the direct parts of a form, and the form of other parts.
* `Surface.fold`, `Surface.fold_eq`: the function on trees that a step on forms gives.
* `Surface.partsInduction`: what follows for a tree from its direct parts holds of all trees.
* `Surface.everywhere`: a test of every node.
* `Surface.forget`, `Surface.Like`: trees up to the spans of their nodes.
-/

namespace Feel

/-! ### Forms -/

namespace Arguments

variable {ε δ : Type}

def parts : Arguments ε → List ε
  | positional args => args
  | named args => args.map (·.2)

def map (f : ε → δ) : Arguments ε → Arguments δ
  | positional args => positional (args.map f)
  | named args => named (args.map fun p => (p.1, f p.2))

end Arguments

namespace Iterator

variable {ε δ : Type}

def parts (it : Iterator ε) : List ε := it.domain :: it.finish.toList

def map (f : ε → δ) (it : Iterator ε) : Iterator δ := ⟨it.name, f it.domain, it.finish.map f⟩

end Iterator

namespace Form

variable {ε δ : Type}

/-- The direct parts of a form, in the order in which they are written. -/
def parts : Form ε → List ε
  | list items => items
  | context entries => entries.map (·.2)
  | interval start finish _ _ => [start, finish]
  | binary _ left right => [left, right]
  | negation operand => [operand]
  | between value low high => [value, low, high]
  | isIn value ts => value :: ts
  | instanceOf value _ => [value]
  | ite condition yes no => [condition, yes, no]
  | forIn iterators body => iterators.flatMap (·.parts) ++ [body]
  | quantified _ iterators condition => iterators.flatMap (·.parts) ++ [condition]
  | filter source test => [source, test]
  | function _ body => [body]
  | invocation callee args => callee :: args.parts
  | path source _ => [source]
  | comparison _ value => [value]
  | tests _ ts => ts
  | _ => []

/-- A form of other parts. -/
def map (f : ε → δ) : Form ε → Form δ
  | null => null
  | boolean b => boolean b
  | number text => number text
  | string s => string s
  | temporal s => temporal s
  | name n => name n
  | testInput => testInput
  | dash => dash
  | list items => list (items.map f)
  | context entries => context (entries.map fun p => (p.1, f p.2))
  | interval start finish si ei => interval (f start) (f finish) si ei
  | binary op left right => binary op (f left) (f right)
  | negation operand => negation (f operand)
  | between value low high => between (f value) (f low) (f high)
  | isIn value ts => isIn (f value) (ts.map f)
  | instanceOf value target => instanceOf (f value) target
  | ite condition yes no => ite (f condition) (f yes) (f no)
  | forIn iterators body => forIn (iterators.map (·.map f)) (f body)
  | quantified every iterators condition =>
    quantified every (iterators.map (·.map f)) (f condition)
  | filter source test => filter (f source) (f test)
  | function params body => function params (f body)
  | invocation callee args => invocation (f callee) (args.map f)
  | path source member => path (f source) member
  | comparison op value => comparison op (f value)
  | tests negated ts => tests negated (ts.map f)

theorem parts_map (f : ε → δ) (form : Form ε) : (form.map f).parts = form.parts.map f := by
  have hits (its : List (Iterator ε)) :
      (its.map (·.map f)).flatMap (·.parts) = (its.flatMap (·.parts)).map f := by
    induction its with
    | nil => rfl
    | cons it its ih =>
      rw [List.map_cons, List.flatMap_cons, List.flatMap_cons, List.map_append, ih]
      obtain ⟨name, domain, finish⟩ := it
      cases finish <;> rfl
  cases form with
  | forIn its body => simp only [map, parts, hits, List.map_append, List.map_cons, List.map_nil]
  | quantified every its c =>
    simp only [map, parts, hits, List.map_append, List.map_cons, List.map_nil]
  | invocation callee args => cases args <;> simp [map, parts, Arguments.parts, Arguments.map]
  | _ => simp [map, parts]

end Form

namespace Surface

/-! ### Folds -/

section Fold

variable {α : Type} (step : Surface → Form α → α)

mutual

/-- What a step makes of a tree, given what it made of the parts. -/
def fold : Surface → α
  | node form span comments => step (node form span comments) (foldForm form)

def foldForm : Form Surface → Form α
  | .null => .null
  | .boolean b => .boolean b
  | .number text => .number text
  | .string s => .string s
  | .temporal s => .temporal s
  | .name n => .name n
  | .testInput => .testInput
  | .dash => .dash
  | .list items => .list (foldList items)
  | .context entries => .context (foldEntries entries)
  | .interval start finish si ei => .interval (fold start) (fold finish) si ei
  | .binary op left right => .binary op (fold left) (fold right)
  | .negation operand => .negation (fold operand)
  | .between value low high => .between (fold value) (fold low) (fold high)
  | .isIn value tests => .isIn (fold value) (foldList tests)
  | .instanceOf value target => .instanceOf (fold value) target
  | .ite condition yes no => .ite (fold condition) (fold yes) (fold no)
  | .forIn iterators body => .forIn (foldIterators iterators) (fold body)
  | .quantified every iterators condition =>
    .quantified every (foldIterators iterators) (fold condition)
  | .filter source test => .filter (fold source) (fold test)
  | .function params body => .function params (fold body)
  | .invocation callee args => .invocation (fold callee) (foldArguments args)
  | .path source member => .path (fold source) member
  | .comparison op value => .comparison op (fold value)
  | .tests negated tests => .tests negated (foldList tests)

def foldList : List Surface → List α
  | [] => []
  | s :: ss => fold s :: foldList ss

def foldEntries : List (String × Surface) → List (String × α)
  | [] => []
  | (key, s) :: es => (key, fold s) :: foldEntries es

def foldOption : Option Surface → Option α
  | none => none
  | some s => some (fold s)

def foldIterators : List (Iterator Surface) → List (Iterator α)
  | [] => []
  | ⟨name, domain, finish⟩ :: its =>
    ⟨name, fold domain, foldOption finish⟩ :: foldIterators its

def foldArguments : Arguments Surface → Arguments α
  | .positional args => .positional (foldList args)
  | .named args => .named (foldEntries args)

end

theorem foldList_eq (ss : List Surface) : foldList step ss = ss.map (fold step) := by
  induction ss with
  | nil => rfl
  | cons s ss ih => exact congrArg _ ih

theorem foldEntries_eq (es : List (String × Surface)) :
    foldEntries step es = es.map fun p => (p.1, fold step p.2) := by
  induction es with
  | nil => rfl
  | cons e es ih => exact congrArg _ ih

theorem foldIterators_eq (its : List (Iterator Surface)) :
    foldIterators step its = its.map (·.map (fold step)) := by
  induction its with
  | nil => rfl
  | cons it its ih =>
    obtain ⟨name, domain, finish⟩ := it
    cases finish <;> exact congrArg _ ih

/-- A fold is the step on the tree and on the folds of its parts. -/
theorem fold_eq (form : Form Surface) (span : Span) (comments : List String) :
    fold step (node form span comments) =
      step (node form span comments) (form.map (fold step)) := by
  refine congrArg (step _) ?_
  show foldForm step form = _
  cases form with
  | list items => exact congrArg Form.list (foldList_eq step items)
  | context entries => exact congrArg Form.context (foldEntries_eq step entries)
  | isIn value tests => exact congrArg (Form.isIn _) (foldList_eq step tests)
  | forIn its body => exact congrArg (Form.forIn · _) (foldIterators_eq step its)
  | quantified every its c =>
    exact congrArg (Form.quantified every · _) (foldIterators_eq step its)
  | invocation callee args =>
    cases args with
    | positional args =>
      exact congrArg (fun args => Form.invocation _ (.positional args)) (foldList_eq step args)
    | named args =>
      exact congrArg (fun args => Form.invocation _ (.named args)) (foldEntries_eq step args)
  | tests negated tests => exact congrArg (Form.tests negated) (foldList_eq step tests)
  | _ => rfl

end Fold

/-! ### Induction -/

/-- What passes from the direct parts of a tree to the tree. -/
def Ascends (P : Surface → Prop) : Prop :=
  ∀ form span comments, (∀ t ∈ form.parts, P t) → P (node form span comments)

section Induction

variable {P : Surface → Prop}

mutual

/-- What follows for a tree from its direct parts holds of all trees. -/
theorem partsInduction (step : Ascends P) : ∀ s : Surface, P s
  | node form span comments => step form span comments (partsInductionForm step form)
termination_by structural s => s

theorem partsInductionForm (step : Ascends P) : ∀ form : Form Surface, ∀ t ∈ form.parts, P t
  | .list items => partsInductionList step items
  | .context entries => partsInductionEntries step entries
  | .interval start finish _ _ => by
    simpa [Form.parts] using ⟨partsInduction step start, partsInduction step finish⟩
  | .binary _ left right => by
    simpa [Form.parts] using ⟨partsInduction step left, partsInduction step right⟩
  | .negation operand => by simpa [Form.parts] using partsInduction step operand
  | .between value low high => by
    simpa [Form.parts] using
      ⟨partsInduction step value, partsInduction step low, partsInduction step high⟩
  | .isIn value tests => by
    simpa [Form.parts] using ⟨partsInduction step value, partsInductionList step tests⟩
  | .instanceOf value _ => by simpa [Form.parts] using partsInduction step value
  | .ite condition yes no => by
    simpa [Form.parts] using
      ⟨partsInduction step condition, partsInduction step yes, partsInduction step no⟩
  | .forIn its body => fun t ht => by
    rcases List.mem_append.mp ht with h | h
    · exact partsInductionIterators step its t h
    · rw [List.mem_singleton.mp h]
      exact partsInduction step body
  | .quantified _ its condition => fun t ht => by
    rcases List.mem_append.mp ht with h | h
    · exact partsInductionIterators step its t h
    · rw [List.mem_singleton.mp h]
      exact partsInduction step condition
  | .filter source test => by
    simpa [Form.parts] using ⟨partsInduction step source, partsInduction step test⟩
  | .function _ body => by simpa [Form.parts] using partsInduction step body
  | .invocation callee (.positional args) => fun t ht => by
    rcases List.mem_cons.mp ht with h | h
    · rw [h]
      exact partsInduction step callee
    · exact partsInductionList step args t h
  | .invocation callee (.named args) => fun t ht => by
    rcases List.mem_cons.mp ht with h | h
    · rw [h]
      exact partsInduction step callee
    · exact partsInductionEntries step args t h
  | .path source _ => by simpa [Form.parts] using partsInduction step source
  | .comparison _ value => by simpa [Form.parts] using partsInduction step value
  | .tests _ tests => partsInductionList step tests
  | .null => by simp [Form.parts]
  | .boolean _ => by simp [Form.parts]
  | .number _ => by simp [Form.parts]
  | .string _ => by simp [Form.parts]
  | .temporal _ => by simp [Form.parts]
  | .name _ => by simp [Form.parts]
  | .testInput => by simp [Form.parts]
  | .dash => by simp [Form.parts]
termination_by structural form => form

theorem partsInductionList (step : Ascends P) : ∀ ss : List Surface, ∀ t ∈ ss, P t
  | [], t, ht => by simp at ht
  | s :: ss, t, ht => by
    rcases List.mem_cons.mp ht with h | h
    · rw [h]
      exact partsInduction step s
    · exact partsInductionList step ss t h
termination_by structural ss => ss

theorem partsInductionEntries (step : Ascends P) :
    ∀ es : List (String × Surface), ∀ t ∈ es.map (·.2), P t
  | [], t, ht => by simp at ht
  | (_, s) :: es, t, ht => by
    rcases List.mem_cons.mp ht with h | h
    · rw [h]
      exact partsInduction step s
    · exact partsInductionEntries step es t h
termination_by structural es => es

theorem partsInductionOption (step : Ascends P) : ∀ o : Option Surface, ∀ t ∈ o.toList, P t
  | none, t, ht => by simp at ht
  | some s, t, ht => by
    rw [List.mem_singleton.mp ht]
    exact partsInduction step s
termination_by structural o => o

theorem partsInductionIterators (step : Ascends P) :
    ∀ its : List (Iterator Surface), ∀ t ∈ its.flatMap (·.parts), P t
  | [], t, ht => by simp at ht
  | ⟨_, domain, finish⟩ :: its, t, ht => by
    rcases List.mem_append.mp ht with h | h
    · rcases List.mem_cons.mp h with h | h
      · rw [h]
        exact partsInduction step domain
      · exact partsInductionOption step finish t h
    · exact partsInductionIterators step its t h
termination_by structural its => its

end

end Induction

/-! ### Tests of every node -/

/-- Whether a test holds at every node of a tree. -/
def everywhere (test : Surface → Bool) : Surface → Bool :=
  fold fun s parts => test s && parts.parts.all id

theorem everywhere_iff {test : Surface → Bool} {form : Form Surface} {span : Span}
    {comments : List String} :
    everywhere test (node form span comments) = true ↔
      test (node form span comments) = true ∧ ∀ t ∈ form.parts, everywhere test t = true := by
  rw [everywhere, fold_eq, Form.parts_map]
  simp

/-! ### Trees up to spans -/

/-- A tree without the spans of its nodes. -/
def forget : Surface → Surface := fold fun s parts => node parts default s.comments

/-- Trees that differ in the spans of their nodes only. -/
def Like (s t : Surface) : Prop := s.forget = t.forget

theorem like_node {form form' : Form Surface} (h : form.map forget = form'.map forget)
    (span span' : Span) (comments : List String) :
    (node form span comments).Like (node form' span' comments) := by
  unfold Like forget
  rw [fold_eq, fold_eq]
  exact congrArg (node · default comments) h

end Surface

end Feel
