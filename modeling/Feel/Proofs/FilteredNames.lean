import Feel.Fragment.OfTerm
import Feel.Proofs.Refinement
import Feel.Term.OfSurface

/-!
# Names under filters

A name that is declared as an input, and that nothing around an occurrence binds, stands for
that field of the root input. It keeps doing so below contexts, iterations, function bodies,
tests and filters over contexts. Below a filter over elements of any other type it is taken for
a field of the element, and is null.

A name that is resolved to a local stands for what that local is bound to, and a filter in
between that does not declare the name leaves the resolution as it is. A run does not: it binds
every field that an element of the filtered list turns out to have, declared or not, so that a
field of the same name captures the occurrence.

* `Place`: the scope an occurrence is resolved in and the frame it is run in.
* `Place.Denotes`: the value that a tree has at a place, whatever machine runs it.
* `Surface.Step`, `Surface.Within`: the parts of a tree and the places where they stand.
* `Surface.denotes_name_iff`: what a name of an input denotes below any nesting.
* `Filter.field?`, `Filter.captured?`: the binding of a name that an element brings with it.
* `Surface.Passage`, `Surface.Passage.keeps`: the way from a tree to one of its parts past the tests
  of filters, with the elements that are tested, and what it keeps of a name.
* `Surface.denotes_local_iff`: what the name of a local denotes inside a filter.
-/

namespace Feel

/-- Where a part of a tree stands: what its names are resolved in and what its code runs in. -/
structure Place where
  scope : Scope
  frame : Frame

namespace Place

/-- The place of a whole tree over an input. -/
def root (scope : Scope) (input : Value) : Place := ⟨scope, .ofInput input⟩

/-- A tree elaborates at a place, can be lowered in every scope, and gives a value there on every
machine. -/
def Denotes (source : String) (p : Place) (s : Surface) (v : Value) : Prop :=
  ∃ term, Term.ofSurface source s p.scope = .ok term ∧
    ∀ scope draft, ∃ fragment draft', Fragment.ofTerm term scope draft = .ok (fragment, draft') ∧
      ∀ m site, fragment.code.denote m site p.frame = .ok v

/-- A tree denotes at most one value. -/
theorem Denotes.unique {source : String} {p : Place} {s : Surface} {v w : Value}
    (hv : p.Denotes source s v) (hw : p.Denotes source s w) : v = w := by
  obtain ⟨t, ht, hv⟩ := hv
  obtain ⟨u, hu, hw⟩ := hw
  rw [ht, Except.ok.injEq] at hu
  subst hu
  obtain ⟨f, d, hf, hv⟩ := hv {} {}
  obtain ⟨g, e, hg, hw⟩ := hw {} {}
  rw [hf, Except.ok.injEq, Prod.mk.injEq] at hg
  rw [← hg.1] at hw
  have m : Machine := ⟨[], 0, fun _ _ _ _ => .ok .null⟩
  have h := hw m []
  rw [hv m [], Except.ok.injEq] at h
  exact h

end Place

/-! ### Places of parts -/

namespace Surface

/-- The parts of a call's arguments. -/
def argumentParts : Arguments Surface → List Surface
  | .positional args => args
  | .named args => args.map (·.2)

/-- The parts that stand at the place of the whole: nothing is bound for them. -/
def sharedParts : Form Surface → List Surface
  | .list items => items
  | .interval start finish _ _ => [start, finish]
  | .binary _ left right => [left, right]
  | .negation operand => [operand]
  | .between value low high => [value, low, high]
  | .isIn value _ => [value]
  | .instanceOf value _ => [value]
  | .ite condition yes no => [condition, yes, no]
  | .filter list _ => [list]
  | .invocation callee args => callee :: argumentParts args
  | .path value _ => [value]
  | .comparison _ value => [value]
  | .tests _ tests => tests
  | _ => []

/-- The iterators of a form and what runs below all of them. -/
def iteration? : Form Surface → Option (List (Iterator Surface) × Surface)
  | .forIn its body => some (its, body)
  | .quantified _ its condition => some (its, condition)
  | _ => none

/-- A part of a tree and its place, one level down. Nothing on the way binds `name`. The list
holds the static type of the elements where the part is the test of a filter. -/
inductive Step (source name : String) :
    Surface → Place → List Ty → Surface → Place → Prop
  | shared {form : Form Surface} {span : Span} {comments : List String} {part : Surface}
      {p : Place} (h : part ∈ sharedParts form) :
      Step source name (.node form span comments) p [] part p
  | entry {before after : List (String × Surface)} {other : String} {part : Surface}
      {span : Span} {comments : List String} {p : Place} {terms : List (String × Term)}
      {values : List Value}
      (hterms : Elaboration.entries (p.scope.push false) (Term.ofEntries source before) =
        .ok terms)
      (hname : name ∉ before.map (·.1)) :
      Step source name (.node (.context (before ++ (other, part) :: after)) span comments) p []
        part ⟨(p.scope.push false).declareAll (terms.map fun (n, t) => (n, t.type)),
          p.frame.bindAll ((before.map (·.1)).zip values)⟩
  | domain {form : Form Surface} {span : Span} {comments : List String}
      {before after : List (Iterator Surface)} {it : Iterator Surface} {body part : Surface}
      {p : Place} {its : List (Iteration Term)} {inner : Scope} {values : List Value}
      (hform : iteration? form = some (before ++ it :: after, body))
      (hits : Elaboration.iterations (p.scope.push false) (Term.ofIterators source before) =
        .ok (its, inner))
      (hname : name ∉ before.map (·.name)) (hpart : part = it.domain ∨ some part = it.finish) :
      Step source name (.node form span comments) p [] part
        ⟨inner, p.frame.bindAll ((before.map (·.name)).zip values)⟩
  | body {form : Form Surface} {span : Span} {comments : List String}
      {iterators : List (Iterator Surface)} {body : Surface}
      {p : Place} {its : List (Iteration Term)} {inner : Scope} {values : List Value}
      (hform : iteration? form = some (iterators, body))
      (hits : Elaboration.iterations (p.scope.push false) (Term.ofIterators source iterators) =
        .ok (its, inner))
      (hname : name ∉ iterators.map (·.name)) :
      Step source name (.node form span comments) p [] body
        ⟨inner, p.frame.bindAll ((iterators.map (·.name)).zip values)⟩
  | item {list test : Surface} {span : Span} {comments : List String} {p : Place} {term : Term}
      {item : Value} (hterm : Term.ofSurface source list p.scope = .ok term)
      (hname : name ≠ "item") (htype : name ∉ Scope.fieldNames term.type.elementType)
      (hitem : item.get? name = none) :
      Step source name (.node (.filter list test) span comments) p [term.type.elementType] test
        ⟨Elaboration.filterScope p.scope term.type.elementType, Filter.itemFrame p.frame item⟩
  | position {list test : Surface} {span : Span} {comments : List String} {p : Place}
      {term : Term} (hterm : Term.ofSurface source list p.scope = .ok term)
      (hname : name ≠ "item") (htype : name ∉ Scope.fieldNames term.type.elementType) :
      Step source name (.node (.filter list test) span comments) p [term.type.elementType] test
        ⟨Elaboration.filterScope p.scope term.type.elementType, p.frame⟩
  | functionBody {params : List (String × Option TypeExpr)} {body : Surface} {span : Span}
      {comments : List String} {p : Place} {types : List (String × Ty)} {args : List Value}
      (htypes : Elaboration.paramTypes p.scope span params = .ok types)
      (hname : name ∉ types.map (·.1)) :
      Step source name (.node (.function params body) span comments) p [] body
        ⟨(p.scope.push false).declareAll types,
          Machine.closureFrame p.frame.input p.frame.locals (types.map (·.1)) args⟩
  | test {value part : Surface} {tests : List Surface} {span : Span} {comments : List String}
      {p : Place} {term : Term} {v : Value}
      (hterm : Term.ofSurface source value p.scope = .ok term) (hpart : part ∈ tests) :
      Step source name (.node (.isIn value tests) span comments) p [] part
        ⟨p.scope.withTest term.type, p.frame.withTest v⟩

/-- A part of a tree and its place, any number of levels down, with the element types of the
filters around it, outermost first. -/
inductive Within (source name : String) :
    Surface → Place → List Ty → Surface → Place → Prop
  | here (s : Surface) (p : Place) : Within source name s p [] s p
  | down {s t u : Surface} {p q r : Place} {es fs : List Ty}
      (first : Step source name s p es t q) (rest : Within source name t q fs u r) :
      Within source name s p (es ++ fs) u r

end Surface

/-! ### What scopes keep of a name -/

/-- Whether a filter over elements of a type takes unknown names for their fields. -/
def opensScope : Ty → Bool
  | .context _ => false
  | _ => true

namespace Scope

/-- A scope that binds a name as another one does and has the same inputs. `opened` says
whether it adds an open layer. -/
structure Keeps (name : String) (opened : Bool) (s t : Scope) : Prop where
  local? : t.local? name = s.local? name
  isOpen : t.isOpen = (s.isOpen || opened)
  inputs : t.inputs = s.inputs
  inputType : t.inputType = s.inputType

namespace Keeps

variable {name : String} {s t u : Scope} {a b : Bool}

theorem refl (name : String) (s : Scope) : Keeps name false s s :=
  ⟨rfl, (Bool.or_false _).symm, rfl, rfl⟩

theorem trans (h : Keeps name a s t) (h' : Keeps name b t u) : Keeps name (a || b) s u := by
  refine ⟨h'.local?.trans h.local?, ?_, h'.inputs.trans h.inputs,
    h'.inputType.trans h.inputType⟩
  rw [h'.isOpen, h.isOpen, Bool.or_assoc]

end Keeps

theorem keeps_push (name : String) (s : Scope) (isOpen : Bool) :
    Keeps name isOpen s (s.push isOpen) :=
  ⟨local?_push s isOpen name, by simp [Scope.isOpen, push, Bool.or_comm], rfl, rfl⟩

theorem keeps_withTest (name : String) (s : Scope) (type : Ty) :
    Keeps name false s (s.withTest type) :=
  ⟨rfl, (Bool.or_false _).symm, rfl, rfl⟩

theorem keeps_declare {name other : String} (h : name ≠ other) (s : Scope) (type : Ty) :
    Keeps name false s (s.declare other type) := by
  have hbeq : (name == other) = false := by simpa using h
  unfold declare
  split
  · exact Keeps.refl name s
  · next layer rest hlayers =>
    refine ⟨?_, ?_, rfl, rfl⟩
    · simp [Scope.local?, hlayers, List.findSome?_cons, List.lookup_cons, hbeq]
    · simp [Scope.isOpen, hlayers]

theorem keeps_declareAll {name : String} {entries : List (String × Ty)}
    (h : name ∉ entries.map (·.1)) (s : Scope) : Keeps name false s (s.declareAll entries) := by
  induction entries generalizing s with
  | nil => exact Keeps.refl name s
  | cons entry entries ih =>
    rw [List.map_cons, List.mem_cons, not_or] at h
    exact (keeps_declare h.1 s entry.2).trans (ih h.2 _)

/-- The scope of a filter's test is open unless the elements are contexts. -/
theorem keeps_filterScope {name : String} {element : Ty} (hname : name ≠ "item")
    (htype : name ∉ fieldNames element) (s : Scope) :
    Keeps name (opensScope element) s (Elaboration.filterScope s element) := by
  have hitem : ∀ t : Scope, Keeps name false t (t.declare "item" element) :=
    fun t => keeps_declare hname t element
  cases element with
  | context fields =>
    exact ((keeps_push name s false).trans (keeps_declareAll htype _)).trans (hitem _)
  | _ => exact (keeps_push name s true).trans (hitem _)

/-- The scope below iterators keeps every name that none of them binds. -/
theorem keeps_iterations {source name : String} {iterators : List (Iterator Surface)}
    {its : List (Iteration Term)} {s inner : Scope}
    (h : Elaboration.iterations s (Term.ofIterators source iterators) = .ok (its, inner))
    (hname : name ∉ iterators.map (·.name)) : Keeps name false s inner := by
  induction iterators generalizing s its inner with
  | nil =>
    rw [Term.ofIterators, Elaboration.iterations, Except.ok.injEq, Prod.mk.injEq] at h
    rw [← h.2]
    exact Keeps.refl name s
  | cons it iterators ih =>
    rw [List.map_cons, List.mem_cons, not_or] at hname
    rw [Term.ofIterators, Elaboration.iterations] at h
    obtain ⟨domain, -, h⟩ := bind_eq_ok.mp h
    obtain ⟨⟨rest, inner'⟩, hrest, h⟩ := bind_eq_ok.mp h
    rw [pure_eq_ok, Prod.mk.injEq] at h
    rw [← h.2]
    exact (keeps_declare hname.1 s _).trans (ih hrest hname.2)

end Scope

/-- The names of elaborated entries are those of the parts. -/
theorem Elaboration.map_fst_entries {source : String} {es : List (String × Surface)}
    {terms : List (String × Term)} {s : Scope}
    (h : Elaboration.entries s (Term.ofEntries source es) = .ok terms) :
    terms.map (·.1) = es.map (·.1) := by
  induction es generalizing s terms with
  | nil =>
    rw [Term.ofEntries, Elaboration.entries, Except.ok.injEq] at h
    rw [← h]
    rfl
  | cons e es ih =>
    obtain ⟨other, part⟩ := e
    rw [Term.ofEntries, Elaboration.entries] at h
    obtain ⟨t, -, h⟩ := bind_eq_ok.mp h
    obtain ⟨rest, hrest, h⟩ := bind_eq_ok.mp h
    rw [pure_eq_ok] at h
    rw [← h, List.map_cons, List.map_cons, ih hrest]

/-! ### What frames keep of a name -/

namespace Frame

/-- A frame that binds a name as another one does, over the same input. -/
structure Keeps (name : String) (f g : Frame) : Prop where
  lookup : g.locals.lookup name = f.locals.lookup name
  input : g.input = f.input

namespace Keeps

variable {name : String} {f g h : Frame}

theorem refl (name : String) (f : Frame) : Keeps name f f := ⟨rfl, rfl⟩

theorem trans (hg : Keeps name f g) (hh : Keeps name g h) : Keeps name f h :=
  ⟨hh.lookup.trans hg.lookup, hh.input.trans hg.input⟩

end Keeps

/-- Entries in front that do not have a name do not change what it is looked up to. -/
theorem lookup_append_of_not_mem {α : Type} {name : String} {new old : List (String × α)}
    (h : name ∉ new.map (·.1)) : (new ++ old).lookup name = old.lookup name := by
  have hnone : new.lookup name = none := by
    rw [List.lookup_eq_none_iff]
    intro e he
    have hne : name ≠ e.1 := fun heq => h (heq ▸ List.mem_map_of_mem he)
    simpa using hne
  rw [List.lookup_append, hnone, Option.none_or]

/-- The names of zipped entries are among the names. -/
theorem not_mem_map_fst_zip {name : String} {names : List String} {vs : List Value}
    (h : name ∉ names) : name ∉ (names.zip vs).reverse.map (·.1) := by
  rw [List.map_reverse, List.mem_reverse]
  intro hmem
  obtain ⟨e, he, heq⟩ := List.mem_map.mp hmem
  exact h (heq ▸ (List.of_mem_zip he).1)

theorem keeps_bind {name other : String} (h : name ≠ other) (f : Frame) (v : Value) :
    Keeps name f (f.bind other v) := by
  refine ⟨?_, rfl⟩
  show ([(other, v)] ++ f.locals).lookup name = _
  exact lookup_append_of_not_mem (by simpa using h)

theorem keeps_bindAll_zip {name : String} {names : List String} (h : name ∉ names) (f : Frame)
    (vs : List Value) : Keeps name f (f.bindAll (names.zip vs)) :=
  ⟨lookup_append_of_not_mem (not_mem_map_fst_zip h), rfl⟩

theorem keeps_closureFrame {name : String} {params : List String} (h : name ∉ params) (f : Frame)
    (args : List Value) :
    Keeps name f (Machine.closureFrame f.input f.locals params args) :=
  ⟨lookup_append_of_not_mem (not_mem_map_fst_zip h), rfl⟩

/-- The frame of a filter's test keeps every name that the element does not have. -/
theorem keeps_itemFrame {name : String} {item : Value} (hname : name ≠ "item")
    (hitem : item.get? name = none) (f : Frame) : Keeps name f (Filter.itemFrame f item) := by
  have hbind : ∀ g : Frame, Keeps name g (g.bind "item" item) :=
    fun g => keeps_bind hname g item
  cases item with
  | context fields =>
    have hfields : name ∉ fields.reverse.map (·.1) := by
      rw [List.map_reverse, List.mem_reverse]
      intro hmem
      obtain ⟨e, he, heq⟩ := List.mem_map.mp hmem
      have hne := List.lookup_eq_none_iff.mp hitem e he
      simp [heq] at hne
    have hall : Keeps name f (f.bindAll fields) := ⟨lookup_append_of_not_mem hfields, rfl⟩
    exact hall.trans (hbind _)
  | _ => exact hbind f

end Frame

/-! ### What places keep of a name -/

namespace Surface

variable {source name : String}

/-- One level down, a name that is not bound there is seen as before, except that a filter over
elements that are no contexts opens the scope. -/
theorem Step.keeps {s t : Surface} {p q : Place} {es : List Ty}
    (h : Step source name s p es t q) :
    p.scope.Keeps name (es.any opensScope) q.scope ∧ p.frame.Keeps name q.frame := by
  cases h with
  | shared h => exact ⟨Scope.Keeps.refl name _, Frame.Keeps.refl name _⟩
  | entry hterms hname =>
    have hnames := Elaboration.map_fst_entries hterms
    refine ⟨(Scope.keeps_push name _ false).trans (Scope.keeps_declareAll ?_ _),
      Frame.keeps_bindAll_zip hname _ _⟩
    rw [List.map_map]
    rw [← hnames] at hname
    exact hname
  | domain hform hits hname hpart =>
    exact ⟨(Scope.keeps_push name _ false).trans (Scope.keeps_iterations hits hname),
      Frame.keeps_bindAll_zip hname _ _⟩
  | body hform hits hname =>
    exact ⟨(Scope.keeps_push name _ false).trans (Scope.keeps_iterations hits hname),
      Frame.keeps_bindAll_zip hname _ _⟩
  | item hterm hname htype hitem =>
    rw [List.any_cons, List.any_nil, Bool.or_false]
    exact ⟨Scope.keeps_filterScope hname htype _, Frame.keeps_itemFrame hname hitem _⟩
  | position hterm hname htype =>
    rw [List.any_cons, List.any_nil, Bool.or_false]
    exact ⟨Scope.keeps_filterScope hname htype _, Frame.Keeps.refl name _⟩
  | functionBody htypes hname =>
    exact ⟨(Scope.keeps_push name _ false).trans (Scope.keeps_declareAll hname _),
      Frame.keeps_closureFrame hname _ _⟩
  | test hterm hpart => exact ⟨Scope.keeps_withTest name _ _, ⟨rfl, rfl⟩⟩

/-- The same any number of levels down. -/
theorem Within.keeps {s t : Surface} {p q : Place} {es : List Ty}
    (h : Within source name s p es t q) :
    p.scope.Keeps name (es.any opensScope) q.scope ∧ p.frame.Keeps name q.frame := by
  induction h with
  | here s p => exact ⟨Scope.Keeps.refl name _, Frame.Keeps.refl name _⟩
  | down first rest ih =>
    rw [List.any_append]
    exact ⟨first.keeps.1.trans ih.1, first.keeps.2.trans ih.2⟩

theorem Within.trans {s t u : Surface} {p q r : Place} {es fs : List Ty}
    (h : Within source name s p es t q) (h' : Within source name t q fs u r) :
    Within source name s p (es ++ fs) u r := by
  induction h with
  | here s p => exact h'
  | down first rest ih =>
    rw [List.append_assoc]
    exact .down first (ih h')

end Surface

/-! ### What a name denotes -/

namespace Place

/-- A name that is bound nowhere around a place, as far as a declared input is concerned: null
in an open scope, and the field of the input in a closed one. -/
theorem denotes_name {source name : String} {p : Place} {span : Span} {comments : List String}
    (hlocal : p.scope.local? name = none) (hframe : p.frame.locals.lookup name = none)
    (hinput : ((p.scope.inputs.lookup name).or (p.scope.inputType.field? name)).isSome) :
    p.Denotes source (.node (.name name) span comments)
      (if p.scope.isOpen then .null else (p.frame.input.get? name).getD .null) := by
  obtain ⟨type, htype⟩ := Option.isSome_iff_exists.mp hinput
  by_cases hopen : p.scope.isOpen = true
  · have hresolve : p.scope.resolve? name = some ⟨.any, .bound⟩ := by
      rw [Scope.resolve?, hlocal]
      exact if_pos hopen
    refine ⟨(Term.plain (.name name .bound) .any span).withComments comments, ?_, ?_⟩
    · simp only [Term.ofSurface, Term.ofForm, Elaboration.name, hresolve]
      rfl
    · intro scope draft
      refine ⟨.computed (.local name) .any, draft, rfl, ?_⟩
      intro m site
      show Except.ok (p.frame.lookup name) = _
      rw [Frame.lookup, hframe, if_pos hopen]
      rfl
  · have hresolve : p.scope.resolve? name = some ⟨type, .input⟩ := by
      rw [Scope.resolve?, hlocal, htype]
      exact if_neg hopen
    refine ⟨(Term.plain (.name name .input) type span).withComments comments, ?_, ?_⟩
    · simp only [Term.ofSurface, Term.ofForm, Elaboration.name, hresolve]
      rfl
    · intro scope draft
      refine ⟨.computed (.inputField name) type, draft, rfl, ?_⟩
      intro m site
      rw [if_neg hopen]
      rfl

end Place

namespace Surface

/-- **What the name of an input denotes below any nesting.** Take a filter anywhere in a tree,
and an occurrence of a declared name anywhere in the filter, where nothing on the way binds the
name. At the place of the filter the name stands for the field of the root input unless one of
the filters around has elements that are no contexts, and then it is null. At the place of the
occurrence the same holds with the filters in between counted too. -/
theorem denotes_name_iff {source name : String} {scope : Scope} {input : Value}
    {whole list test : Surface} {span here : Span} {comments notes : List String}
    {outer inner : List Ty} {outside inside : Place} (hlayers : scope.layers = [])
    (hinput : ((scope.inputs.lookup name).or (scope.inputType.field? name)).isSome)
    (hfilter : Within source name whole (.root scope input) outer
      (.node (.filter list test) span comments) outside)
    (hname : Within source name (.node (.filter list test) span comments) outside inner
      (.node (.name name) here notes) inside) (v : Value) :
    (outside.Denotes source (.node (.name name) here notes) v ↔
      v = if outer.any opensScope then .null else (input.get? name).getD .null) ∧
    (inside.Denotes source (.node (.name name) here notes) v ↔
      v = if (outer ++ inner).any opensScope then .null else (input.get? name).getD .null) := by
  have hroot : scope.local? name = none := by rw [Scope.local?, hlayers]; rfl
  have hclosed : scope.isOpen = false := by rw [Scope.isOpen, hlayers]; rfl
  -- both places keep of the name what the root has of it, so one argument serves both
  have hplace : ∀ {t : Surface} {es : List Ty} {p : Place},
      Within source name whole (.root scope input) es t p →
      (p.Denotes source (.node (.name name) here notes) v ↔
        v = if es.any opensScope then .null else (input.get? name).getD .null) := by
    intro t es p hp
    obtain ⟨hs, hf⟩ := hp.keeps
    have hopen : p.scope.isOpen = es.any opensScope := by
      rw [hs.isOpen]
      show (scope.isOpen || _) = _
      rw [hclosed, Bool.false_or]
    have hdenotes : p.Denotes source (.node (.name name) here notes) _ :=
      Place.denotes_name (hs.local?.trans hroot) hf.lookup
        (by rw [hs.inputs, hs.inputType]; exact hinput)
    rw [hopen, hf.input] at hdenotes
    constructor
    · intro hv
      exact hv.unique hdenotes
    · intro hv
      rw [hv]
      exact hdenotes
  exact ⟨hplace hfilter, hplace (hfilter.trans hname)⟩

/-- In `[true, false][n]` over the input `{n: true}` the name is true outside the filter and null
inside it. -/
theorem denotes_name_filtered_booleans :
    (Place.root { inputType := .context [("n", .boolean)] }
      (.context [("n", .boolean true)])).Denotes "" (.plain (.name "n") default) (.boolean true) ∧
    Place.Denotes ""
      ⟨Elaboration.filterScope { inputType := .context [("n", .boolean)] } .boolean,
        Filter.itemFrame (.ofInput (.context [("n", .boolean true)])) (.boolean false)⟩
      (.plain (.name "n") default) .null := by
  have hterm : Term.ofSurface "" (.plain (.list [.plain (.boolean true) default,
      .plain (.boolean false) default]) default) { inputType := .context [("n", .boolean)] } =
      .ok (.plain (.list [.plain (.boolean true) .boolean default,
        .plain (.boolean false) .boolean default]) (.list .boolean) default) := rfl
  have hstep := @Step.item "" "n" _ (.plain (.name "n") default) default []
    (.root { inputType := .context [("n", .boolean)] } (.context [("n", .boolean true)])) _
    (.boolean false) hterm (by decide) List.not_mem_nil rfl
  have h := fun v => denotes_name_iff rfl (by decide) (.here _ _) (.down hstep (.here _ _)) v
  exact ⟨(h (.boolean true)).1.mpr rfl, (h .null).2.mpr rfl⟩

end Surface

namespace Filter

/-- What testing an element binds a name to, as far as the fields of the element go; the last
field of a name counts. -/
def field? (name : String) : Value → Option Value
  | .context fields => fields.reverse.lookup name
  | _ => none

/-- What a name is bound to by the elements that are tested around it, outermost first: the
innermost element that has a field of that name captures it. -/
def captured? (name : String) : List Value → Option Value
  | [] => none
  | item :: items => (captured? name items).or (field? name item)

/-- The frame of a test binds a name as the element does, else as before. -/
theorem lookup_itemFrame {name : String} (hname : name ≠ "item") (frame : Frame) (item : Value) :
    (itemFrame frame item).lookup name = (field? name item).getD (frame.lookup name) := by
  cases item with
  | context fields =>
    rw [itemFrame, Frame.lookup_bind_of_ne _ _ hname, field?]
    simp only [Frame.lookup, Frame.bindAll, List.lookup_append]
    cases fields.reverse.lookup name <;> rfl
  | _ => exact Frame.lookup_bind_of_ne _ _ hname

end Filter

namespace Surface

/-- The way from a tree to one of its parts, past any number of filters and of other forms that
do not declare `name`. The list holds the elements that are tested on the way, outermost first;
their type declares no field `name`, whatever they carry. -/
inductive Passage (source name : String) : Surface → Place → List Value → Surface → Place → Prop
  | here (s : Surface) (p : Place) : Passage source name s p [] s p
  | unbound {s t u : Surface} {p q r : Place} {es : List Ty} {items : List Value}
      (first : Step source name s p es t q) (rest : Passage source name t q items u r) :
      Passage source name s p items u r
  | tested {list test u : Surface} {span : Span} {comments : List String} {p r : Place}
      {term : Term} {items : List Value} (hterm : Term.ofSurface source list p.scope = .ok term)
      (hname : name ≠ "item") (htype : name ∉ Scope.fieldNames term.type.elementType)
      (item : Value)
      (rest : Passage source name test
        ⟨Elaboration.filterScope p.scope term.type.elementType, Filter.itemFrame p.frame item⟩
        items u r) :
      Passage source name (.node (.filter list test) span comments) p (item :: items) u r

/-- On the way a name keeps what it is resolved to, and in a run it is bound as before unless an
element captures it. -/
theorem Passage.keeps {source name : String} {s t : Surface} {p q : Place} {items : List Value}
    (h : Passage source name s p items t q) :
    q.scope.local? name = p.scope.local? name ∧
      q.frame.lookup name = (Filter.captured? name items).getD (p.frame.lookup name) := by
  induction h with
  | here s p => exact ⟨rfl, rfl⟩
  | unbound first rest ih =>
    obtain ⟨hscope, hframe⟩ := first.keeps
    refine ⟨ih.1.trans hscope.local?, ih.2.trans ?_⟩
    rw [Frame.lookup, hframe.lookup]
    rfl
  | tested hterm hname htype item rest ih =>
    refine ⟨ih.1.trans (Scope.keeps_filterScope hname htype _).local?, ih.2.trans ?_⟩
    rw [Filter.lookup_itemFrame hname, Filter.captured?]
    cases Filter.captured? name _ <;> rfl

end Surface

/-- An occurrence that is resolved to a local gives what the frame binds to the name. -/
theorem Place.denotes_local {source name : String} {p : Place} {span : Span}
    {comments : List String} (h : (p.scope.local? name).isSome) :
    p.Denotes source (.node (.name name) span comments) (p.frame.lookup name) := by
  obtain ⟨type, htype⟩ := Option.isSome_iff_exists.mp h
  have hresolve : p.scope.resolve? name = some ⟨type, .bound⟩ := by rw [Scope.resolve?, htype]
  refine ⟨(Term.plain (.name name .bound) type span).withComments comments, ?_, ?_⟩
  · simp only [Term.ofSurface, Term.ofForm, Elaboration.name, hresolve]
    rfl
  · intro scope draft
    exact ⟨.computed (.local name) type, draft, rfl, fun _ _ => rfl⟩

namespace Surface

/-- **What the name of a local denotes inside a filter.** Take a filter where a name is resolved
to a local, and an occurrence of the name anywhere in the filter, where nothing on the way
declares the name. At the place of the filter the name stands for the value of the local. At the
place of the occurrence it is resolved to the same local, and in a run it stands for the value of
the local unless an element that is tested around it has a field of that name; then it stands for
the field of the innermost such element. -/
theorem denotes_local_iff {source name : String} {list test : Surface} {span here : Span}
    {comments notes : List String} {items : List Value} {outside inside : Place}
    (hlocal : (outside.scope.local? name).isSome)
    (hpath : Passage source name (.node (.filter list test) span comments) outside items
      (.node (.name name) here notes) inside) (v : Value) :
    inside.scope.resolve? name = outside.scope.resolve? name ∧
    (outside.Denotes source (.node (.name name) here notes) v ↔ v = outside.frame.lookup name) ∧
    (inside.Denotes source (.node (.name name) here notes) v ↔
      v = (Filter.captured? name items).getD (outside.frame.lookup name)) := by
  obtain ⟨hscope, hframe⟩ := hpath.keeps
  -- a local is the only thing the name can denote, so one argument serves both places
  have hplace : ∀ {p : Place}, (p.scope.local? name).isSome →
      (p.Denotes source (.node (.name name) here notes) v ↔ v = p.frame.lookup name) := by
    intro p hp
    have hdenotes : p.Denotes source (.node (.name name) here notes) _ := Place.denotes_local hp
    constructor
    · intro hv
      exact hv.unique hdenotes
    · intro hv
      rw [hv]
      exact hdenotes
  refine ⟨?_, hplace hlocal, ?_⟩
  · obtain ⟨type, htype⟩ := Option.isSome_iff_exists.mp hlocal
    rw [Scope.resolve?, Scope.resolve?, hscope, htype]
  · rw [← hframe]
    exact hplace (hscope ▸ hlocal)

/-- Below `for x in [false]`, in the test of `[{a: true, x: true}, {a: true}][x]`: the elements
are contexts with a field `a`, so `x` is resolved to the variable, which is false. It is true
where the first element is tested and false where the second one is. -/
theorem denotes_local_captured :
    let yes (name : String) : String × Surface := (name, .plain (.boolean true) default)
    let list : Surface := .plain (.list [.plain (.context [yes "a", yes "x"]) default,
      .plain (.context [yes "a"]) default]) default
    let x : Surface := .plain (.name "x") default
    let outside : Place := ⟨(({} : Scope).push false).declare "x" .boolean,
      (Frame.ofInput .null).bind "x" (.boolean false)⟩
    let inside (item : Value) : Place :=
      ⟨Elaboration.filterScope outside.scope (.context [("a", .boolean)]),
        Filter.itemFrame outside.frame item⟩
    (Term.ofSurface "" list outside.scope).toOption.map (·.type.elementType) =
      some (.context [("a", .boolean)]) ∧
    outside.Denotes "" x (.boolean false) ∧
    (inside (.context [("a", .boolean true), ("x", .boolean true)])).Denotes "" x
      (.boolean true) ∧
    (inside (.context [("a", .boolean true)])).Denotes "" x (.boolean false) := by
  intro yes list x outside inside
  obtain ⟨term, hterm, htype⟩ : ∃ term, Term.ofSurface "" list outside.scope = .ok term ∧
      term.type.elementType = .context [("a", .boolean)] := ⟨_, rfl, by decide +kernel⟩
  have htested (item : Value) : Passage "" "x" (.plain (.filter list x) default) outside [item] x
      (inside item) := by
    refine .tested hterm (by decide) (by rw [htype]; decide) item ?_
    rw [htype]
    exact .here _ _
  have hlocal : (outside.scope.local? "x").isSome := by decide
  refine ⟨?_, (denotes_local_iff hlocal (htested .null) _).2.1.mpr rfl,
    (denotes_local_iff hlocal (htested _) _).2.2.mpr rfl,
    (denotes_local_iff hlocal (htested _) _).2.2.mpr rfl⟩
  rw [hterm]
  exact congrArg some htype

end Surface

end Feel
