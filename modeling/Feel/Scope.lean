import Feel.Library

/-!
# Scopes

What the names of an expression can refer to: locals in layers, the fields of the input,
functions and named types. A layer may be open: then a name that nothing else binds is taken
for a field of an element whose type is not known.

* `Options`: how expressions are compiled.
* `Scope`: the names and types that an expression sees.
* `Scope.resolve?`: what a name refers to.
* `Scope.knownNames`: the names that a text can contain, for names of several words.
-/

namespace Feel

/-- How expressions are compiled. -/
structure Options where
  /-- Whether constant parts are evaluated once and for all. -/
  folding : Bool := true
  /-- Whether small numbers are added and multiplied by the machine. -/
  nativeArithmetic : Bool := true
  /-- The significant digits of quotients. -/
  precision : Nat := Number.defaultPrecision
  /-- Whether names have to be known. -/
  strictNames : Bool := true
  deriving DecidableEq, Inhabited

/-- Where a name was found. -/
inductive Origin where
  /-- A local: a binder, a parameter, an entry or a field of an element. -/
  | bound
  /-- A field of the input. -/
  | input
  /-- A field that the input may turn out to have. -/
  | dynamic
  /-- A function of a library. -/
  | function
  deriving DecidableEq, Inhabited

namespace Origin

/-- The name of an origin in documents. -/
def key : Origin → String
  | bound => "Local"
  | input => "Input"
  | dynamic => "Dynamic"
  | function => "Function"

end Origin

/-- What a name refers to. -/
structure Reference where
  type : Ty
  origin : Origin
  deriving DecidableEq, Inhabited

/-- One layer of locals. -/
structure Layer where
  /-- The locals, the latest first. -/
  entries : List (String × Ty) := []
  /-- Whether unknown names may be fields of an element. -/
  isOpen : Bool := false
  deriving DecidableEq, Inhabited

/-- The names and types that an expression sees. -/
structure Scope where
  options : Options := {}
  /-- Types that have a name beside the predefined ones; the first of one name counts. -/
  types : List (String × Ty) := []
  libraries : Libraries := [.builtins]
  /-- The type of the input. -/
  inputType : Ty := .any
  /-- Declared inputs, which come before the fields of the input. -/
  inputs : List (String × Ty) := []
  /-- The type of the value under test, where there is one. -/
  testType : Option Ty := none
  /-- The layers of locals, innermost first. -/
  layers : List Layer := []

namespace Scope

/-! ### Layers -/

/-- A new innermost layer without locals. -/
def push (s : Scope) (isOpen : Bool) : Scope := { s with layers := ⟨[], isOpen⟩ :: s.layers }

/-- The scope outside the innermost layer. -/
def pop (s : Scope) : Scope := { s with layers := s.layers.tail }

/-- A new local in the innermost layer; outside all layers there are none. -/
def declare (s : Scope) (name : String) (type : Ty) : Scope :=
  match s.layers with
  | [] => s
  | layer :: rest =>
    { s with layers := { layer with entries := (name, type) :: layer.entries } :: rest }

/-- New locals in the innermost layer, the last one latest. -/
def declareAll (s : Scope) (entries : List (String × Ty)) : Scope :=
  entries.foldl (fun s (name, type) => s.declare name type) s

/-- Another value under test. -/
def withTest (s : Scope) (type : Ty) : Scope := { s with testType := some type }

/-! ### Names -/

/-- The type of a local. -/
def local? (s : Scope) (name : String) : Option Ty :=
  s.layers.findSome? fun layer => layer.entries.lookup name

/-- Whether a layer binds a name. -/
def isLocal (s : Scope) (name : String) : Bool := (s.local? name).isSome

/-- Whether unknown names may be fields of an element. -/
def isOpen (s : Scope) : Bool := s.layers.any (·.isOpen)

/-- What a name refers to: locals, then unknown fields of an element, then inputs, then
functions, then unknown fields of the input. -/
def resolve? (s : Scope) (name : String) : Option Reference :=
  match s.local? name with
  | some type => some ⟨type, .bound⟩
  | none =>
    if s.isOpen then some ⟨.any, .bound⟩
    else
      match (s.inputs.lookup name).or (s.inputType.field? name) with
      | some type => some ⟨type, .input⟩
      | none =>
        match s.libraries.value? name with
        | some f => some ⟨f.type, .function⟩
        | none =>
          if s.inputType.isAny || !s.options.strictNames then some ⟨.any, .dynamic⟩ else none

/-- The predefined types whose names have several words. -/
def typeNames : List String :=
  ["date and time", "days and time duration", "years and months duration"]

/-- The names of the fields of a type. -/
def fieldNames : Ty → List String
  | .context fields => fields.map (·.1)
  | _ => []

/-- The names that a text can contain. -/
def knownNames (s : Scope) : List String :=
  s.inputs.map (·.1) ++ fieldNames s.inputType ++ s.libraries.names ++ s.types.map (·.1) ++
    typeNames ++ s.layers.flatMap fun layer => layer.entries.map (·.1)

/-- The type with a name; the predefined ones come first. -/
def typeNamed? (s : Scope) (name : String) : Option Ty :=
  (Ty.byName? name).or (s.types.lookup name)

/-! ### Laws -/

@[simp] theorem pop_push (s : Scope) (isOpen : Bool) : (s.push isOpen).pop = s := rfl

@[simp] theorem local?_push (s : Scope) (isOpen : Bool) (name : String) :
    (s.push isOpen).local? name = s.local? name := by
  simp [push, local?, List.findSome?_cons, List.lookup_nil]

end Scope

end Feel
