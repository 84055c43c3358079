import Feel.Builtin.Signature

/-!
# Function libraries

Where the functions of a program come from. A host registers functions in groups, and the
built-in functions are a group of their own. Groups are asked in order: the first that answers
a question settles it.

* `HostFunction`: a function that a host registers, with its one signature.
* `Library`: a group of functions.
* `Library.signature?`: the type at which a group accepts a call.
* `Libraries`: groups in order, and the same questions for all of them together.
-/

namespace Feel

/-- A function of the host, registered under a number. -/
structure HostFunction where
  id : Nat
  name : String
  type : Ty

/-- A group of functions. -/
inductive Library where
  | host (functions : List HostFunction)
  | builtins

namespace Library

/-- A group of host functions: of several with one name the last is kept, in the place of the
first. -/
def ofHost (functions : List HostFunction) : Library :=
  .host ((Entries.ofList (functions.map fun f => (f.name, f))).map (·.2))

/-- The names of the functions. -/
def names : Library → List String
  | host functions => functions.map (·.name)
  | builtins => Builtin.functions.map (·.name)

/-- The host function with a name. -/
def find? (functions : List HostFunction) (name : String) : Option HostFunction :=
  functions.find? (·.name == name)

/-- The declared overloads of a function. -/
def overloads? (l : Library) (name : String) : Option (List Ty) :=
  match l with
  | host functions => (find? functions name).map fun f => [f.type]
  | builtins => (Builtin.ofName? name).map (·.overloads)

/-- The type at which a function is called with arguments of some types. -/
def signature? (l : Library) (name : String) (args : List Ty) : Option Ty :=
  match l with
  | host functions => (find? functions name).bind fun f => Ty.resolve? [f.type] args
  | builtins => (Builtin.ofName? name).bind (·.signature? args)

/-- A function as a value. -/
def value? (l : Library) (name : String) : Option FunctionValue :=
  match l with
  | host functions => (find? functions name).map fun f => .native f.id f.name f.type
  | builtins => (Builtin.ofName? name).map (·.functionValue)

end Library

/-- Groups of functions in the order in which they are asked. -/
abbrev Libraries := List Library

namespace Libraries

/-- The names of all functions. -/
def names (ls : Libraries) : List String := ls.flatMap (·.names)

/-- The overloads of a function; a group hides the functions of one name in those after it. -/
def overloads? (ls : Libraries) (name : String) : Option (List Ty) :=
  ls.findSome? (·.overloads? name)

/-- The type at which a call is accepted, by the first group that accepts it. -/
def signature? (ls : Libraries) (name : String) (args : List Ty) : Option Ty :=
  ls.findSome? (·.signature? name args)

/-- A function as a value. -/
def value? (ls : Libraries) (name : String) : Option FunctionValue :=
  ls.findSome? (·.value? name)

end Libraries

end Feel
