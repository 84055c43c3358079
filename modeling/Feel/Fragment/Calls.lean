import Feel.Fragment.Basic

/-!
# Calls of library functions

A call is lowered by the first library that takes the arguments. Arguments are converted to
the parameters where their types call for it.

* `Fragment.convertTo`: an argument as a parameter takes it.
* `Library.lower?`: how a library lowers a call, if it does.
* `Libraries.lower?`: the same for libraries in order.
-/

namespace Feel

namespace Fragment

/-- Lists whose elements only widen need no conversion. -/
def widens : Ty → Ty → Bool
  | .list a, .list b => a.conformsTo b || widens a b
  | _, _ => false

/-- An argument as a parameter of a type takes it. -/
def convertTo (f : Fragment) (param : Ty) : Fragment :=
  match f.type.compat param with
  | .convertible | .lossy =>
    if widens f.type param then f else computed (.convert f.code param) param
  | _ => f

/-- Arguments as the parameters of a function type take them; those beyond are dropped. -/
def convertAll (args : List Fragment) : Ty → List Fragment
  | .function params _ _ => (args.zip params).map fun (arg, param) => arg.convertTo param
  | _ => args

end Fragment

namespace Library

/-- How a library lowers a call, if it does. -/
def lower? (l : Library) (name : String) (args : List Fragment) : Option (Lowering Fragment) :=
  let types := args.map (·.type)
  let codes := args.map (·.code)
  match l with
  | host functions => do
    let f ← find? functions name
    let result ← (Ty.resolve? [f.type] types).bind (·.result?)
    return do
      let i ← Lowering.intern (.function (.native f.id f.name f.type))
      return .computed (.call (.value (.constRef i)) codes none) result
  | builtins => do
    let f ← Builtin.ofName? name
    match f, codes with
    | .not, [code] => return pure (.computed (.not code) .boolean)
    | _, _ =>
      let result := ((f.signature? types).bind (·.result?)).getD .any
      return pure (.computed (.call (.builtin name) codes none) result)

end Library

namespace Libraries

/-- How the first library that lowers a call does it. -/
def lower? (ls : Libraries) (name : String) (args : List Fragment) :
    Option (Lowering Fragment) :=
  ls.findSome? (·.lower? name args)

end Libraries

end Feel
