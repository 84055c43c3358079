import Feel.Code.Json
import Feel.Surface.Cursor
import Feel.Table.Definition

/-!
# Why a text does not compile

* `TypingFault`: why a form has no typed or executable counterpart.
* `CompileError`: the reasons for which a text is refused.
* `CompileError.message`: their texts.
-/

namespace Feel

/-- Why a form has no typed or executable counterpart. -/
inductive TypingFault where
  | invalidNumber (text : String)
  | invalidTemporal (text : String)
  /-- No overload has parameters of all the given names. -/
  | noParameters (function : String) (names : List String)
  /-- No overload takes arguments of the given types. -/
  | noOverload (function : String) (types : List Ty)
  | notFunction (text : String) (type : Ty)
  /-- No rule gives an operator a meaning. -/
  | noRule (op : Operator) (left right : Ty)
  /-- No library lowers a call. -/
  | noLibrary (function : String)

namespace TypingFault

def message : TypingFault → String
  | invalidNumber text => "invalid number '" ++ text ++ "'"
  | invalidTemporal text => "invalid temporal literal @\"" ++ text ++ "\""
  | noParameters function names =>
    "no overload of '" ++ function ++ "' has parameters (" ++ ", ".intercalate names ++ ")"
  | noOverload function types =>
    "no overload of '" ++ function ++ "' accepts (" ++ ", ".intercalate (types.map Ty.text) ++ ")"
  | notFunction text type => "'" ++ text ++ "' of type " ++ type.text ++ " is not a function"
  | noRule op left right =>
    "no rule lowers '" ++ op.symbol ++ "' on " ++ left.text ++ " and " ++ right.text
  | noLibrary function => "no function factory lowers '" ++ function ++ "'"

end TypingFault

/-- Why a text is refused. -/
inductive CompileError where
  | parse (e : ParseError)
  /-- A name, a member or a type that nothing provides. -/
  | unresolved (name : String) (span : Span)
  /-- A fault at a place, with the code of the parts that were already lowered. -/
  | typing (fault : TypingFault) (span : Span) (done : List Code)
  /-- A decision table that breaks a rule of its structure. -/
  | definition (e : DefinitionError)

namespace CompileError

def message : CompileError → String
  | parse e => e.message
  | unresolved name span => "Unresolved symbol '" ++ name ++ "' at " ++ span.text
  | typing fault span _ => "Translation error at " ++ span.text ++ ": " ++ fault.message
  | definition e => e.message

/-- The document of the code that was already lowered. -/
def doneText (done : List Code) : String := (Json.array (done.map Code.toJson)).text

end CompileError

end Feel
