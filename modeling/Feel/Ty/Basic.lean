import Feel.Number.Basic

/-!
# Types of expressions

The closed family of types: scalars, lists, contexts with named fields, ranges and
functions. `any` stands for what is only known at run time and `null` is the type of the
null literal.

* `Ty`: the types, with decidable equality.
* `Ty.text`: the way a type is written.
* `Ty.elementType`, `Ty.field?`, `Ty.member?`: the types of parts.
* `Ty.byName?`: the types that have a name of their own.
-/

namespace Feel

/-- A type. -/
inductive Ty where
  | any
  | null
  | number (kind : NumberKind)
  | string
  | boolean
  | date
  | time
  | dateTime
  | dayTimeDuration
  | yearMonthDuration
  | list (element : Ty)
  | context (fields : List (String × Ty))
  /-- A range; an absent flag leaves the kind of that bound open. -/
  | range (element : Ty) (startIncluded endIncluded : Option Bool)
  | function (params : List Ty) (names : Option (List String)) (result : Ty)
  deriving Inhabited

namespace Ty

/-! ### Equality -/

mutual

/-- Structural equality. -/
def beq : Ty → Ty → Bool
  | any, any => true
  | null, null => true
  | number a, number b => a == b
  | string, string => true
  | boolean, boolean => true
  | date, date => true
  | time, time => true
  | dateTime, dateTime => true
  | dayTimeDuration, dayTimeDuration => true
  | yearMonthDuration, yearMonthDuration => true
  | list a, list b => beq a b
  | context a, context b => beqFields a b
  | range a s e, range b t f => beq a b && s == t && e == f
  | function p n r, function q m s => beqList p q && n == m && beq r s
  | _, _ => false

def beqList : List Ty → List Ty → Bool
  | [], [] => true
  | a :: as, b :: bs => beq a b && beqList as bs
  | _, _ => false

def beqFields : List (String × Ty) → List (String × Ty) → Bool
  | [], [] => true
  | (n, a) :: as, (m, b) :: bs => n == m && beq a b && beqFields as bs
  | _, _ => false

end

instance : BEq Ty := ⟨beq⟩

mutual

theorem eq_of_beq' : ∀ a b : Ty, beq a b = true → a = b
  | any, b, h | null, b, h | string, b, h | boolean, b, h | date, b, h | time, b, h
  | dateTime, b, h | dayTimeDuration, b, h | yearMonthDuration, b, h => by
    cases b <;> first | rfl | cases h
  | number a, b, h => by
    cases b with
    | number b => exact congrArg number (beq_iff_eq.mp h)
    | _ => cases h
  | list a, b, h => by
    cases b with
    | list b => exact congrArg list (eq_of_beq' a b h)
    | _ => cases h
  | context a, b, h => by
    cases b with
    | context b => exact congrArg context (eq_of_beqFields a b h)
    | _ => cases h
  | range a s e, b, h => by
    cases b with
    | range b t f =>
      have h : (beq a b && s == t && e == f) = true := h
      simp only [Bool.and_eq_true, beq_iff_eq] at h
      rw [eq_of_beq' a b h.1.1, h.1.2, h.2]
    | _ => cases h
  | function p n r, b, h => by
    cases b with
    | function q m s =>
      have h : (beqList p q && n == m && beq r s) = true := h
      simp only [Bool.and_eq_true, beq_iff_eq] at h
      rw [eq_of_beqList p q h.1.1, h.1.2, eq_of_beq' r s h.2]
    | _ => cases h

theorem eq_of_beqList : ∀ a b : List Ty, beqList a b = true → a = b
  | [], [], _ => rfl
  | a :: as, b :: bs, h => by
    have h := Bool.and_eq_true _ _ ▸ h
    rw [eq_of_beq' a b h.1, eq_of_beqList as bs h.2]

theorem eq_of_beqFields : ∀ a b : List (String × Ty), beqFields a b = true → a = b
  | [], [], _ => rfl
  | (n, a) :: as, (m, b) :: bs, h => by
    have h : (n == m && beq a b && beqFields as bs) = true := h
    simp only [Bool.and_eq_true, beq_iff_eq] at h
    rw [h.1.1, eq_of_beq' a b h.1.2, eq_of_beqFields as bs h.2]

end

mutual

theorem beq_refl' : ∀ a : Ty, beq a a = true
  | any | null | string | boolean | date | time | dateTime | dayTimeDuration
  | yearMonthDuration => rfl
  | number k => beq_self_eq_true k
  | list a => beq_refl' a
  | context a => beqFields_refl a
  | range a s e => by
    show (beq a a && s == s && e == e) = true
    rw [beq_refl' a, beq_self_eq_true, beq_self_eq_true]
    rfl
  | function p n r => by
    show (beqList p p && n == n && beq r r) = true
    rw [beqList_refl p, beq_self_eq_true, beq_refl' r]
    rfl

theorem beqList_refl : ∀ a : List Ty, beqList a a = true
  | [] => rfl
  | a :: as => (Bool.and_eq_true _ _).mpr ⟨beq_refl' a, beqList_refl as⟩

theorem beqFields_refl : ∀ a : List (String × Ty), beqFields a a = true
  | [] => rfl
  | (n, a) :: as => by
    show (n == n && beq a a && beqFields as as) = true
    rw [beq_self_eq_true, beq_refl' a, beqFields_refl as]
    rfl

end

instance : LawfulBEq Ty where
  eq_of_beq h := eq_of_beq' _ _ h
  rfl := beq_refl' _

instance : DecidableEq Ty := fun a b =>
  if h : (a == b) = true then isTrue (eq_of_beq h) else isFalse fun e => h (e ▸ beq_self_eq_true a)

/-! ### Families -/

def isAny : Ty → Bool
  | any => true
  | _ => false

def isNull : Ty → Bool
  | null => true
  | _ => false

def isNumber : Ty → Bool
  | number _ => true
  | _ => false

def isBoolean : Ty → Bool
  | boolean => true
  | _ => false

def isString : Ty → Bool
  | string => true
  | _ => false

def isList : Ty → Bool
  | list _ => true
  | _ => false

/-- Dates, times and durations. -/
def isTemporal : Ty → Bool
  | date | time | dateTime | dayTimeDuration | yearMonthDuration => true
  | _ => false

/-- Both types belong to one family, whatever their parameters. -/
def sameFamily : Ty → Ty → Bool
  | any, any => true
  | null, null => true
  | number _, number _ => true
  | string, string => true
  | boolean, boolean => true
  | date, date => true
  | time, time => true
  | dateTime, dateTime => true
  | dayTimeDuration, dayTimeDuration => true
  | yearMonthDuration, yearMonthDuration => true
  | list _, list _ => true
  | context _, context _ => true
  | range _ _ _, range _ _ _ => true
  | function _ _ _, function _ _ _ => true
  | _, _ => false

/-- A range type that leaves both bounds open. -/
def rangeOf (element : Ty) : Ty := range element none none

/-- A function type with named parameters. -/
def named (params : List (String × Ty)) (result : Ty) : Ty :=
  function (params.map (·.2)) (some (params.map (·.1))) result

/-! ### Text -/

/-- The bracket of a bound, where its kind is known. -/
def boundText (included excluded : String) : Option Bool → String
  | some true => included
  | some false => excluded
  | none => ""

mutual

/-- The way a type is written. -/
def text : Ty → String
  | any => "Any"
  | null => "Null"
  | number kind => kind.text
  | string => "string"
  | boolean => "boolean"
  | date => "date"
  | time => "time"
  | dateTime => "date and time"
  | dayTimeDuration => "days and time duration"
  | yearMonthDuration => "years and months duration"
  | list element => "list<" ++ text element ++ ">"
  | context fields => "context<" ++ ", ".intercalate (fieldTexts fields) ++ ">"
  | range element s e => "range" ++ boundText "[" "(" s ++ boundText "]" ")" e ++
      "<" ++ text element ++ ">"
  | function params _ result =>
    "function<" ++ ", ".intercalate (texts params) ++ ">->" ++ text result

def texts : List Ty → List String
  | [] => []
  | t :: ts => text t :: texts ts

def fieldTexts : List (String × Ty) → List String
  | [] => []
  | (name, t) :: fields => (name ++ ": " ++ text t) :: fieldTexts fields

end

/-! ### Parts -/

/-- The type of what is iterated or filtered; a scalar acts as a list of itself. -/
def elementType : Ty → Ty
  | list element => element
  | range element _ _ => element
  | t => t

/-- The type of a named field. -/
def field? (t : Ty) (name : String) : Option Ty :=
  match t with
  | context fields => fields.lookup name
  | _ => none

/-- The members a string has, with their types. -/
def stringMember? : String → Option Ty
  | "length" => some (number .integer)
  | "isBlank" | "isEmpty" => some boolean
  | "trim" | "strip" | "upperCase" | "lowerCase" => some string
  | _ => none

def dateMember? : String → Option Ty
  | "year" | "month" | "day" | "dayOfMonth" | "dayOfYear" | "weekday" | "lengthOfYear" =>
    some (number .integer)
  | "isLeapYear" => some boolean
  | "epochDay" | "value" => some (number .long)
  | _ => none

def timeMember? : String → Option Ty
  | "hour" | "minute" | "second" => some (number .integer)
  | "value" => some (number .long)
  | _ => none

def dateTimeMember? : String → Option Ty
  | "date" => some date
  | "time" => some time
  | "year" | "month" | "day" | "weekday" | "hour" | "minute" | "second" => some (number .integer)
  | "epochSecond" | "value" => some (number .long)
  | _ => none

def functionMember? : String → Option Ty
  | "returnType" => some string
  | "parameterTypes" | "parameterNames" => some (list string)
  | _ => none

/-- The type of a member. A list passes a member that is not its own on to its elements. -/
def member? (name : String) : Ty → Option Ty
  | any => some any
  | null => some null
  | context fields => fields.lookup name
  | string => stringMember? name
  | date => dateMember? name
  | time => timeMember? name
  | dateTime => dateTimeMember? name
  | dayTimeDuration =>
    if ["days", "hours", "minutes", "seconds", "value"].contains name then some (number .long)
    else none
  | yearMonthDuration =>
    if ["years", "months", "value"].contains name then some (number .long) else none
  | range element _ _ =>
    if name == "start" || name == "end" then some element
    else if name == "start included" || name == "end included" then some boolean
    else none
  | list element =>
    if name == "size" then some (number .integer)
    else if name == "isEmpty" || name == "isNotEmpty" then some boolean
    else (member? name element).map list
  | function _ _ _ => functionMember? name
  | number _ | boolean => none

/-- Equality of texts up to the case of ASCII letters. -/
def sameLetters (a b : String) : Bool := a.map Char.toLower == b.map Char.toLower

/-- The types that have a name. -/
def byName? (name : String) : Option Ty :=
  match name with
  | "number" => some (number .number)
  | "string" => some string
  | "boolean" => some boolean
  | "date" => some date
  | "time" => some time
  | "date and time" => some dateTime
  | "days and time duration" | "day and time duration" | "dayTimeDuration" =>
    some dayTimeDuration
  | "years and months duration" | "year and month duration" | "yearMonthDuration" =>
    some yearMonthDuration
  | "list" => some (list any)
  | "context" => some (context [])
  | "range" => some (rangeOf any)
  | n =>
    if sameLetters n "any" then some any
    else if sameLetters n "null" then some null
    else none

end Ty

end Feel
