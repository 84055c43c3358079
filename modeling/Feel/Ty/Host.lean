import Feel.Ty.Basic

/-!
# Types of host data

The types that a host describes its data with, and the types their values have in expressions.
A map has no fixed fields, so nothing is known of its members.
-/

namespace Feel

/-- A type of host data. -/
inductive HostType where
  | int16
  | int32
  | int64
  | word16
  | word32
  | float32
  | float64
  | decimal
  | text
  | bool
  | date
  | time
  | dateTime
  | duration
  /-- Any value of an expression. -/
  | value
  /-- Any JSON document. -/
  | document
  | sequence (element : HostType)
  | optional (element : HostType)
  /-- A map from texts. -/
  | map (element : HostType)
  deriving Inhabited

namespace HostType

/-- The type of the values of a host type. -/
def type : HostType → Ty
  | int16 | int32 | word16 => .number .integer
  | int64 | word32 => .number .long
  | float32 | float64 => .number .double
  | decimal => .number .decimal
  | text => .string
  | bool => .boolean
  | date => .date
  | time => .time
  | dateTime => .dateTime
  | duration => .dayTimeDuration
  | value | document => .any
  | sequence element => .list element.type
  | optional element => element.type
  | map _ => .any

end HostType

end Feel
