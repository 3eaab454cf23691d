/-!
The scalar types of a schema. Each width has a short and a sized spelling.
-/

namespace FlatSchema

inductive Scalar where
  | bool
  | int8
  | uint8
  | int16
  | uint16
  | int32
  | uint32
  | int64
  | uint64
  | float32
  | float64
  deriving DecidableEq, Repr

namespace Scalar

/-- The spellings that a schema may use, with the scalar that each names. -/
def spellings : List (String × Scalar) :=
  [("bool", bool),
   ("byte", int8), ("int8", int8),
   ("ubyte", uint8), ("uint8", uint8),
   ("short", int16), ("int16", int16),
   ("ushort", uint16), ("uint16", uint16),
   ("int", int32), ("int32", int32),
   ("uint", uint32), ("uint32", uint32),
   ("long", int64), ("int64", int64),
   ("ulong", uint64), ("uint64", uint64),
   ("float", float32), ("float32", float32),
   ("double", float64), ("float64", float64)]

def ofName? (name : String) : Option Scalar :=
  spellings.lookup name

def isFloat : Scalar → Bool
  | float32 | float64 => true
  | _ => false

end Scalar

end FlatSchema
