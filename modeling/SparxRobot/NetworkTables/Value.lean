import Mathlib.Data.UInt

/-! The values of a table's entries. A string is its bytes, and a double its bits. -/
namespace SparxRobot.NetworkTables

abbrev Bytes := List UInt8

abbrev Double := UInt64

inductive NT_Type where
  | NT_UNASSIGNED | NT_BOOLEAN | NT_DOUBLE | NT_STRING | NT_RAW
  | NT_BOOLEAN_ARRAY | NT_DOUBLE_ARRAY | NT_STRING_ARRAY | NT_RPC
  deriving DecidableEq, Repr

/-- The elements of a boolean array are ints. -/
inductive Value where
  | unassigned
  | boolean (b : Bool)
  | double (d : Double)
  | string (s : Bytes)
  | raw (s : Bytes)
  | rpc (s : Bytes)
  | booleanArray (v : List Int32)
  | doubleArray (v : List Double)
  | stringArray (v : List Bytes)
  deriving DecidableEq

namespace Value

def type : Value → NT_Type
  | unassigned => .NT_UNASSIGNED
  | boolean _ => .NT_BOOLEAN
  | double _ => .NT_DOUBLE
  | string _ => .NT_STRING
  | raw _ => .NT_RAW
  | rpc _ => .NT_RPC
  | booleanArray _ => .NT_BOOLEAN_ARRAY
  | doubleArray _ => .NT_DOUBLE_ARRAY
  | stringArray _ => .NT_STRING_ARRAY

end Value

end SparxRobot.NetworkTables
