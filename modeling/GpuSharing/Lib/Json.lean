import Mathlib.Data.List.Basic
import GpuSharing.Lib.Number

namespace GpuSharing

/-- A JSON value. The names of an object's fields are its own properties, each once. -/
inductive Json
  | null
  | bool (b : Bool)
  | number (x : Number)
  | string (s : String)
  | array (items : List Json)
  | object (fields : List (String × Json))

namespace Json

/-- Whether JavaScript takes the value for true. -/
def truthy : Json → Bool
  | .null => false
  | .bool b => b
  | .number x => x ≠ .finite 0
  | .string s => s ≠ ""
  | .array _ | .object _ => true

/-- `x?.name`, for a name that only an object's own field can have. -/
def field (name : String) : Json → Option Json
  | .object fields => fields.lookup name
  | _ => none

/-- `x?.[0]`. -/
def first : Json → Option Json
  | .array items => items.head?
  | .string s => s.toList.head?.map fun c => .string (String.singleton c)
  | .object fields => fields.lookup "0"
  | _ => none

mutual

/-- Whether the value can be made a string: an object with a field `toString`, which is no function,
cannot. -/
def hasText : Json → Bool
  | .array items => itemsHaveText items
  | .object fields => (fields.lookup "toString").isNone
  | _ => true

def itemsHaveText : List Json → Bool
  | [] => true
  | x :: items => hasText x && itemsHaveText items

end

end Json

end GpuSharing
