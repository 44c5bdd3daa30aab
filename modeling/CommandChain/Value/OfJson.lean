import CommandChain.Value
import CommandChain.Json.Reader

/-!
The value that a JSON document describes.
-/
namespace CommandChain

/-- A number is whole when it is written so and fits 64 bits; zero with a sign does not. -/
def JsonNumber.value : JsonNumber → Value
  | .whole negative digits =>
    if negative ∧ 0 < digits ∧ digits ≤ powerOfTwo 63 then .int (-(digits : Int))
    else if ¬negative ∧ digits < powerOfTwo 63 then .int digits
    else .float (Binary64.ofDecimal negative digits 0)
  | .binary x => .float x

namespace Value

mutual

def ofJson : Json → Value
  | .null => .null
  | .bool b => .bool b
  | .number n => n.value
  | .string s => .str s
  | .array items => .list (ofItems items)
  | .object members => ofPairs (ofMembers members)

def ofItems : List Json → List Value
  | [] => []
  | item :: rest => ofJson item :: ofItems rest

def ofMembers : List (String × Json) → List (String × Value)
  | [] => []
  | (key, value) :: rest => (key, ofJson value) :: ofMembers rest

end

end Value
end CommandChain
