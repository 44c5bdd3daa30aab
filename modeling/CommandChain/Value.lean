import CommandChain.OrderedMap
import CommandChain.Number.Shortest

/-!
Values: what variables hold, selectors yield and functions take. A component is held by reference,
and two references are equal when they name the same instance.
-/
namespace CommandChain

/-- Names a component instance. The type name is that of the instance. -/
structure ComponentRef where
  id : Nat
  typeName : String
  deriving DecidableEq, Repr, Inhabited

inductive Value where
  | null
  | bool (b : Bool)
  | int (i : Int)
  | float (x : Binary64)
  | str (s : String)
  | list (items : List Value)
  | map (entries : List (String × Value))
  | component (ref : ComponentRef)
  deriving Inhabited

namespace Value

def kindName : Value → String
  | .null => "null"
  | .bool _ => "bool"
  | .int _ => "int"
  | .float _ => "float"
  | .str _ => "string"
  | .list _ => "list"
  | .map _ => "map"
  | .component _ => "component"

def isNull : Value → Bool
  | .null => true
  | _ => false

def bool? : Value → Option Bool
  | .bool b => some b
  | _ => none

def int? : Value → Option Int
  | .int i => some i
  | _ => none

/-- A whole number is widened to the nearest binary one. -/
def float? : Value → Option Binary64
  | .float x => some x
  | .int i => some (Binary64.ofInt i)
  | _ => none

def str? : Value → Option String
  | .str s => some s
  | _ => none

def list? : Value → Option (List Value)
  | .list items => some items
  | _ => none

def map? : Value → Option (OrderedMap String Value)
  | .map entries => some entries
  | _ => none

def component? : Value → Option ComponentRef
  | .component ref => some ref
  | _ => none

def get? (value : Value) (key : String) : Option Value :=
  value.map?.bind (OrderedMap.find? · key)

/-- A map of the pairs: a repeated key keeps its first place and its last value. -/
def ofPairs (pairs : List (String × Value)) : Value := .map (OrderedMap.ofPairs pairs)

mutual

/-- The text of a value. Null has none, and text inside lists and maps is not quoted. -/
def text : Value → String
  | .null => ""
  | .bool b => if b then "true" else "false"
  | .int i => toString i
  | .float x => x.text
  | .str s => s
  | .list items => "[" ++ ", ".intercalate (itemTexts items) ++ "]"
  | .map entries => "\x7b" ++ ", ".intercalate (entryTexts entries) ++ "\x7d"
  | .component ref => "component<" ++ ref.typeName ++ ">"

def itemTexts : List Value → List String
  | [] => []
  | item :: rest => text item :: itemTexts rest

def entryTexts : List (String × Value) → List String
  | [] => []
  | (key, value) :: rest => (key ++ ": " ++ text value) :: entryTexts rest

end

mutual

/-- Equality of values. A whole number never equals a binary one, and maps are equal when they hold
equal values under the same keys, in whatever order. -/
def equals : Value → Value → Bool
  | .null, .null => true
  | .bool a, .bool b => a = b
  | .int a, .int b => a = b
  | .float a, .float b => a.equals b
  | .str a, .str b => a = b
  | .list a, .list b => itemsEqual a b
  | .map a, .map b => a.length = b.length && entriesIn a b
  | .component a, .component b => a.id = b.id
  | _, _ => false

def itemsEqual : List Value → List Value → Bool
  | [], [] => true
  | a :: as, b :: bs => equals a b && itemsEqual as bs
  | _, _ => false

def entriesIn : List (String × Value) → List (String × Value) → Bool
  | [], _ => true
  | (key, value) :: rest, other =>
    (match OrderedMap.find? other key with
      | some found => equals value found
      | none => false) && entriesIn rest other

end

end Value
end CommandChain
