import CommandChain.QName
import CommandChain.Selector.Error
import CommandChain.Value

/-!
Functions that selectors may call, by qualified name. A few are built in, under a namespace of
their own.
-/
namespace CommandChain

abbrev NativeFunction := List Value → Except SelectorError Value

def engineNamespace : String := "http://catena.dev/engine"

/-- The prefix that a fresh registry binds to that namespace. -/
def enginePrefix : String := "catena"

abbrev FunctionLibrary := OrderedMap QName NativeFunction

namespace FunctionLibrary

def empty : FunctionLibrary := []

/-- Adds a function in place of any of that name. -/
def register (library : FunctionLibrary) (name : QName) (function : NativeFunction) :
    FunctionLibrary :=
  OrderedMap.insert library name function

def get? (library : FunctionLibrary) (name : QName) : Option NativeFunction :=
  OrderedMap.find? library name

def concat : NativeFunction := fun args => .ok (.str ("".intercalate (args.map Value.text)))

/-- How many items a list or a map has; null has none. -/
def count : NativeFunction
  | [.list items] => .ok (.int items.length)
  | [.map entries] => .ok (.int entries.length)
  | [.null] => .ok (.int 0)
  | [other] => .error (.badArgument "count" ("expected a list or map, got " ++ other.kindName))
  | args => .error (.arity "count" 1 args.length)

def string : NativeFunction
  | [value] => .ok (.str value.text)
  | args => .error (.arity "string" 1 args.length)

def builtins : FunctionLibrary :=
  [("concat", concat), ("count", count), ("string", string)].foldl
    (fun library (name, function) => register library (.qualified engineNamespace name) function)
    empty

end FunctionLibrary
end CommandChain
