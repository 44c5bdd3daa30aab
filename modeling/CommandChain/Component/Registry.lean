import CommandChain.Component.Descriptor
import CommandChain.Functions

/-!
Registries: the components, functions and default prefixes that a context may refer to. A registry
is filled before any context uses it, and does not change afterwards.
-/
namespace CommandChain

inductive RegistryError where
  | duplicateComponent (name : QName)
  deriving DecidableEq, Repr

namespace RegistryError

def code : RegistryError → String
  | .duplicateComponent _ => "DuplicateComponent"

def message : RegistryError → String
  | .duplicateComponent name => "component " ++ name.text ++ " is already registered"

end RegistryError

structure Registry (I H : Type) where
  components : OrderedMap QName (Descriptor I H)
  functions : FunctionLibrary
  /-- Bound in every outermost namespace layer. -/
  prefixes : OrderedMap String String

namespace Registry

variable {I H : Type}

def empty : Registry I H := ⟨[], .empty, []⟩

instance : Inhabited (Registry I H) := ⟨empty⟩

/-- With the functions that are built in, and the prefix of their namespace bound. -/
def standard : Registry I H := ⟨[], .builtins, [(enginePrefix, engineNamespace)]⟩

def descriptor? (registry : Registry I H) (name : QName) : Option (Descriptor I H) :=
  OrderedMap.find? registry.components name

/-- The descriptor of a name, if its components are owned by the scope. -/
def descriptorIn? (registry : Registry I H) (name : QName) (scope : Scope) :
    Option (Descriptor I H) :=
  (registry.descriptor? name).filter (·.scope = scope)

/-- Adds a component under its name; a name is given away once. -/
def register (registry : Registry I H) (d : Descriptor I H) :
    Except RegistryError (Registry I H) :=
  if OrderedMap.contains registry.components d.name then .error (.duplicateComponent d.name)
  else .ok { registry with components := registry.components ++ [(d.name, d)] }

def bindPrefix (registry : Registry I H) (name uri : String) : Registry I H :=
  { registry with prefixes := OrderedMap.insert registry.prefixes name uri }

def bindPrefixes (registry : Registry I H) (mappings : List (String × String)) : Registry I H :=
  mappings.foldl (fun registry (name, uri) => registry.bindPrefix name uri) registry

def registerFunction (registry : Registry I H) (name : QName) (function : NativeFunction) :
    Registry I H :=
  { registry with functions := registry.functions.register name function }

def function? (registry : Registry I H) (name : QName) : Option NativeFunction :=
  registry.functions.get? name

def componentNames (registry : Registry I H) : List QName := OrderedMap.keys registry.components

def componentCount (registry : Registry I H) : Nat := registry.components.length

end Registry
end CommandChain
