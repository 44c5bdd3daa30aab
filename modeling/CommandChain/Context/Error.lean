import CommandChain.Component.Lifecycle

/-!
Why a name could not be resolved in a context.
-/
namespace CommandChain

inductive ResolveError where
  | unreachable (scope : Scope)
  | componentOutOfReach (name : QName) (scope : Scope)
  | shadowsComponent (name : QName)
  | released (scope : Scope)
  | circularComponent (name : QName)
  | qname (error : QNameError)
  | selector (error : SelectorError)
  | lifecycle (error : LifecycleError)
  deriving DecidableEq, Repr

namespace ResolveError

def code : ResolveError → String
  | .unreachable _ => "Unreachable"
  | .componentOutOfReach _ _ => "ComponentOutOfReach"
  | .shadowsComponent _ => "ShadowsComponent"
  | .released _ => "Released"
  | .circularComponent _ => "CircularComponent"
  | .qname error => "QName." ++ error.code
  | .selector error => "Path." ++ error.code
  | .lifecycle error => "Lifecycle." ++ error.code

def message : ResolveError → String
  | .unreachable scope => "unable to access scope " ++ scope.name
  | .componentOutOfReach name scope =>
    "unable to access component " ++ name.text ++ " for scope " ++ scope.name
  | .shadowsComponent name =>
    "unable to declare the variable " ++ name.text ++
      " as it conflicts with a registered component"
  | .released scope => "the " ++ scope.name ++ " scope context has been released"
  | .circularComponent name => "component " ++ name.text ++ " depends on itself"
  | .qname error => error.message
  | .selector error => error.message
  | .lifecycle error => error.message

def causes : ResolveError → List String
  | .lifecycle error => error.causes
  | _ => []

/-- The error as a selector sees it: its own errors come back as they are. -/
def toSelectorError : ResolveError → SelectorError
  | .selector error => error
  | other => .resolution other.message

end ResolveError
end CommandChain
