import CommandChain.Failure
import CommandChain.QName
import CommandChain.Scope
import CommandChain.Text.Quoted
import CommandChain.Value

/-!
Component descriptors: how to construct an instance, which selectors feed it and which hooks run
when it begins and ends. The code of an embedder works on an instance of type `T` and on a state `H`
of its own; it may fail, and what it changed before it failed stays changed.
-/
namespace CommandChain

/-- Code that works on an instance and on the state of the embedder. -/
abbrev Action (T H α : Type) := EStateM Failure (T × H) α

inductive InjectionTarget where
  | field (name : String)
  | setter (name : String)
  deriving DecidableEq, Repr

namespace InjectionTarget

def text : InjectionTarget → String
  | .field name => "field '" ++ name ++ "'"
  | .setter name => "method '" ++ name ++ "'"

def debugText : InjectionTarget → String
  | .field name => "Field(" ++ Text.quoted name ++ ")"
  | .setter name => "Setter(" ++ Text.quoted name ++ ")"

end InjectionTarget

/-- An injection as declared, before it is bound to code that assigns the value. -/
structure Injection where
  target : InjectionTarget
  select : String
  /-- A failure leaves the target unset instead of failing the component. -/
  nullable : Bool
  /-- Bindings in force while the selector is evaluated. -/
  mappings : OrderedMap String String
  deriving DecidableEq, Repr

namespace Injection

def field (name select : String) : Injection := ⟨.field name, select, false, []⟩

def setter (name select : String) : Injection := ⟨.setter name, select, false, []⟩

def asNullable (injection : Injection) : Injection := { injection with nullable := true }

def bind (injection : Injection) (name uri : String) : Injection :=
  { injection with mappings := OrderedMap.insert injection.mappings name uri }

def bindAll (injection : Injection) (mappings : List (String × String)) : Injection :=
  mappings.foldl (fun injection (name, uri) => injection.bind name uri) injection

def debugText (injection : Injection) : String :=
  Text.record "InjectionPoint" [
    ("select", Text.quoted injection.select),
    ("target", injection.target.debugText),
    ("nullable", toString injection.nullable),
    ("prefix_mappings", Text.quotedMap injection.mappings)]

end Injection

structure InjectionPoint (T H : Type) where
  injection : Injection
  assign : Value → Action T H Unit

structure Hook (T H : Type) where
  name : String
  run : Action T H Unit

structure Descriptor (T H : Type) where
  typeName : String
  name : QName
  /-- The scope whose context nodes own the instances. -/
  scope : Scope
  construct : EStateM Failure H T
  injections : List (InjectionPoint T H)
  beginHooks : List (Hook T H)
  endHooks : List (Hook T H)

structure Part (T P : Type) where
  get : T → P
  set : P → T → T

structure Kind (I T : Type) where
  typeName : String
  wrap : T → I
  unwrap? : I → Option T

def Action.onPart {T P H α : Type} (part : Part T P) (action : Action P H α) : Action T H α :=
  fun (whole, host) =>
    match action (part.get whole, host) with
    | .ok result (inner, host) => .ok result (part.set inner whole, host)
    | .error failure (inner, host) => .error failure (part.set inner whole, host)

/-- Runs code written for one type on an instance of whatever type; it fails on any other. -/
def Action.onKind {I T H α : Type} (kind : Kind I T) (action : Action T H α) : Action I H α :=
  fun (content, host) =>
    match kind.unwrap? content with
    | none => .error (.ofMessage ("component instance is not a " ++ kind.typeName)) (content, host)
    | some typed =>
      match action (typed, host) with
      | .ok result (typed, host) => .ok result (kind.wrap typed, host)
      | .error failure (typed, host) => .error failure (kind.wrap typed, host)

namespace Descriptor

variable {I T P H : Type}

/-- A descriptor with nothing to inject and no hooks, owned by the scope of a run. -/
def withConstructor (typeName : String) (name : QName) (construct : EStateM Failure H T) :
    Descriptor T H :=
  ⟨typeName, name, .execution, construct, [], [], []⟩

/-- As `withConstructor`, with instances that all start from one value. -/
def of (typeName : String) (name : QName) (initial : T) : Descriptor T H :=
  withConstructor typeName name (pure initial)

def inScope (d : Descriptor T H) (scope : Scope) : Descriptor T H := { d with scope }

def inject (d : Descriptor T H) (injection : Injection) (assign : Value → Action T H Unit) :
    Descriptor T H :=
  { d with injections := d.injections ++ [⟨injection, assign⟩] }

def field (d : Descriptor T H) (name select : String) (assign : Value → Action T H Unit) :
    Descriptor T H :=
  d.inject (.field name select) assign

def setter (d : Descriptor T H) (name select : String) (assign : Value → Action T H Unit) :
    Descriptor T H :=
  d.inject (.setter name select) assign

/-- Adds a hook that runs after injection, before the instance is cached. -/
def onBegin (d : Descriptor T H) (name : String) (run : Action T H Unit) : Descriptor T H :=
  { d with beginHooks := d.beginHooks ++ [⟨name, run⟩] }

/-- Adds a hook that runs when the owning context is released. -/
def onEnd (d : Descriptor T H) (name : String) (run : Action T H Unit) : Descriptor T H :=
  { d with endHooks := d.endHooks ++ [⟨name, run⟩] }

def Hook.onPart (part : Part T P) (hook : Hook P H) : Hook T H := ⟨hook.name, hook.run.onPart part⟩

/-- Adds what was declared for a part, after what is declared already. -/
def embed (d : Descriptor T H) (inner : Descriptor P H) (part : Part T P) : Descriptor T H :=
  { d with
    injections := d.injections ++
      inner.injections.map fun point => ⟨point.injection, fun v => (point.assign v).onPart part⟩
    beginHooks := d.beginHooks ++ inner.beginHooks.map (Hook.onPart part)
    endHooks := d.endHooks ++ inner.endHooks.map (Hook.onPart part) }

def Hook.onKind (kind : Kind I T) (hook : Hook T H) : Hook I H := ⟨hook.name, hook.run.onKind kind⟩

def erase (d : Descriptor T H) (kind : Kind I T) : Descriptor I H where
  typeName := kind.typeName
  name := d.name
  scope := d.scope
  construct := fun host =>
    match d.construct host with
    | .ok content host => .ok (kind.wrap content) host
    | .error failure host => .error failure host
  injections := d.injections.map fun point =>
    ⟨point.injection, fun v => (point.assign v).onKind kind⟩
  beginHooks := d.beginHooks.map (Hook.onKind kind)
  endHooks := d.endHooks.map (Hook.onKind kind)

def beginHookNames (d : Descriptor T H) : List String := d.beginHooks.map (·.name)

def endHookNames (d : Descriptor T H) : List String := d.endHooks.map (·.name)

def debugText (d : Descriptor T H) : String :=
  Text.record "ComponentDescriptor" [
    ("name", d.name.debugText),
    ("type", Text.quoted d.typeName),
    ("scope", d.scope.debugText),
    ("injections", Text.bracketed (d.injections.map (·.injection.debugText))),
    ("begin", Text.bracketed (d.beginHookNames.map Text.quoted)),
    ("end", Text.bracketed (d.endHookNames.map Text.quoted))]

end Descriptor
end CommandChain
