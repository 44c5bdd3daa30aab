import CommandChain.Context.Node
import CommandChain.Selector.Error
import CommandChain.World

/-!
The life of a component: construction, injection, begin hooks; at its end, end hooks. How a selector
gets its value is left to whoever asks, because a selector may ask for further components.
-/
namespace CommandChain

inductive LifecycleError where
  | construction (component : QName) (cause : Failure)
  | injection (component : QName) (target : InjectionTarget) (select : String) (scope : Scope)
      (cause : Failure)
  | hook (component : QName) (phase : HookPhase) (hook : String) (cause : Failure)
  | busy (component : QName)
  deriving DecidableEq, Repr

namespace LifecycleError

def code : LifecycleError → String
  | .construction _ _ => "Construction"
  | .injection _ _ _ _ _ => "Injection"
  | .hook _ phase _ _ => "Hook." ++ phase.text
  | .busy _ => "Busy"

def message : LifecycleError → String
  | .construction component _ => "unable to construct component " ++ component.text
  | .injection component target select scope _ =>
    "unable to inject value into " ++ target.text ++ " of " ++ component.text ++ " from path '" ++
      select ++ "' at scope '" ++ scope.name ++ "'"
  | .hook component phase name _ =>
    phase.text ++ " hook '" ++ name ++ "' of " ++ component.text ++ " failed"
  | .busy component => "component " ++ component.text ++ " is borrowed elsewhere"

def cause? : LifecycleError → Option Failure
  | .construction _ cause => some cause
  | .injection _ _ _ _ cause => some cause
  | .hook _ _ _ cause => some cause
  | .busy _ => none

def causes (error : LifecycleError) : List String :=
  match error.cause? with
  | some cause => cause.message :: cause.causes
  | none => []

end LifecycleError

namespace Lifecycle

variable {I H : Type}

/-- How the text of a selector gets its value. -/
abbrev Evaluator (I H : Type) := String → WorldM I H SelectorError Value

/-- The value of one injection point. Its bindings are in force while its selector is evaluated, and
for no longer. -/
def evaluatePoint (evaluate : Evaluator I H) (ctx : Context I H) (point : InjectionPoint I H) :
    WorldM I H LifecycleError (Except SelectorError Value) := do
  let snapshot ← modifyGet (·.overrideBindings ctx point.injection.mappings)
  let outcome ← attempt (evaluate point.injection.select)
  modify (·.restoreBindings ctx snapshot)
  pure outcome

def injectPoint (evaluate : Evaluator I H) (ref : ComponentRef) (ctx : Context I H)
    (point : InjectionPoint I H) : WorldM I H LifecycleError (Except Failure Unit) := do
  match ← evaluatePoint evaluate ctx point with
  | .error error => pure (.error (.ofMessage error.message))
  | .ok value =>
    match ← modifyGet (·.runOn ref (point.assign value)) with
    | some outcome => pure outcome
    | none => pure (.error (.ofMessage "component instance is borrowed"))

/-- Feeds the injection points in order. A nullable one that fails is left unset. -/
def injectPoints (evaluate : Evaluator I H) (ref : ComponentRef) (d : Descriptor I H)
    (ctx : Context I H) : List (InjectionPoint I H) → WorldM I H LifecycleError Unit
  | [] => pure ()
  | point :: rest => do
    match ← injectPoint evaluate ref ctx point with
    | .ok () => injectPoints evaluate ref d ctx rest
    | .error cause =>
      if point.injection.nullable then
        modify (·.note .debug ("left " ++ point.injection.target.text ++ " of " ++ d.name.text ++
          " unset: " ++ Failure.chainText cause.message cause.causes))
        injectPoints evaluate ref d ctx rest
      else
        throw (.injection d.name point.injection.target point.injection.select ctx.scope cause)

def inject (evaluate : Evaluator I H) (ref : ComponentRef) (d : Descriptor I H)
    (ctx : Context I H) : WorldM I H LifecycleError Unit :=
  injectPoints evaluate ref d ctx d.injections

/-- Runs begin hooks in order, up to the first that fails. -/
def beginHooks (ref : ComponentRef) (name : QName) :
    List (Hook I H) → WorldM I H LifecycleError Unit
  | [] => pure ()
  | hook :: rest => do
    match ← modifyGet (·.runHook ref .begin hook) with
    | some (.ok ()) => beginHooks ref name rest
    | some (.error cause) => throw (.hook name .begin hook.name cause)
    | none => throw (.busy name)

def begin (ref : ComponentRef) (d : Descriptor I H) : WorldM I H LifecycleError Unit :=
  beginHooks ref d.name d.beginHooks

/-- Runs every end hook in order, also after one fails, and collects the failures. An instance that
is held has none of the remaining ones run. -/
def endHooks (w : World I H) (ref : ComponentRef) (name : QName) :
    List (Hook I H) → List LifecycleError × World I H
  | [] => ([], w)
  | hook :: rest =>
    match w.runHook ref .end hook with
    | (some (.ok ()), w) => endHooks w ref name rest
    | (some (.error cause), w) =>
      let (failures, w) := endHooks w ref name rest
      (.hook name .end hook.name cause :: failures, w)
    | (none, w) => ([.busy name], w)

def finish (w : World I H) (ref : ComponentRef) (d : Descriptor I H) :
    List LifecycleError × World I H :=
  endHooks w ref d.name d.endHooks

def construct (d : Descriptor I H) : WorldM I H LifecycleError ComponentRef := fun w =>
  match d.construct w.host with
  | .error cause host => .error (.construction d.name cause) { w with host }
  | .ok content host =>
    let (ref, w) := { w with host }.addCell d.typeName content
    .ok ref w

def create (evaluate : Evaluator I H) (d : Descriptor I H) (ctx : Context I H) :
    WorldM I H LifecycleError ComponentRef := do
  let ref ← construct d
  inject evaluate ref d ctx
  begin ref d
  modify (·.note .debug
    ("created component " ++ d.name.text ++ " at " ++ ctx.scope.name ++ " scope"))
  pure ref

end Lifecycle
end CommandChain
