import CommandChain.Config.Settings
import CommandChain.Machine.Frame
import CommandChain.Machine.PrefixStack

/-!
The state of a machine: seven stacks, each with its top first. Frames, trace entries and contexts
that belong to a suspended filter, and contexts of suspended pointer views, lie on stacks of their
own until they are resumed. No run is in progress while there is no global context.
-/
namespace CommandChain

structure Machine (I H : Type) where
  settings : EngineSettings
  registry : Registry I H
  global : Option (Context I H)
  frames : List (Frame I H)
  suspendedFrames : List (Frame I H)
  trace : List TraceEntry
  suspendedTrace : List TraceEntry
  contexts : List (Context I H)
  suspendedContexts : List (Context I H)
  prefixes : PrefixStack I H
  /-- The exceptions marked as handled. -/
  handled : List Nat
  /-- Names the next trace entry or exception. -/
  next : Nat

namespace Machine

variable {I H : Type}

def withSettings (registry : Registry I H) (settings : EngineSettings) : Machine I H :=
  ⟨settings, registry, none, [], [], [], [], [], [], [], [], 0⟩

def new (registry : Registry I H) : Machine I H := withSettings registry .standard

def isRunning (m : Machine I H) : Bool := m.global.isSome

def localContext? (m : Machine I H) : Option (Context I H) := m.contexts.head?

/-- The innermost context on the stack, or the global one outside any boundary. -/
def current (m : Machine I H) : Except ExecutionError (Context I H) :=
  match m.contexts, m.global with
  | ctx :: _, _ => .ok ctx
  | [], some ctx => .ok ctx
  | [], none => .error .notRunning

def systemId (m : Machine I H) : Except ExecutionError String :=
  match m.trace with
  | entry :: _ => .ok entry.systemId
  | [] => .error (.emptyStack .trace)

def executionTrace (m : Machine I H) : List TraceElement := m.trace.map TraceEntry.snapshot

def currentFrame? (m : Machine I H) : Option (Frame I H) := m.frames.head?

def globalFrame? (m : Machine I H) : Option (Frame I H) := m.frames.getLast?

def globalException? (m : Machine I H) : Option RaisedChain := m.globalFrame?.bind (·.exception)

def isHandled (m : Machine I H) (raised : Raised) : Bool := m.handled.contains raised.id

def depth (m : Machine I H) : StackKind → Nat
  | .frames => m.frames.length
  | .suspendedFrames => m.suspendedFrames.length
  | .trace => m.trace.length
  | .suspendedTrace => m.suspendedTrace.length
  | .contexts => m.contexts.length
  | .suspendedContexts => m.suspendedContexts.length
  | .prefixes => m.prefixes.length

def summary (m : Machine I H) : String :=
  let pair (a b : StackKind) := toString (m.depth a) ++ "/" ++ toString (m.depth b)
  "running=" ++ toString m.isRunning ++ " frames=" ++ pair .frames .suspendedFrames ++ " trace=" ++
    pair .trace .suspendedTrace ++ " contexts=" ++ pair .contexts .suspendedContexts ++
    " prefixes=" ++ toString (m.depth .prefixes) ++ " top=" ++
    Text.optional (m.currentFrame?.map Frame.debugText)

def heldContexts (m : Machine I H) : List (Context I H) :=
  m.global.toList ++ m.contexts ++ m.suspendedContexts ++ m.prefixes.map (·.context)

end Machine

structure Run (I H : Type) where
  machine : Machine I H
  world : World I H

/-- A machine operation. One that fails keeps what it did before it failed. -/
abbrev MachineM (I H α : Type) := EStateM ExecutionError (Run I H) α

namespace MachineM

variable {I H α : Type}

def machine : MachineM I H (Machine I H) := return (← get).machine

def changeMachine (change : Machine I H → Machine I H) : MachineM I H Unit :=
  modify fun run => { run with machine := change run.machine }

def changeWorld (change : World I H → World I H) : MachineM I H Unit :=
  modify fun run => { run with world := change run.world }

def onWorld (change : World I H → α × World I H) : MachineM I H α :=
  modifyGet fun run =>
    let (result, world) := change run.world
    (result, { run with world })

def note (level : LogLevel) (text : String) : MachineM I H Unit := changeWorld (·.note level text)

def ofExcept : Except ExecutionError α → MachineM I H α
  | .ok result => pure result
  | .error error => throw error

def fresh : MachineM I H Nat :=
  modifyGet fun run =>
    (run.machine.next, { run with machine := { run.machine with next := run.machine.next + 1 } })

def currentContext : MachineM I H (Context I H) := do ofExcept (← machine).current

end MachineM
end CommandChain
