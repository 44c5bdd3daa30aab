import CommandChain.Machine.Operations

/-!
The calling sequence that every command follows: start, body, record of the fault it raised, end.
The end is reached on every path. A body is a computation on the machine, on the world and on a
state `S` of its own, and it fails with a fault.
-/
namespace CommandChain

variable {I H S : Type}

/-- A computation of an embedder around machine operations. -/
abbrev Program (I H S ε α : Type) := EStateM ε (Run I H × S) α

/-- What a filter's post-processing did with the fault it was given. -/
inductive Disposition where
  /-- The fault goes on. -/
  | propagate
  /-- The fault ends here. -/
  | handled
  deriving DecidableEq, Repr

namespace Program

def ofMachine {α : Type} (operation : MachineM I H α) : Program I H S ExecutionError α :=
  fun (run, s) =>
    match operation run with
    | .ok result run => .ok result (run, s)
    | .error error run => .error error (run, s)

def mintFault {ε : Type} (cause : FaultCause) : Program I H S ε Fault :=
  modifyGet fun (run, s) =>
    (.mk run.world.nextFault cause,
      (⟨run.machine, { run.world with nextFault := run.world.nextFault + 1 }⟩, s))

def note {ε : Type} (level : LogLevel) (text : String) : Program I H S ε Unit :=
  modify fun (run, s) => (⟨run.machine, run.world.note level text⟩, s)

/-- Raises the error of a machine operation as a new fault. -/
def raising {α : Type} (operation : MachineM I H α) : Program I H S Fault α := do
  match ← attempt (ofMachine operation) with
  | .ok result => pure result
  | .error error => throw (← mintFault (.execution error))

/-- Records a fault; if that fails it is only told. -/
def record (command : Command) (operation : MachineM I H Unit) : Program I H S Fault Unit := do
  match ← attempt (ofMachine operation) with
  | .ok () => pure ()
  | .error error =>
    note .error ("could not record exception for '" ++ command.name ++ "': " ++ error.message)

/-- Ends a frame. The fault of the body goes before a failure to end the frame. -/
def conclude (outcome : Except Fault Unit) (ending : MachineM I H (Context I H)) :
    Program I H S Fault Unit := do
  match outcome, ← attempt (ofMachine ending) with
  | .error fault, .error error =>
    note .error ("ending frame after failure also failed: " ++ error.message)
    throw fault
  | .error fault, .ok _ => throw fault
  | .ok (), .error error => throw (← mintFault (.execution error))
  | .ok (), .ok _ => pure ()

def invoke (command : Command) (ctx : Context I H)
    (body : Context I H → Program I H S Fault Unit) : Program I H S Fault Unit := do
  let entered ← raising (Machine.startCommand command ctx)
  let outcome ← attempt (body entered)
  match outcome with
  | .error fault => record command (Machine.exceptionThrown command fault)
  | .ok () => pure ()
  conclude outcome (Machine.endCommand command entered)

/-- Runs the post-processing of a suspended filter. The pending fault, if there is one, is what came
from downstream. -/
def postProcess (command : Command) (ctx : Context I H) (pending : Option Fault)
    (body : Context I H → Program I H S Fault Disposition) : Program I H S Fault Unit := do
  let entered ← raising (Machine.startPostProcess command ctx)
  let outcome ← match ← attempt (body entered) with
    | .ok .handled =>
      match pending with
      | some fault => record command (Machine.exceptionHandled command fault)
      | none => pure ()
      pure (.ok ())
    | .ok .propagate =>
      pure (match pending with
        | some fault => .error fault
        | none => .ok ())
    | .error fault =>
      record command (Machine.exceptionThrown command fault)
      pure (.error fault)
  conclude outcome (Machine.endPostProcess command entered)

/-- Runs a body between the start and the end of a run. A fault of the body that was not recorded
escapes. -/
def execute (subject : Value) (body : Context I H → Program I H S Fault Unit) :
    Program I H S ExecutionError Unit := do
  let global ← ofMachine (Machine.start subject)
  let outcome ← attempt (body global)
  ofMachine Machine.finish
  match outcome with
  | .ok () => pure ()
  | .error fault => throw (.escaped fault)

def libraryName : String := "Catena"

def libraryVersion : String := "0.3.2"

/-- Puts a machine in place of the one at hand, for one computation. -/
def onMachine {ε α : Type} (m : Machine I H) (x : Program I H S ε α) :
    Program I H S ε (α × Machine I H) := fun (run, s) =>
  match x (⟨m, run.world⟩, s) with
  | .ok result (inner, s) => .ok (result, inner.machine) (⟨run.machine, inner.world⟩, s)
  | .error error (inner, s) => .error error (⟨run.machine, inner.world⟩, s)

def runOnce (registry : Registry I H) (subject : Value)
    (body : Context I H → Program I H S Fault Unit) : Program I H S ExecutionError Unit := do
  note .debug (libraryName ++ " " ++ libraryVersion ++ " run starting")
  let (outcome, m) ← onMachine (Machine.new registry) (attempt (execute subject body))
  match outcome with
  | .ok () => pure ()
  | .error error => note .debug ("run failed: " ++ error.message)
  modify fun (run, s) => (⟨run.machine, m.abandon run.world⟩, s)
  match outcome with
  | .ok () => pure ()
  | .error error => throw error

end Program
end CommandChain
