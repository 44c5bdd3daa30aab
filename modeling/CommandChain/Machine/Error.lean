import CommandChain.Context.Error
import CommandChain.Machine.Trace

/-!
Faults and the errors of the machine. A fault is an error that a command's body raised; it has an
identity, and two faults are the same when they have one identity, whatever they say. Any error of
the library can become a fault, and a run that ends with a fault fails with an error that holds it.
-/
namespace CommandChain

inductive StackKind where
  | frames
  | suspendedFrames
  | trace
  | suspendedTrace
  | contexts
  | suspendedContexts
  | prefixes
  deriving DecidableEq, Repr

namespace StackKind

def all : List StackKind :=
  [.frames, .suspendedFrames, .trace, .suspendedTrace, .contexts, .suspendedContexts, .prefixes]

def text : StackKind → String
  | .frames => "frame"
  | .suspendedFrames => "suspended frame"
  | .trace => "trace"
  | .suspendedTrace => "suspended trace"
  | .contexts => "context"
  | .suspendedContexts => "suspended context"
  | .prefixes => "prefix mapping"

def code : StackKind → String
  | .frames => "Frames"
  | .suspendedFrames => "SuspendedFrames"
  | .trace => "Trace"
  | .suspendedTrace => "SuspendedTrace"
  | .contexts => "Contexts"
  | .suspendedContexts => "SuspendedContexts"
  | .prefixes => "Prefixes"

end StackKind

/-- The operations that check what they are called with. -/
inductive Operation where
  | endCommand
  | startPostProcess
  | endPostProcess
  | startPointer
  | stopPointer
  | suspendPointer
  | resumePointer
  | exceptionThrown
  | exceptionHandled
  deriving DecidableEq, Repr

def Operation.name : Operation → String
  | .endCommand => "end_command_execute"
  | .startPostProcess => "start_command_post_process"
  | .endPostProcess => "end_command_post_process"
  | .startPointer => "start_context_pointer"
  | .stopPointer => "stop_context_pointer"
  | .suspendPointer => "suspend_context_pointer"
  | .resumePointer => "resume_context_pointer"
  | .exceptionThrown => "exception_thrown"
  | .exceptionHandled => "exception_handled"

mutual

inductive Fault where
  | mk (id : Nat) (cause : FaultCause)

inductive FaultCause where
  | failure (failure : Failure)
  | selector (error : SelectorError)
  | resolve (error : ResolveError)
  | execution (error : ExecutionError)

inductive ExecutionError where
  | alreadyRunning
  | notRunning
  | unregisteredEntry (command : String)
  | contextMismatch (operation : Operation)
  | commandMismatch (operation : Operation) (expected found : String)
  | notAPointer (operation : Operation)
  | emptyStack (stack : StackKind)
  | callDepthExceeded (limit : Nat)
  | prefixMismatch (command : String)
  | missingException (command : String)
  | resolve (error : ResolveError)
  /-- The run ended with a fault that nobody handled. -/
  | failed (failure : RunFailure)
  /-- The run ended with a fault that was not recorded. -/
  | escaped (fault : Fault)

/-- The fault a run ended with and the trace at the moment it was recorded, and so on for the faults
it interrupted, the most recent first. -/
inductive RunFailure where
  | only (fault : Fault) (trace : List TraceElement)
  | interrupting (fault : Fault) (trace : List TraceElement) (earlier : RunFailure)

end

def ExecutionError.code : ExecutionError → String
  | .alreadyRunning => "AlreadyRunning"
  | .notRunning => "NotRunning"
  | .unregisteredEntry _ => "UnregisteredEntry"
  | .contextMismatch _ => "ContextMismatch"
  | .commandMismatch _ _ _ => "CommandMismatch"
  | .notAPointer _ => "NotAPointer"
  | .emptyStack stack => "EmptyStack." ++ stack.code
  | .callDepthExceeded _ => "CallDepthExceeded"
  | .prefixMismatch _ => "PrefixMismatch"
  | .missingException _ => "MissingException"
  | .resolve error => "Scope." ++ error.code
  | .failed _ => "Failed"
  | .escaped _ => "Escaped"

def FaultCause.code? : FaultCause → Option String
  | .failure _ => none
  | .selector error => some ("Path." ++ error.code)
  | .resolve error => some ("Scope." ++ error.code)
  | .execution error => some ("Execution." ++ error.code)

namespace Fault

def id : Fault → Nat
  | .mk id _ => id

def cause : Fault → FaultCause
  | .mk _ cause => cause

def same (a b : Fault) : Bool := a.id = b.id

end Fault

def traceLines (trace : List TraceElement) : String :=
  "".intercalate (trace.map fun element => "\n        at " ++ element.text)

mutual

def Fault.text : Fault → String
  | .mk _ cause => cause.text

def FaultCause.text : FaultCause → String
  | .failure failure => failure.message
  | .selector error => error.message
  | .resolve error => error.message
  | .execution error => error.message

def ExecutionError.message : ExecutionError → String
  | .alreadyRunning => "an execution is already in progress"
  | .notRunning => "no execution is in progress"
  | .unregisteredEntry command =>
    "initial call to command '" ++ command ++ "' that is not registered with a catalog"
  | .contextMismatch operation =>
    "the context passed to " ++ operation.name ++ " was not the current context"
  | .commandMismatch operation expected found =>
    "the command passed to " ++ operation.name ++ " was '" ++ found ++
      "', but the current command is '" ++ expected ++ "'"
  | .notAPointer operation =>
    "the context passed to " ++ operation.name ++ " is not a context pointer"
  | .emptyStack stack => "the " ++ stack.text ++ " stack is empty"
  | .callDepthExceeded limit =>
    "call depth exceeded the limit of " ++ toString limit ++ " frames"
  | .prefixMismatch command =>
    "prefix mappings undefined on the wrong context and command '" ++ command ++ "'"
  | .missingException command =>
    "command '" ++ command ++ "' reported a handled exception, but none was recorded"
  | .resolve error => error.message
  | .failed failure => "an exception was thrown during the execution: " ++ failure.text
  | .escaped fault => "an error escaped the execution without being recorded: " ++ fault.text

def RunFailure.text : RunFailure → String
  | .only fault trace => fault.text ++ traceLines trace
  | .interrupting fault trace earlier =>
    fault.text ++ traceLines trace ++ "\n    while handling: " ++ earlier.text

end

namespace RunFailure

def fault : RunFailure → Fault
  | .only fault _ => fault
  | .interrupting fault _ _ => fault

def trace : RunFailure → List TraceElement
  | .only _ trace => trace
  | .interrupting _ trace _ => trace

/-- The faults interrupted, most recent first, each with its trace. -/
def interrupted : RunFailure → List (Fault × List TraceElement)
  | .only _ _ => []
  | .interrupting _ _ earlier => (earlier.fault, earlier.trace) :: earlier.interrupted

end RunFailure

mutual

def Fault.causes : Fault → List String
  | .mk _ cause => cause.causes

def FaultCause.causes : FaultCause → List String
  | .failure failure => failure.causes
  | .selector _ => []
  | .resolve error => error.causes
  | .execution error => error.causes

/-- A run that failed was caused by its fault; a fault that escaped is told in the message alone. -/
def ExecutionError.causes : ExecutionError → List String
  | .resolve error => error.causes
  | .failed failure => failure.causes
  | _ => []

def RunFailure.causes : RunFailure → List String
  | .only fault _ => fault.text :: fault.causes
  | .interrupting fault _ _ => fault.text :: fault.causes

end

def Fault.fullText (fault : Fault) : String := Failure.chainText fault.text fault.causes

end CommandChain
