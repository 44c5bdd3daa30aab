import CommandChain.Machine.Error

/-!
Frames: one for the run and one for each command in flight. A frame carries the exception that was
last raised directly above it, if any.
-/
namespace CommandChain

/-- A fault as it was recorded: the trace at that moment, and an identity by which it can later be
marked as handled. -/
structure Raised where
  id : Nat
  fault : Fault
  trace : List TraceElement

/-- A fault that was recorded, and those it interrupted, the most recent first. -/
structure RaisedChain where
  latest : Raised
  interrupted : List Raised

namespace RaisedChain

def all (chain : RaisedChain) : List Raised := chain.latest :: chain.interrupted

/-- A run failure of the faults of a chain, in order. -/
def failureOf (latest : Raised) : List Raised → RunFailure
  | [] => .only latest.fault latest.trace
  | next :: rest => .interrupting latest.fault latest.trace (failureOf next rest)

def failure (chain : RaisedChain) : RunFailure := failureOf chain.latest chain.interrupted

end RaisedChain

inductive FrameKind where
  /-- The frame of the run. -/
  | global
  | command (command : Command)

structure Frame (I H : Type) where
  kind : FrameKind
  /-- The context current when the frame was last entered. -/
  context : Context I H
  /-- The context that the frame's command opened, if it is registered. -/
  opened : Option (Context I H)
  exception : Option RaisedChain

namespace Frame

variable {I H : Type}

def command? (frame : Frame I H) : Option Command :=
  match frame.kind with
  | .global => none
  | .command command => some command

def isFor (frame : Frame I H) (command : Command) : Bool :=
  match frame.kind with
  | .global => false
  | .command own => own.same command

def commandName (frame : Frame I H) : String :=
  match frame.kind with
  | .global => "<global>"
  | .command command => command.name

def debugText (frame : Frame I H) : String :=
  match frame.kind with
  | .global => "Global"
  | .command command => "Command[" ++ command.name ++ "]"

end Frame
end CommandChain
