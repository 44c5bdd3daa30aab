import CommandChain.Context.Release
import CommandChain.Context.Variables
import CommandChain.Machine.State

/-!
The operations of a machine. Every operation that ends or stops something must name the context and
the command on top of the stacks. Filters are the exception to plain nesting: the end of a filter
moves its frame, and with a registered filter its context and trace entry, to the suspended stacks,
and the start of its post-processing moves them back.
-/
namespace CommandChain.Machine

open MachineM

variable {I H : Type}

/-! ### Checks -/

def checkContext (ctx : Context I H) (operation : Operation) : MachineM I H Unit := do
  if !(← currentContext).same ctx then throw (.contextMismatch operation)

def checkPointer (ctx : Context I H) (operation : Operation) : MachineM I H Unit := do
  checkContext ctx operation
  if !ctx.isPointer then throw (.notAPointer operation)

def mismatch (operation : Operation) (frame : Frame I H) (command : Command) : ExecutionError :=
  .commandMismatch operation frame.commandName command.name

def checkCommand (command : Command) (operation : Operation) : MachineM I H Unit := do
  match (← machine).frames with
  | [] => throw (.emptyStack .frames)
  | top :: _ => if !top.isFor command then throw (mismatch operation top command)

/-! ### Stacks -/

def popFrame : MachineM I H (Frame I H) := do
  match (← machine).frames with
  | [] => throw (.emptyStack .frames)
  | top :: rest =>
    changeMachine ({ · with frames := rest })
    pure top

def popContext : MachineM I H (Context I H) := do
  match (← machine).contexts with
  | [] => throw (.emptyStack .contexts)
  | top :: rest =>
    changeMachine ({ · with contexts := rest })
    pure top

def popTrace : MachineM I H TraceEntry := do
  match (← machine).trace with
  | [] => throw (.emptyStack .trace)
  | top :: rest =>
    changeMachine ({ · with trace := rest })
    pure top

def pushFrame (frame : Frame I H) : MachineM I H Unit :=
  changeMachine fun m => { m with frames := frame :: m.frames }

def pushContext (ctx : Context I H) : MachineM I H Unit :=
  changeMachine fun m => { m with contexts := ctx :: m.contexts }

def pushTrace (entry : TraceEntry) : MachineM I H Unit :=
  changeMachine fun m => { m with trace := entry :: m.trace }

/-- The place of a command in the trace: its own, or the unknown one. -/
def locatorOf (m : Machine I H) (command : Command) : Locator :=
  command.locator.getD (.unknown m.settings.unknownLocation)

/-- Moves the innermost trace entry to the place of the command on top. -/
def updateLocation : MachineM I H Unit := do
  let m ← machine
  match m.trace, m.frames.head?.bind Frame.command? with
  | entry :: rest, some command =>
    let locator := m.locatorOf command
    note .trace ("'" ++ command.name ++ "' at " ++ locator.text)
    changeMachine ({ · with trace := { entry with locator := some locator } :: rest })
  | _, _ => pure ()

def definePrefixes (ctx : Context I H) (command : Command) : MachineM I H Unit := do
  match command.mappings with
  | none => pure ()
  | some mappings =>
    modify fun run =>
      let (prefixes, world) := run.machine.prefixes.define ctx command mappings run.world
      ⟨{ run.machine with prefixes }, world⟩

def undefinePrefixes (ctx : Context I H) (command : Command) : MachineM I H Unit := do
  match command.mappings with
  | none => pure ()
  | some _ =>
    let run ← get
    match run.machine.prefixes.undefine ctx command run.world with
    | .ok (prefixes, world) => set (⟨{ run.machine with prefixes }, world⟩ : Run I H)
    | .error error => throw error

/-- Notes on the frame on top which context it was entered with. -/
def markEntered (ctx : Context I H) : MachineM I H Unit :=
  changeMachine fun m =>
    match m.frames with
    | top :: rest => { m with frames := { top with context := ctx } :: rest }
    | [] => m

/-! ### Runs -/

def beginRun (global : Context I H) : MachineM I H (Context I H) := do
  let m ← machine
  if m.isRunning then throw .alreadyRunning
  changeWorld (·.setWarns global m.settings.warnUnreleased)
  changeMachine fun m =>
    { m with frames := ⟨.global, global, none, none⟩ :: m.frames, global := some global }
  note .debug ("execution started at " ++ global.scope.name ++ " scope")
  pure global

def start (subject : Value) : MachineM I H (Context I H) := do
  let m ← machine
  beginRun (← onWorld (·.openContext .execution m.registry subject none))

def startWithin (parent : Context I H) : MachineM I H (Context I H) := do
  beginRun (← onWorld (·.openChild parent parent.subject))

/-- The failure that a run would end with: the exception on its own frame, unless it was handled. -/
def failure? (m : Machine I H) : Option RunFailure :=
  match m.globalException? with
  | some chain => if m.isHandled chain.latest then none else some chain.failure
  | none => none

def cleared (m : Machine I H) : Machine I H :=
  { m with
    global := none, frames := [], suspendedFrames := [], trace := [], suspendedTrace := [],
    contexts := [], suspendedContexts := [], prefixes := [] }

/-- Ends the run: every stack is cleared and every context on them is released, the active ones
before the suspended ones, each from the top down, and the global one last. -/
def finish : MachineM I H Unit := do
  let m ← machine
  match m.global with
  | none => throw .notRunning
  | some global =>
    changeMachine cleared
    changeWorld (·.endContexts (m.contexts ++ m.suspendedContexts))
    changeWorld (·.endContext global)
    note .debug "execution ended"
    match m.failure? with
    | some failure => throw (.failed failure)
    | none => pure ()

/-! ### Commands -/

/-- Enters a command and tells the context its body runs in. A registered command opens a child of
the current context; any other must be given the current context. -/
def startCommand (command : Command) (ctx : Context I H) : MachineM I H (Context I H) := do
  let current ← currentContext
  let m ← machine
  if m.settings.maxDepth ≤ m.frames.length then throw (.callDepthExceeded m.settings.maxDepth)
  match command.registration with
  | some registration =>
    let opened ← onWorld (·.openChild current ctx.subject)
    let entry ← fresh
    pushFrame ⟨.command command, opened, some opened, none⟩
    pushContext opened
    pushTrace (.ofRegistration entry registration)
    note .debug ("entered '" ++ command.name ++ "' as " ++ registration.qname.text)
  | none =>
    if !ctx.same current then throw (.unregisteredEntry command.name)
    pushFrame ⟨.command command, current, none, none⟩
  updateLocation
  let entered ← currentContext
  definePrefixes entered command
  pure entered

/-- Leaves a command after its body and tells the context that is current then. -/
def endCommand (command : Command) (ctx : Context I H) : MachineM I H (Context I H) := do
  checkContext ctx .endCommand
  checkCommand command .endCommand
  undefinePrefixes ctx command
  let frame ← popFrame
  if command.isFilter then
    changeMachine fun m => { m with suspendedFrames := frame :: m.suspendedFrames }
    if command.isBoundary then
      let top ← popContext
      changeMachine fun m => { m with suspendedContexts := top :: m.suspendedContexts }
      let entry ← popTrace
      changeMachine fun m => { m with suspendedTrace := entry :: m.suspendedTrace }
    note .debug ("suspended filter '" ++ command.name ++ "'")
  else if command.isBoundary then
    let top ← popContext
    changeWorld (·.endContext top)
    discard popTrace
    note .debug ("left '" ++ command.name ++ "'")
  updateLocation
  currentContext

/-- Moves the frame of a suspended filter back, and what was suspended with it. -/
def resumeStacks (command : Command) (m : Machine I H) : Machine I H :=
  let m := match m.suspendedFrames with
    | top :: rest => { m with frames := top :: m.frames, suspendedFrames := rest }
    | [] => m
  if command.isBoundary then
    let m := match m.suspendedContexts with
      | top :: rest => { m with contexts := top :: m.contexts, suspendedContexts := rest }
      | [] => m
    match m.suspendedTrace with
    | top :: rest => { m with trace := top :: m.trace, suspendedTrace := rest }
    | [] => m
  else m

/-- Resumes the filter that was suspended last, for its post-processing. -/
def startPostProcess (command : Command) (ctx : Context I H) : MachineM I H (Context I H) := do
  checkContext ctx .startPostProcess
  let m ← machine
  match m.suspendedFrames with
  | [] => throw (.emptyStack .suspendedFrames)
  | top :: _ => if !top.isFor command then throw (mismatch .startPostProcess top command)
  if command.isBoundary then
    if m.suspendedContexts.isEmpty then throw (.emptyStack .suspendedContexts)
    if m.suspendedTrace.isEmpty then throw (.emptyStack .suspendedTrace)
  changeMachine (resumeStacks command)
  note .debug ("resumed filter '" ++ command.name ++ "'")
  updateLocation
  let entered ← currentContext
  markEntered entered
  definePrefixes entered command
  pure entered

def endPostProcess (command : Command) (ctx : Context I H) : MachineM I H (Context I H) := do
  checkContext ctx .endPostProcess
  checkCommand command .endPostProcess
  undefinePrefixes ctx command
  discard popFrame
  if command.isBoundary then
    let top ← popContext
    changeWorld (·.endContext top)
    discard popTrace
  note .debug ("finished filter '" ++ command.name ++ "'")
  updateLocation
  currentContext

/-! ### Pointer views -/

/-- Makes a view of the current context over a subject the current one. -/
def startPointer (ctx : Context I H) (subject : Value) : MachineM I H (Context I H) := do
  checkContext ctx .startPointer
  match ← onWorld (·.openView ctx subject) with
  | .error error => throw (.resolve (.selector error))
  | .ok view =>
    pushContext view
    pure view

def stopPointer (ctx : Context I H) : MachineM I H (Context I H) := do
  checkPointer ctx .stopPointer
  let top ← popContext
  changeWorld (·.endContext top)
  currentContext

def suspendPointer (ctx : Context I H) : MachineM I H (Context I H) := do
  checkPointer ctx .suspendPointer
  let top ← popContext
  changeMachine fun m => { m with suspendedContexts := top :: m.suspendedContexts }
  currentContext

/-- Makes the view that was suspended last the current context again. -/
def resumePointer (ctx : Context I H) : MachineM I H (Context I H) := do
  checkContext ctx .resumePointer
  match (← machine).suspendedContexts with
  | [] => throw (.emptyStack .suspendedContexts)
  | top :: rest =>
    if !top.isPointer then throw (.notAPointer .resumePointer)
    changeMachine ({ · with suspendedContexts := rest })
    pushContext top
    pure top

/-! ### Exceptions -/

/-- Records on the frame below that the command on top raised a fault. The same fault travels on as
it was recorded; another one is recorded with the trace as it stands, and with what it interrupts
unless that was handled. -/
def exceptionThrown (command : Command) (fault : Fault) : MachineM I H Unit := do
  checkCommand command .exceptionThrown
  let m ← machine
  match m.frames with
  | top :: parent :: rest =>
    let chain ← match top.exception with
      | some existing =>
        if existing.latest.fault.same fault then pure existing
        else do
          let id ← fresh
          let interrupted := if m.isHandled existing.latest then [] else existing.all
          pure ⟨⟨id, fault, m.executionTrace⟩, interrupted⟩
      | none => do
        let id ← fresh
        pure ⟨⟨id, fault, m.executionTrace⟩, []⟩
    note .debug ("'" ++ command.name ++ "' raised: " ++ fault.text)
    changeMachine ({ · with frames := top :: { parent with exception := some chain } :: rest })
  | _ => throw (.emptyStack .frames)

/-- Marks the exception recorded on the frame below as handled. -/
def exceptionHandled (command : Command) (fault : Fault) : MachineM I H Unit := do
  checkCommand command .exceptionHandled
  match (← machine).frames with
  | _ :: ⟨_, _, _, some chain⟩ :: _ =>
    changeMachine fun m => { m with handled := chain.latest.id :: m.handled }
    note .debug ("'" ++ command.name ++ "' handled: " ++ fault.text)
  | _ => throw (.missingException command.name)

/-- Lets a machine go away. A run that is still in progress is ended first. -/
def abandon (m : Machine I H) (w : World I H) : World I H :=
  if m.isRunning then
    let w := w.note .debug "execution dropped while running; releasing contexts"
    match finish (I := I) (H := H) ⟨m, w⟩ with
    | .ok _ run => run.world
    | .error _ run => run.world
  else w

end CommandChain.Machine
