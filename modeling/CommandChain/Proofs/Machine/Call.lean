import CommandChain.Machine.Operations
import CommandChain.Proofs.Computation

/-!
The calls on a machine as data, and what each of them does to the stacks. `Effect` lists every way a
call can end, with the stacks it leaves; `perform_effect` says that no call ends in another way. A
call that has taken a frame and then finds another stack empty ends torn: it fails and keeps what it
did.
-/
namespace CommandChain

variable {I H : Type}

inductive Call (I H : Type) where
  | start (subject : Value)
  | startWithin (parent : Context I H)
  | finish
  | startCommand (command : Command) (ctx : Context I H)
  | endCommand (command : Command) (ctx : Context I H)
  | startPostProcess (command : Command) (ctx : Context I H)
  | endPostProcess (command : Command) (ctx : Context I H)
  | startPointer (ctx : Context I H) (subject : Value)
  | stopPointer (ctx : Context I H)
  | suspendPointer (ctx : Context I H)
  | resumePointer (ctx : Context I H)
  | exceptionThrown (command : Command) (fault : Fault)
  | exceptionHandled (command : Command) (fault : Fault)

namespace Call

def act : Call I H → MachineM I H (Option (Context I H))
  | .start subject => some <$> Machine.start subject
  | .startWithin parent => some <$> Machine.startWithin parent
  | .finish => (fun _ => none) <$> Machine.finish
  | .startCommand command ctx => some <$> Machine.startCommand command ctx
  | .endCommand command ctx => some <$> Machine.endCommand command ctx
  | .startPostProcess command ctx => some <$> Machine.startPostProcess command ctx
  | .endPostProcess command ctx => some <$> Machine.endPostProcess command ctx
  | .startPointer ctx subject => some <$> Machine.startPointer ctx subject
  | .stopPointer ctx => some <$> Machine.stopPointer ctx
  | .suspendPointer ctx => some <$> Machine.suspendPointer ctx
  | .resumePointer ctx => some <$> Machine.resumePointer ctx
  | .exceptionThrown command fault => (fun _ => none) <$> Machine.exceptionThrown command fault
  | .exceptionHandled command fault => (fun _ => none) <$> Machine.exceptionHandled command fault

def perform (call : Call I H) (run : Run I H) :
    Except ExecutionError (Option (Context I H)) × Run I H :=
  outcomeOf (call.act run)

/-- The context that a call begins a run with, and the world with that context opened. -/
def opening (run : Run I H) : Call I H → Option (Context I H × World I H)
  | .start subject =>
    some (run.world.openContext .execution run.machine.registry subject none)
  | .startWithin parent => some (run.world.openChild parent parent.subject)
  | _ => none

/-- What a call takes off the stacks of frames: the command and the context it names, and whether
the frame is kept for a post-processing. -/
def departure : Call I H → Option (Command × Context I H × Bool)
  | .endCommand command ctx => some (command, ctx, command.isFilter)
  | .endPostProcess command ctx => some (command, ctx, false)
  | _ => none

/-- The view that a call takes off the stack of contexts, and whether it is kept. -/
def unviewing : Call I H → Option (Context I H × Bool)
  | .stopPointer ctx => some (ctx, false)
  | .suspendPointer ctx => some (ctx, true)
  | _ => none

variable {call : Call I H} {command : Command} {ctx : Context I H} {keeps : Bool}

theorem of_opening {run : Run I H} {global : Context I H} {world : World I H}
    (opens : call.opening run = some (global, world)) :
    (∃ subject, call = .start subject) ∨ ∃ parent, call = .startWithin parent := by
  cases call with
  | start subject => exact .inl ⟨subject, rfl⟩
  | startWithin parent => exact .inr ⟨parent, rfl⟩
  | _ => cases opens

theorem of_departure (departure : call.departure = some (command, ctx, keeps)) :
    call = .endCommand command ctx ∧ keeps = command.isFilter ∨
      call = .endPostProcess command ctx ∧ keeps = false := by
  cases call with
  | endCommand =>
    cases departure
    exact .inl ⟨rfl, rfl⟩
  | endPostProcess =>
    cases departure
    exact .inr ⟨rfl, rfl⟩
  | _ => cases departure

theorem of_unviewing (unviews : call.unviewing = some (ctx, keeps)) :
    call = .stopPointer ctx ∧ keeps = false ∨ call = .suspendPointer ctx ∧ keeps = true := by
  cases call with
  | stopPointer =>
    cases unviews
    exact .inl ⟨rfl, rfl⟩
  | suspendPointer =>
    cases unviews
    exact .inr ⟨rfl, rfl⟩
  | _ => cases unviews

end Call

/-! ### The stacks that calls leave -/

@[simp] def World.logged (w : World I H) (log : List LogEntry) : World I H := { w with log }

namespace Machine

def located (m : Machine I H) : Machine I H :=
  match m.trace, m.frames.head?.bind Frame.command? with
  | entry :: rest, some command =>
    { m with trace := { entry with locator := some (m.locatorOf command) } :: rest }
  | _, _ => m

section

variable (m : Machine I H)

@[simp] theorem located_global : m.located.global = m.global := by
  unfold located
  split <;> rfl

@[simp] theorem located_frames : m.located.frames = m.frames := by
  unfold located
  split <;> rfl

@[simp] theorem located_suspendedFrames : m.located.suspendedFrames = m.suspendedFrames := by
  unfold located
  split <;> rfl

@[simp] theorem located_suspendedTrace : m.located.suspendedTrace = m.suspendedTrace := by
  unfold located
  split <;> rfl

@[simp] theorem located_contexts : m.located.contexts = m.contexts := by
  unfold located
  split <;> rfl

@[simp] theorem located_suspendedContexts : m.located.suspendedContexts = m.suspendedContexts := by
  unfold located
  split <;> rfl

@[simp] theorem located_prefixes : m.located.prefixes = m.prefixes := by
  unfold located
  split <;> rfl

@[simp] theorem located_handled : m.located.handled = m.handled := by
  unfold located
  split <;> rfl

@[simp] theorem located_next : m.located.next = m.next := by
  unfold located
  split <;> rfl

@[simp] theorem located_settings : m.located.settings = m.settings := by
  unfold located
  split <;> rfl

@[simp] theorem located_trace_ids : m.located.trace.map (·.id) = m.trace.map (·.id) := by
  unfold located
  split
  · rename_i trace _
    simp only [trace, List.map_cons]
  · rfl

end

theorem located_current (m : Machine I H) : m.located.current = m.current := by
  unfold located
  split <;> rfl

theorem current_of_top {m : Machine I H} {top : Context I H} {outer : List (Context I H)}
    (contexts : m.contexts = top :: outer) : m.current = .ok top := by
  simp only [current, contexts]

@[simp] def begun (m : Machine I H) (global : Context I H) : Machine I H :=
  { m with frames := ⟨.global, global, none, none⟩ :: m.frames, global := some global }

@[simp] def pushed (m : Machine I H) (command : Command) (current : Context I H) : Machine I H :=
  { m with frames := ⟨.command command, current, none, none⟩ :: m.frames }

@[simp] def pushedUnit (m : Machine I H) (command : Command) (registration : Registration)
    (opened : Context I H) : Machine I H :=
  { m with
    frames := ⟨.command command, opened, some opened, none⟩ :: m.frames
    contexts := opened :: m.contexts
    trace := .ofRegistration m.next registration :: m.trace
    next := m.next + 1 }

@[simp] def droppedFrame (m : Machine I H) (keeps : Bool) (frame : Frame I H)
    (rest : List (Frame I H)) : Machine I H :=
  { m with
    frames := rest
    suspendedFrames := if keeps then frame :: m.suspendedFrames else m.suspendedFrames }

@[simp] def droppedContext (m : Machine I H) (keeps : Bool) (top : Context I H)
    (rest : List (Context I H)) : Machine I H :=
  { m with
    contexts := rest
    suspendedContexts := if keeps then top :: m.suspendedContexts else m.suspendedContexts }

@[simp] def droppedTrace (m : Machine I H) (keeps : Bool) (entry : TraceEntry)
    (rest : List TraceEntry) : Machine I H :=
  { m with
    trace := rest
    suspendedTrace := if keeps then entry :: m.suspendedTrace else m.suspendedTrace }

@[simp] def resumedFrame (m : Machine I H) (frame : Frame I H) (rest : List (Frame I H)) :
    Machine I H :=
  { m with frames := frame :: m.frames, suspendedFrames := rest }

@[simp] def resumedContext (m : Machine I H) (top : Context I H) (rest : List (Context I H)) :
    Machine I H :=
  { m with contexts := top :: m.contexts, suspendedContexts := rest }

@[simp] def resumedTrace (m : Machine I H) (entry : TraceEntry) (rest : List TraceEntry) :
    Machine I H :=
  { m with trace := entry :: m.trace, suspendedTrace := rest }

def marked (m : Machine I H) (ctx : Context I H) : Machine I H :=
  match m.frames with
  | top :: rest => { m with frames := { top with context := ctx } :: rest }
  | [] => m

section

variable (m : Machine I H) (ctx : Context I H)

@[simp] theorem marked_global : (m.marked ctx).global = m.global := by
  unfold marked
  split <;> rfl

@[simp] theorem marked_length : (m.marked ctx).frames.length = m.frames.length := by
  unfold marked
  split
  · rename_i frames
    rw [frames]
    rfl
  · rfl

@[simp] theorem marked_suspendedFrames : (m.marked ctx).suspendedFrames = m.suspendedFrames := by
  unfold marked
  split <;> rfl

@[simp] theorem marked_trace : (m.marked ctx).trace = m.trace := by
  unfold marked
  split <;> rfl

@[simp] theorem marked_suspendedTrace : (m.marked ctx).suspendedTrace = m.suspendedTrace := by
  unfold marked
  split <;> rfl

@[simp] theorem marked_contexts : (m.marked ctx).contexts = m.contexts := by
  unfold marked
  split <;> rfl

@[simp] theorem marked_suspendedContexts :
    (m.marked ctx).suspendedContexts = m.suspendedContexts := by
  unfold marked
  split <;> rfl

@[simp] theorem marked_prefixes : (m.marked ctx).prefixes = m.prefixes := by
  unfold marked
  split <;> rfl

@[simp] theorem marked_handled : (m.marked ctx).handled = m.handled := by
  unfold marked
  split <;> rfl

@[simp] theorem marked_next : (m.marked ctx).next = m.next := by
  unfold marked
  split <;> rfl

@[simp] theorem marked_settings : (m.marked ctx).settings = m.settings := by
  unfold marked
  split <;> rfl

end

/-- Whether a frame carries the very fault that its command raises. -/
def passesOn (top : Frame I H) (fault : Fault) : Bool :=
  top.exception.any fun existing => existing.latest.fault.same fault

/-- The exception that is recorded when the command of a frame raises a fault: the one that the
frame carries for that fault, or else a new one. -/
def recording (m : Machine I H) (top : Frame I H) (fault : Fault) : RaisedChain :=
  match top.exception with
  | some existing =>
    if existing.latest.fault.same fault then existing
    else ⟨⟨m.next, fault, m.executionTrace⟩,
      if m.isHandled existing.latest then [] else existing.all⟩
  | none => ⟨⟨m.next, fault, m.executionTrace⟩, []⟩

def thrown (m : Machine I H) (fault : Fault) (top parent : Frame I H) (rest : List (Frame I H)) :
    Machine I H :=
  { m with
    frames := top :: { parent with exception := some (m.recording top fault) } :: rest
    next := if passesOn top fault then m.next else m.next + 1 }

@[simp] def handling (m : Machine I H) (chain : RaisedChain) : Machine I H :=
  { m with handled := chain.latest.id :: m.handled }

def verdict (m : Machine I H) : Except ExecutionError (Option (Context I H)) :=
  match m.failure? with
  | some failure => .error (.failed failure)
  | none => .ok none

end Machine

namespace Run

def bound (run : Run I H) (ctx : Context I H) (command : Command) : Run I H :=
  match command.mappings with
  | none => run
  | some mappings =>
    let (prefixes, world) := run.machine.prefixes.define ctx command mappings run.world
    ⟨{ run.machine with prefixes }, world⟩

section

variable (run : Run I H) (ctx : Context I H) (command : Command)

@[simp] theorem bound_global : (run.bound ctx command).machine.global = run.machine.global := by
  unfold bound
  split <;> rfl

@[simp] theorem bound_frames : (run.bound ctx command).machine.frames = run.machine.frames := by
  unfold bound
  split <;> rfl

@[simp] theorem bound_suspendedFrames :
    (run.bound ctx command).machine.suspendedFrames = run.machine.suspendedFrames := by
  unfold bound
  split <;> rfl

@[simp] theorem bound_trace : (run.bound ctx command).machine.trace = run.machine.trace := by
  unfold bound
  split <;> rfl

@[simp] theorem bound_suspendedTrace :
    (run.bound ctx command).machine.suspendedTrace = run.machine.suspendedTrace := by
  unfold bound
  split <;> rfl

@[simp] theorem bound_contexts :
    (run.bound ctx command).machine.contexts = run.machine.contexts := by
  unfold bound
  split <;> rfl

@[simp] theorem bound_suspendedContexts :
    (run.bound ctx command).machine.suspendedContexts = run.machine.suspendedContexts := by
  unfold bound
  split <;> rfl

@[simp] theorem bound_handled : (run.bound ctx command).machine.handled = run.machine.handled := by
  unfold bound
  split <;> rfl

@[simp] theorem bound_next : (run.bound ctx command).machine.next = run.machine.next := by
  unfold bound
  split <;> rfl

@[simp] theorem bound_settings :
    (run.bound ctx command).machine.settings = run.machine.settings := by
  unfold bound
  split <;> rfl

end

def unbound (run : Run I H) (ctx : Context I H) (command : Command) :
    Except ExecutionError (Run I H) :=
  match command.mappings with
  | none => .ok run
  | some _ =>
    match run.machine.prefixes.undefine ctx command run.world with
    | .ok (prefixes, world) => .ok ⟨{ run.machine with prefixes }, world⟩
    | .error error => .error error

theorem bound_cases (run : Run I H) (ctx : Context I H) (command : Command) :
    (command.mappings = none ∧ run.bound ctx command = run) ∨
    ∃ mappings, command.mappings = some mappings ∧
      ((∃ top rest, run.machine.prefixes = top :: rest ∧ top.isFor ctx command = true ∧
        run.bound ctx command = ⟨{ run.machine with
          prefixes := { top with reentries := top.reentries + 1 } :: rest }, run.world⟩) ∨
      ∃ text, run.bound ctx command =
        ⟨{ run.machine with
          prefixes := ⟨ctx, command, (run.world.overrideBindings ctx mappings).1, 0⟩ ::
            run.machine.prefixes },
          (run.world.overrideBindings ctx mappings).2.note .debug text⟩) := by
  unfold bound
  cases mappings : command.mappings with
  | none => exact .inl ⟨rfl, rfl⟩
  | some bindings =>
    refine .inr ⟨bindings, rfl, ?_⟩
    unfold PrefixStack.define
    cases stack : run.machine.prefixes with
    | nil => exact .inr ⟨_, rfl⟩
    | cons top rest =>
      dsimp only
      split
      · rename_i again
        exact .inl ⟨top, rest, rfl, again, rfl⟩
      · exact .inr ⟨_, rfl⟩

theorem unbound_cases {run undone : Run I H} {ctx : Context I H} {command : Command}
    (undoes : run.unbound ctx command = .ok undone) :
    (command.mappings = none ∧ undone = run) ∨
    ∃ mappings top rest, command.mappings = some mappings ∧ run.machine.prefixes = top :: rest ∧
      ((∃ again, top.reentries = again + 1 ∧ undone = ⟨{ run.machine with
          prefixes := { top with reentries := again } :: rest }, run.world⟩) ∨
      top.reentries = 0 ∧ undone = ⟨{ run.machine with prefixes := rest },
        run.world.restoreBindings top.context top.replaced⟩) := by
  unfold unbound at undoes
  cases mappings : command.mappings with
  | none =>
    rw [mappings] at undoes
    cases undoes
    exact .inl ⟨rfl, rfl⟩
  | some bindings =>
    rw [mappings] at undoes
    unfold PrefixStack.undefine at undoes
    cases stack : run.machine.prefixes with
    | nil =>
      rw [stack] at undoes
      cases undoes
    | cons top rest =>
      simp only [stack] at undoes
      refine .inr ⟨bindings, top, rest, rfl, rfl, ?_⟩
      by_cases own : top.isFor ctx command = true
      · rw [if_pos own] at undoes
        cases entered : top.reentries with
        | succ again =>
          rw [entered] at undoes
          cases undoes
          exact .inl ⟨again, rfl, rfl⟩
        | zero =>
          rw [entered] at undoes
          cases undoes
          exact .inr ⟨rfl, rfl⟩
      · rw [if_neg own] at undoes
        cases undoes

theorem unbound_machine {run undone : Run I H} {ctx : Context I H} {command : Command}
    (undoes : run.unbound ctx command = .ok undone) :
    ∃ prefixes, undone.machine = { run.machine with prefixes } := by
  rcases unbound_cases undoes with
    ⟨-, rfl⟩ | ⟨_, _, _, -, -, ⟨_, -, rfl⟩ | ⟨-, rfl⟩⟩ <;> exact ⟨_, rfl⟩

def At (run : Run I H) (ctx : Context I H) : Prop :=
  ∃ current, run.machine.current = .ok current ∧ current.same ctx = true

def On (run : Run I H) (command : Command) : Prop :=
  ∃ top rest, run.machine.frames = top :: rest ∧ top.isFor command = true

/-- What a call must find to be admitted. One that is not admitted changes nothing, apart from the
start of a run, which has opened a context by then. -/
def Admits (run : Run I H) : Call I H → Prop
  | .start _ | .startWithin _ => run.machine.isRunning = false
  | .finish => run.machine.isRunning = true
  | .startCommand command ctx =>
    run.machine.frames.length < run.machine.settings.maxDepth ∧
      ∃ current, run.machine.current = .ok current ∧
        (command.isBoundary = true ∨ ctx.same current = true)
  | .endCommand command ctx | .endPostProcess command ctx =>
    run.At ctx ∧ run.On command ∧ ∃ undone, run.unbound ctx command = .ok undone
  | .startPostProcess command ctx =>
    run.At ctx ∧ (∃ top rest, run.machine.suspendedFrames = top :: rest ∧
      top.isFor command = true) ∧ (command.isBoundary = true →
        run.machine.suspendedContexts ≠ [] ∧ run.machine.suspendedTrace ≠ [])
  | .startPointer ctx subject => run.At ctx ∧ subject.isNull = false
  | .stopPointer ctx | .suspendPointer ctx =>
    run.At ctx ∧ ctx.isPointer = true ∧ run.machine.contexts ≠ []
  | .resumePointer ctx =>
    run.At ctx ∧ ∃ top rest, run.machine.suspendedContexts = top :: rest ∧ top.isPointer = true
  | .exceptionThrown command _ => run.On command ∧ 2 ≤ run.machine.frames.length
  | .exceptionHandled command _ =>
    run.On command ∧ ∃ top parent rest chain, run.machine.frames = top :: parent :: rest ∧
      parent.exception = some chain

theorem admits_departure {run : Run I H} {call : Call I H} {command : Command} {ctx : Context I H}
    {keeps : Bool} (departure : call.departure = some (command, ctx, keeps)) :
    run.Admits call ↔
      run.At ctx ∧ run.On command ∧ ∃ undone, run.unbound ctx command = .ok undone := by
  rcases Call.of_departure departure with ⟨rfl, -⟩ | ⟨rfl, -⟩ <;> rfl

theorem admits_unviewing {run : Run I H} {call : Call I H} {ctx : Context I H} {keeps : Bool}
    (unviews : call.unviewing = some (ctx, keeps)) :
    run.Admits call ↔ run.At ctx ∧ ctx.isPointer = true ∧ run.machine.contexts ≠ [] := by
  rcases Call.of_unviewing unviews with ⟨rfl, -⟩ | ⟨rfl, -⟩ <;> rfl

end Run
end CommandChain
