import CommandChain.Proofs.Machine.Effect

/-!
No call ends in another way than `Effect` lists. Checks and stack operations come first, one
equation each, and then the operations, each run through from its first check to its end.
-/
namespace CommandChain

variable {I H : Type}

namespace Machine

open MachineM

theorem machine_apply (run : Run I H) : machine run = .ok run.machine run := rfl

theorem changeMachine_apply (change : Machine I H → Machine I H) (run : Run I H) :
    changeMachine change run = .ok () ⟨change run.machine, run.world⟩ := rfl

theorem changeWorld_apply (change : World I H → World I H) (run : Run I H) :
    changeWorld change run = .ok () ⟨run.machine, change run.world⟩ := rfl

theorem onWorld_apply {α : Type} (change : World I H → α × World I H) (run : Run I H) :
    onWorld change run = .ok (change run.world).1 ⟨run.machine, (change run.world).2⟩ := rfl

theorem note_apply (level : LogLevel) (text : String) (run : Run I H) :
    note level text run = .ok () ⟨run.machine, run.world.note level text⟩ := rfl

theorem fresh_apply (run : Run I H) :
    fresh run = .ok run.machine.next
      ⟨{ run.machine with next := run.machine.next + 1 }, run.world⟩ := rfl

theorem currentContext_apply (run : Run I H) :
    currentContext run = match run.machine.current with
      | .ok current => .ok current run
      | .error error => .error error run := by
  simp only [currentContext, bind_apply, machine_apply]
  cases run.machine.current <;> rfl

theorem currentContext_ok {run : Run I H} {current : Context I H}
    (now : run.machine.current = .ok current) : currentContext run = .ok current run := by
  rw [currentContext_apply, now]

theorem checkContext_cases (run : Run I H) (ctx : Context I H) (operation : Operation) :
    (run.At ctx ∧ checkContext ctx operation run = .ok () run) ∨
      ¬ run.At ctx ∧ ∃ error, checkContext ctx operation run = .error error run := by
  simp only [checkContext, bind_apply, currentContext_apply, Run.At]
  cases now : run.machine.current with
  | error error => exact .inr ⟨by simp, error, rfl⟩
  | ok current =>
    cases same : current.same ctx with
    | true => exact .inl ⟨⟨current, rfl, same⟩, by simp [same]; rfl⟩
    | false => exact .inr ⟨by simp [same], _, by simp [same]; rfl⟩

theorem checkPointer_cases (run : Run I H) (ctx : Context I H) (operation : Operation) :
    ((run.At ctx ∧ ctx.isPointer = true) ∧ checkPointer ctx operation run = .ok () run) ∨
      ¬ (run.At ctx ∧ ctx.isPointer = true) ∧
        ∃ error, checkPointer ctx operation run = .error error run := by
  simp only [checkPointer, bind_apply]
  rcases checkContext_cases run ctx operation with ⟨here, checked⟩ | ⟨away, error, checked⟩
  · rw [checked]
    cases pointer : ctx.isPointer with
    | true => exact .inl ⟨⟨here, rfl⟩, by simp; rfl⟩
    | false => exact .inr ⟨by simp, _, by simp; rfl⟩
  · exact .inr ⟨fun both => away both.1, error, by rw [checked]⟩

theorem checkCommand_cases (run : Run I H) (command : Command) (operation : Operation) :
    (run.On command ∧ checkCommand command operation run = .ok () run) ∨
      ¬ run.On command ∧ ∃ error, checkCommand command operation run = .error error run := by
  simp only [checkCommand, bind_apply, machine_apply, Run.On]
  cases frames : run.machine.frames with
  | nil => exact .inr ⟨by simp, _, rfl⟩
  | cons top rest =>
    cases own : top.isFor command with
    | true => exact .inl ⟨⟨top, rest, rfl, own⟩, by simp [own]; rfl⟩
    | false => exact .inr ⟨by simp [own], _, by simp [own]; rfl⟩

theorem popFrame_cons {run : Run I H} {top : Frame I H} {rest : List (Frame I H)}
    (frames : run.machine.frames = top :: rest) :
    popFrame run = .ok top ⟨{ run.machine with frames := rest }, run.world⟩ := by
  simp only [popFrame, bind_apply, machine_apply, frames]
  rfl

theorem popContext_nil {run : Run I H} (contexts : run.machine.contexts = []) :
    popContext run = .error (.emptyStack .contexts) run := by
  simp only [popContext, bind_apply, machine_apply, contexts]
  rfl

theorem popContext_cons {run : Run I H} {top : Context I H} {rest : List (Context I H)}
    (contexts : run.machine.contexts = top :: rest) :
    popContext run = .ok top ⟨{ run.machine with contexts := rest }, run.world⟩ := by
  simp only [popContext, bind_apply, machine_apply, contexts]
  rfl

theorem popTrace_nil {run : Run I H} (trace : run.machine.trace = []) :
    popTrace run = .error (.emptyStack .trace) run := by
  simp only [popTrace, bind_apply, machine_apply, trace]
  rfl

theorem popTrace_cons {run : Run I H} {top : TraceEntry} {rest : List TraceEntry}
    (trace : run.machine.trace = top :: rest) :
    popTrace run = .ok top ⟨{ run.machine with trace := rest }, run.world⟩ := by
  simp only [popTrace, bind_apply, machine_apply, trace]
  rfl

theorem discard_apply {α : Type} (x : MachineM I H α) (run : Run I H) :
    (discard x) run = match x run with
      | .ok _ run => .ok () run
      | .error error run => .error error run := by
  change (x >>= fun _ => pure ()) run = _
  rw [bind_apply]
  cases x run <;> rfl

/-- What is told by the time the trace shows the command on top. -/
def locatedLog (run : Run I H) : List LogEntry := (outcomeOf (updateLocation run)).2.world.log

theorem updateLocation_apply (run : Run I H) :
    updateLocation run = .ok () ⟨run.machine.located, run.world.logged (locatedLog run)⟩ := by
  simp only [locatedLog, updateLocation, bind_apply, machine_apply, located]
  cases run.machine.trace with
  | nil => rfl
  | cons entry rest =>
    cases run.machine.frames.head?.bind Frame.command? <;> rfl

theorem definePrefixes_apply (run : Run I H) (ctx : Context I H) (command : Command) :
    definePrefixes ctx command run = .ok () (run.bound ctx command) := by
  unfold definePrefixes Run.bound
  cases command.mappings <;> rfl

theorem undefinePrefixes_apply (run : Run I H) (ctx : Context I H) (command : Command) :
    undefinePrefixes ctx command run = match run.unbound ctx command with
      | .ok undone => .ok () undone
      | .error error => .error error run := by
  unfold undefinePrefixes Run.unbound
  cases command.mappings with
  | none => rfl
  | some mappings =>
    simp only [bind_apply, get_apply]
    cases run.machine.prefixes.undefine ctx command run.world <;> rfl

theorem markEntered_apply (run : Run I H) (ctx : Context I H) :
    markEntered ctx run = .ok () ⟨run.machine.marked ctx, run.world⟩ := rfl

/-! ### The operations -/

/-- As `Effect`, of the result of an operation that tells a context. -/
def Ends (run : Run I H) (call : Call I H)
    (result : EStateM.Result ExecutionError (Run I H) (Context I H)) : Prop :=
  Effect run call ((outcomeOf result).1.map some) (outcomeOf result).2

theorem ends_rejected {run : Run I H} {call : Call I H} (refused : ¬ run.Admits call)
    (opens : call.opening run = none) (error : ExecutionError) :
    Ends run call (.error error run) :=
  .rejected refused opens

theorem ends_current {run run' : Run I H} {call : Call I H}
    (effect : Effect run call (run'.machine.current.map some) run') :
    Ends run call (currentContext run') := by
  rw [currentContext_apply]
  cases now : run'.machine.current <;> simpa only [Ends, outcomeOf, now] using effect

section

variable {run undone : Run I H} {call : Call I H} {command : Command} {ctx : Context I H}
  {keeps : Bool} {frame : Frame I H} {rest : List (Frame I H)}

theorem departing (run : Run I H) (departure : call.departure = some (command, ctx, keeps))
    (operation : Operation) (next : MachineM I H (Context I H)) :
    (¬ run.Admits call ∧ ∃ error, (do
      checkContext ctx operation
      checkCommand command operation
      undefinePrefixes ctx command
      next) run = .error error run) ∨
    ∃ undone frame rest, Departs run call command ctx keeps undone frame rest ∧ (do
      checkContext ctx operation
      checkCommand command operation
      undefinePrefixes ctx command
      next) run = next undone := by
  have admits : run.Admits call →
      run.At ctx ∧ run.On command ∧ ∃ undone, run.unbound ctx command = .ok undone :=
    (Run.admits_departure departure).mp
  simp only [bind_apply, undefinePrefixes_apply]
  rcases checkContext_cases run ctx operation with ⟨here, checked⟩ | ⟨away, error, checked⟩
  case inr =>
    rw [checked]
    exact .inl ⟨fun admitted => away (admits admitted).1, error, rfl⟩
  rw [checked]
  dsimp only
  rcases checkCommand_cases run command operation with ⟨on, checked⟩ | ⟨off, error, checked⟩
  case inr =>
    rw [checked]
    exact .inl ⟨fun admitted => off (admits admitted).2.1, error, rfl⟩
  rw [checked]
  dsimp only
  cases undoes : run.unbound ctx command with
  | error error =>
    refine .inl ⟨fun admitted => ?_, error, rfl⟩
    obtain ⟨undone, undoes'⟩ := (admits admitted).2.2
    rw [undoes] at undoes'
    cases undoes'
  | ok undone =>
    obtain ⟨frame, rest, frames, own⟩ := on
    exact .inr ⟨undone, frame, rest, ⟨departure, here, frames, own, undoes⟩, rfl⟩

theorem leaveUnit_ends (departs : Departs run call command ctx false undone frame rest)
    (unit : command.isBoundary = true) (text : String) :
    Ends run call ((do
      let top ← popContext
      changeWorld (·.endContext top)
      discard popTrace
      note .debug text
      updateLocation
      currentContext) ⟨{ undone.machine with frames := rest }, undone.world⟩) := by
  obtain ⟨prefixes, same⟩ := departs.machine
  simp only [bind_apply]
  cases contexts : run.machine.contexts with
  | nil =>
    rw [popContext_nil (by rw [same]; exact contexts)]
    exact Effect.tornContext departs unit contexts
  | cons top outer =>
    rw [popContext_cons (by rw [same]; exact contexts)]
    simp only [changeWorld_apply, discard_apply]
    cases trace : run.machine.trace with
    | nil =>
      rw [popTrace_nil (by rw [same]; exact trace)]
      exact Effect.tornTrace departs unit contexts trace
    | cons entry entries =>
      rw [popTrace_cons (by rw [same]; exact trace)]
      simp only [note_apply, updateLocation_apply]
      refine ends_current ?_
      exact Effect.leftUnit departs unit contexts trace

theorem suspendUnit_ends (departs : Departs run call command ctx true undone frame rest)
    (unit : command.isBoundary = true) (text : String) :
    Ends run call ((do
      let top ← popContext
      changeMachine fun m => { m with suspendedContexts := top :: m.suspendedContexts }
      let entry ← popTrace
      changeMachine fun m => { m with suspendedTrace := entry :: m.suspendedTrace }
      note .debug text
      updateLocation
      currentContext) ⟨undone.machine.droppedFrame true frame rest, undone.world⟩) := by
  obtain ⟨prefixes, same⟩ := departs.machine
  simp only [bind_apply, changeMachine_apply]
  cases contexts : run.machine.contexts with
  | nil =>
    rw [popContext_nil (by simp only [droppedFrame]; rw [same]; exact contexts)]
    exact Effect.tornContext departs unit contexts
  | cons top outer =>
    rw [popContext_cons (by simp only [droppedFrame]; rw [same]; exact contexts)]
    dsimp only
    cases trace : run.machine.trace with
    | nil =>
      rw [popTrace_nil (by simp only [droppedFrame]; rw [same]; exact trace)]
      exact Effect.tornTrace departs unit contexts trace
    | cons entry entries =>
      rw [popTrace_cons (by simp only [droppedFrame]; rw [same]; exact trace)]
      simp only [note_apply, updateLocation_apply]
      refine ends_current ?_
      exact Effect.leftUnit departs unit contexts trace

end

theorem endCommand_ends (run : Run I H) (command : Command) (ctx : Context I H) :
    Ends run (.endCommand command ctx) (Machine.endCommand command ctx run) := by
  unfold endCommand
  have departure :
      (Call.endCommand command ctx).departure = some (command, ctx, command.isFilter) := rfl
  rcases departing run departure .endCommand _ with
    ⟨refused, error, stopped⟩ | ⟨undone, frame, rest, departs, goes⟩
  · rw [stopped]
    exact ends_rejected refused rfl error
  obtain ⟨prefixes, same⟩ := departs.machine
  rw [goes, bind_apply, popFrame_cons (by rw [same]; exact departs.frames)]
  dsimp only
  cases keeps : command.isFilter <;> rw [keeps] at departs <;>
    cases unit : command.isBoundary
  case false.false =>
    simp only [Bool.false_eq_true, if_false, bind_apply, updateLocation_apply]
    refine ends_current ?_
    exact Effect.left departs unit
  case false.true => exact leaveUnit_ends departs unit _
  case true.false =>
    simp only [if_true, Bool.false_eq_true, if_false, bind_apply, changeMachine_apply, note_apply,
      updateLocation_apply]
    refine ends_current ?_
    exact Effect.left departs unit
  case true.true => exact suspendUnit_ends departs unit _

theorem endPostProcess_ends (run : Run I H) (command : Command) (ctx : Context I H) :
    Ends run (.endPostProcess command ctx) (Machine.endPostProcess command ctx run) := by
  unfold endPostProcess
  have departure : (Call.endPostProcess command ctx).departure = some (command, ctx, false) := rfl
  rcases departing run departure .endPostProcess _ with
    ⟨refused, error, stopped⟩ | ⟨undone, frame, rest, departs, goes⟩
  · rw [stopped]
    exact ends_rejected refused rfl error
  obtain ⟨prefixes, same⟩ := departs.machine
  rw [goes, bind_apply, discard_apply,
    popFrame_cons (by rw [same]; exact departs.frames)]
  dsimp only
  cases unit : command.isBoundary with
  | false =>
    simp only [Bool.false_eq_true, if_false, bind_apply, note_apply, updateLocation_apply]
    refine ends_current ?_
    exact Effect.left departs unit
  | true => exact leaveUnit_ends departs unit _

theorem beginRun_ends {run : Run I H} {call : Call I H} {global : Context I H} {world : World I H}
    (opens : call.opening run = some (global, world)) :
    Ends run call (beginRun global ⟨run.machine, world⟩) := by
  simp only [beginRun, bind_apply, machine_apply]
  cases running : run.machine.isRunning with
  | true => exact Effect.unused opens running
  | false => exact Effect.begun opens running

theorem startCommand_ends (run : Run I H) (command : Command) (ctx : Context I H) :
    Ends run (.startCommand command ctx) (Machine.startCommand command ctx run) := by
  unfold startCommand
  rw [bind_apply, currentContext_apply]
  cases now : run.machine.current with
  | error error => exact ends_rejected (by simp [Run.Admits, now]) rfl error
  | ok current =>
    simp only [bind_apply, machine_apply]
    by_cases deep : run.machine.settings.maxDepth ≤ run.machine.frames.length
    case pos =>
      simp only [if_pos deep]
      exact ends_rejected (by simp [Run.Admits, Nat.not_lt.mpr deep]) rfl _
    have shallow := Nat.lt_of_not_le deep
    simp only [if_neg deep]
    cases unit : command.registration with
    | some registration =>
      cases opens : run.world.openChild current ctx.subject with
      | mk opened world =>
        simp only [bind_apply, onWorld_apply, opens, fresh_apply, pushFrame, pushContext,
          pushTrace, changeMachine_apply, note_apply, updateLocation_apply]
        rw [currentContext_ok (by rw [located_current]; exact current_of_top rfl)]
        simp only [definePrefixes_apply]
        exact (Effect.enteredUnit unit now shallow opens :)
    | none =>
      cases same : ctx.same current with
      | false =>
        have closed : command.isBoundary = false := by simp [Command.isBoundary, unit]
        exact ends_rejected (by simp [Run.Admits, now, same, closed]) rfl _
      | true =>
        simp only [Bool.not_true, Bool.false_eq_true, if_false, bind_apply, pushFrame,
          changeMachine_apply, updateLocation_apply]
        rw [currentContext_ok (by rw [located_current]; exact now)]
        simp only [definePrefixes_apply]
        exact Effect.entered unit now shallow same

theorem startPostProcess_ends (run : Run I H) (command : Command) (ctx : Context I H) :
    Ends run (.startPostProcess command ctx) (Machine.startPostProcess command ctx run) := by
  unfold startPostProcess
  rw [bind_apply]
  rcases checkContext_cases run ctx .startPostProcess with ⟨here, checked⟩ | ⟨away, error, checked⟩
  case inr =>
    rw [checked]
    exact ends_rejected (by simp [Run.Admits, away]) rfl _
  rw [checked]
  simp only [bind_apply, machine_apply]
  cases frames : run.machine.suspendedFrames with
  | nil => exact ends_rejected (by simp [Run.Admits, frames]) rfl _
  | cons frame rest =>
    by_cases own : frame.isFor command = true
    case neg =>
      simp only [own, Bool.not_false, if_true, bind_apply]
      exact ends_rejected (by simp [Run.Admits, frames, own]) rfl _
    have resumes : Resumes run command ctx frame rest := ⟨here, frames, own⟩
    simp only [own, Bool.not_true, Bool.false_eq_true, if_false]
    cases unit : command.isBoundary with
    | false =>
      obtain ⟨current, now, -⟩ := here
      have moved : resumeStacks command run.machine = run.machine.resumedFrame frame rest := by
        simp only [resumeStacks, frames, unit, Bool.false_eq_true, if_false, resumedFrame]
      simp only [Bool.false_eq_true, if_false, bind_apply, changeMachine_apply, moved, note_apply,
        updateLocation_apply]
      rw [currentContext_ok (by rw [located_current]; exact now)]
      simp only [markEntered_apply, definePrefixes_apply]
      exact Effect.resumed resumes unit now
    | true =>
      cases contexts : run.machine.suspendedContexts with
      | nil =>
        exact ends_rejected (by simp [Run.Admits, contexts, unit]) rfl _
      | cons top outer =>
        cases trace : run.machine.suspendedTrace with
        | nil => exact ends_rejected (by simp [Run.Admits, trace, unit]) rfl _
        | cons entry entries =>
          have moved : resumeStacks command run.machine = ((run.machine.resumedFrame frame
              rest).resumedContext top outer).resumedTrace entry entries := by
            simp only [resumeStacks, frames, unit, contexts, trace, if_true, resumedFrame,
              resumedContext, resumedTrace]
          simp only [if_true, List.isEmpty_cons, Bool.false_eq_true, if_false, bind_apply,
            changeMachine_apply, moved, note_apply, updateLocation_apply]
          rw [currentContext_ok (by rw [located_current]; exact current_of_top rfl)]
          simp only [markEntered_apply, definePrefixes_apply]
          exact Effect.resumedUnit resumes unit contexts trace

theorem startPointer_ends (run : Run I H) (ctx : Context I H) (subject : Value) :
    Ends run (.startPointer ctx subject) (Machine.startPointer ctx subject run) := by
  unfold startPointer
  rw [bind_apply]
  rcases checkContext_cases run ctx .startPointer with ⟨here, checked⟩ | ⟨away, error, checked⟩
  case inr =>
    rw [checked]
    exact ends_rejected (by simp [Run.Admits, away]) rfl _
  rw [checked]
  simp only [bind_apply, onWorld_apply]
  cases null : subject.isNull with
  | true =>
    simp only [World.openView, null, if_true]
    exact ends_rejected (by simp [Run.Admits, null]) rfl _
  | false =>
    simp only [World.openView, null, Bool.false_eq_true, if_false, bind_apply, pushContext,
      changeMachine_apply]
    exact Effect.viewed here (by simp [World.openView, null])
theorem unviewing_ends {run : Run I H} {call : Call I H} {ctx : Context I H} {keeps : Bool}
    (unviews : call.unviewing = some (ctx, keeps)) (operation : Operation)
    (next : Context I H → MachineM I H (Context I H))
    (goes : ∀ top run, next top run = currentContext
      ⟨{ run.machine with
        suspendedContexts := if keeps then top :: run.machine.suspendedContexts
          else run.machine.suspendedContexts },
        if keeps then run.world else run.world.endContext top⟩) :
    Ends run call ((do
      checkPointer ctx operation
      let top ← popContext
      next top) run) := by
  have opens : call.opening run = none := by
    rcases Call.of_unviewing unviews with ⟨rfl, -⟩ | ⟨rfl, -⟩ <;> rfl
  have admits : run.Admits call →
      run.At ctx ∧ ctx.isPointer = true ∧ run.machine.contexts ≠ [] :=
    (Run.admits_unviewing unviews).mp
  rw [bind_apply]
  rcases checkPointer_cases run ctx operation with ⟨⟨here, pointer⟩, checked⟩ | ⟨no, error, checked⟩
  case inr =>
    rw [checked]
    exact ends_rejected (fun admitted => no ⟨(admits admitted).1, (admits admitted).2.1⟩) opens _
  rw [checked]
  simp only [bind_apply]
  cases contexts : run.machine.contexts with
  | nil =>
    rw [popContext_nil contexts]
    exact ends_rejected (fun admitted => (admits admitted).2.2 contexts) opens _
  | cons top outer =>
    rw [popContext_cons contexts]
    simp only [goes]
    refine ends_current ?_
    exact Effect.viewLeft unviews here pointer contexts

theorem stopPointer_ends (run : Run I H) (ctx : Context I H) :
    Ends run (.stopPointer ctx) (Machine.stopPointer ctx run) := by
  apply unviewing_ends rfl
  intro top run
  rfl

theorem suspendPointer_ends (run : Run I H) (ctx : Context I H) :
    Ends run (.suspendPointer ctx) (Machine.suspendPointer ctx run) := by
  apply unviewing_ends rfl
  intro top run
  rfl

theorem resumePointer_ends (run : Run I H) (ctx : Context I H) :
    Ends run (.resumePointer ctx) (Machine.resumePointer ctx run) := by
  unfold resumePointer
  rw [bind_apply]
  rcases checkContext_cases run ctx .resumePointer with ⟨here, checked⟩ | ⟨away, error, checked⟩
  case inr =>
    rw [checked]
    exact ends_rejected (by simp [Run.Admits, away]) rfl _
  rw [checked]
  simp only [bind_apply, machine_apply]
  cases contexts : run.machine.suspendedContexts with
  | nil => exact ends_rejected (by simp [Run.Admits, contexts]) rfl _
  | cons top outer =>
    by_cases pointer : top.isPointer = true
    case neg =>
      simp only [pointer, Bool.not_false, if_true]
      exact ends_rejected (by simp [Run.Admits, contexts, pointer]) rfl _
    simp only [pointer, Bool.not_true, Bool.false_eq_true, if_false]
    exact Effect.viewResumed here pointer contexts

theorem exceptionThrown_ends (run : Run I H) (command : Command) (fault : Fault) :
    Effect run (.exceptionThrown command fault) ((Call.exceptionThrown command fault).perform run).1
      ((Call.exceptionThrown command fault).perform run).2 := by
  simp only [Call.perform, Call.act, map_apply, exceptionThrown, bind_apply]
  rcases checkCommand_cases run command .exceptionThrown with ⟨on, checked⟩ | ⟨off, error, checked⟩
  case inr =>
    rw [checked]
    exact .rejected (by simp [Run.Admits, off]) rfl
  rw [checked]
  simp only [machine_apply]
  obtain ⟨top, below, frames, own⟩ := on
  cases below with
  | nil =>
    simp only [frames]
    exact .rejected (by simp [Run.Admits, frames]) rfl
  | cons parent rest =>
    have thrown (log : List LogEntry) : Effect run (.exceptionThrown command fault) (.ok none)
        ⟨run.machine.thrown fault top parent rest, run.world.logged log⟩ :=
      Effect.thrown frames own
    simp only [frames]
    cases carried : top.exception with
    | none =>
      simp only [Machine.thrown, recording, passesOn, carried] at thrown
      exact thrown _
    | some existing =>
      cases same : existing.latest.fault.same fault with
      | true =>
        simp only [Machine.thrown, recording, passesOn, carried, same, Option.any_some, if_true]
          at thrown
        simp only [same, if_true]
        exact thrown _
      | false =>
        simp only [Machine.thrown, recording, passesOn, carried, same, Option.any_some,
          Bool.false_eq_true, if_false] at thrown
        simp only [same, Bool.false_eq_true, if_false]
        exact thrown _

theorem exceptionHandled_ends (run : Run I H) (command : Command) (fault : Fault) :
    Effect run (.exceptionHandled command fault)
      ((Call.exceptionHandled command fault).perform run).1
      ((Call.exceptionHandled command fault).perform run).2 := by
  simp only [Call.perform, Call.act, map_apply, exceptionHandled, bind_apply]
  rcases checkCommand_cases run command .exceptionHandled with ⟨on, checked⟩ | ⟨off, error, checked⟩
  case inr =>
    rw [checked]
    exact .rejected (by simp [Run.Admits, off]) rfl
  rw [checked]
  simp only [machine_apply]
  obtain ⟨top, below, frames, own⟩ := on
  cases below with
  | nil =>
    simp only [frames]
    exact .rejected (by simp [Run.Admits, frames]) rfl
  | cons parent rest =>
    obtain ⟨kind, context, opened, exception⟩ := parent
    cases exception with
    | none =>
      simp only [frames]
      exact .rejected (by simp [Run.Admits, frames]) rfl
    | some chain =>
      simp only [frames]
      exact Effect.handled frames own rfl

theorem finish_ends (run : Run I H) :
    Effect run .finish ((Call.finish : Call I H).perform run).1
      ((Call.finish : Call I H).perform run).2 := by
  simp only [Call.perform, Call.act, map_apply, finish, bind_apply, machine_apply]
  cases running : run.machine.global with
  | none => exact .rejected (by simp [Run.Admits, isRunning, running]) rfl
  | some global =>
    simp only [bind_apply, changeMachine_apply, changeWorld_apply, note_apply]
    have ended (log : List LogEntry) : Effect run .finish run.machine.verdict ⟨run.machine.cleared,
        ((run.world.endContexts (run.machine.contexts ++
          run.machine.suspendedContexts)).endContext global).logged log⟩ :=
      Effect.ended running
    unfold verdict at ended
    cases failing : run.machine.failure? with
    | none =>
      simp only [failing] at ended
      exact ended _
    | some failure =>
      simp only [failing] at ended
      exact ended _

theorem perform_effect (run : Run I H) (call : Call I H) :
    Effect run call (call.perform run).1 (call.perform run).2 := by
  have telling {call : Call I H} {operation : MachineM I H (Context I H)}
      (acts : call.act = some <$> operation) (ends : Ends run call (operation run)) :
      Effect run call (call.perform run).1 (call.perform run).2 := by
    rw [Call.perform, acts, outcomeOf_map]
    exact ends
  cases call with
  | start subject => exact telling rfl (beginRun_ends rfl)
  | startWithin parent => exact telling rfl (beginRun_ends rfl)
  | finish => exact finish_ends run
  | startCommand command ctx => exact telling rfl (startCommand_ends run command ctx)
  | endCommand command ctx => exact telling rfl (endCommand_ends run command ctx)
  | startPostProcess command ctx => exact telling rfl (startPostProcess_ends run command ctx)
  | endPostProcess command ctx => exact telling rfl (endPostProcess_ends run command ctx)
  | startPointer ctx subject => exact telling rfl (startPointer_ends run ctx subject)
  | stopPointer ctx => exact telling rfl (stopPointer_ends run ctx)
  | suspendPointer ctx => exact telling rfl (suspendPointer_ends run ctx)
  | resumePointer ctx => exact telling rfl (resumePointer_ends run ctx)
  | exceptionThrown command fault => exact exceptionThrown_ends run command fault
  | exceptionHandled command fault => exact exceptionHandled_ends run command fault

end Machine
end CommandChain
