import CommandChain.Proofs.Machine.Call

/-!
Every way a call can end. A departure takes a command's frame off the stacks, whether its body ended
or its post-processing did; a registered command takes its context and its trace entry along.
-/
namespace CommandChain

variable {I H : Type}

/-- What a departure finds: its context current, its command's frame on top, and the prefixes of the
command bound last. `undone` is the run with these undone. -/
structure Departs (run : Run I H) (call : Call I H) (command : Command) (ctx : Context I H)
    (keeps : Bool) (undone : Run I H) (frame : Frame I H) (rest : List (Frame I H)) : Prop where
  departure : call.departure = some (command, ctx, keeps)
  here : run.At ctx
  frames : run.machine.frames = frame :: rest
  own : frame.isFor command = true
  undoes : run.unbound ctx command = .ok undone

theorem Departs.machine {run undone : Run I H} {call : Call I H} {command : Command}
    {ctx : Context I H} {keeps : Bool} {frame : Frame I H} {rest : List (Frame I H)}
    (departs : Departs run call command ctx keeps undone frame rest) :
    ∃ prefixes, undone.machine = { run.machine with prefixes } :=
  Run.unbound_machine departs.undoes

/-- What the resumption of a filter finds. -/
structure Resumes (run : Run I H) (command : Command) (ctx : Context I H) (frame : Frame I H)
    (rest : List (Frame I H)) : Prop where
  here : run.At ctx
  frames : run.machine.suspendedFrames = frame :: rest
  own : frame.isFor command = true

inductive Effect (run : Run I H) :
    Call I H → Except ExecutionError (Option (Context I H)) → Run I H → Prop where
  | rejected {call error} (refused : ¬ run.Admits call) (opens : call.opening run = none) :
    Effect run call (.error error) run
  /-- The context opened for the run that did not begin goes unused. -/
  | unused {call global world} (opens : call.opening run = some (global, world))
    (running : run.machine.isRunning = true) :
    Effect run call (.error .alreadyRunning) ⟨run.machine, world⟩
  | begun {call global world log} (opens : call.opening run = some (global, world))
    (idle : run.machine.isRunning = false) :
    Effect run call (.ok (some global)) ⟨run.machine.begun global,
      (world.setWarns global run.machine.settings.warnUnreleased).logged log⟩
  | ended {global log} (running : run.machine.global = some global) :
    Effect run .finish run.machine.verdict ⟨run.machine.cleared,
      ((run.world.endContexts (run.machine.contexts ++ run.machine.suspendedContexts)).endContext
        global).logged log⟩
  | enteredUnit {command ctx registration current opened world log}
    (unit : command.registration = some registration)
    (now : run.machine.current = .ok current)
    (shallow : run.machine.frames.length < run.machine.settings.maxDepth)
    (opens : run.world.openChild current ctx.subject = (opened, world)) :
    Effect run (.startCommand command ctx) (.ok (some opened))
      (Run.bound ⟨(run.machine.pushedUnit command registration opened).located,
        world.logged log⟩ opened command)
  | entered {command ctx current log} (plain : command.registration = none)
    (now : run.machine.current = .ok current)
    (shallow : run.machine.frames.length < run.machine.settings.maxDepth)
    (same : ctx.same current = true) :
    Effect run (.startCommand command ctx) (.ok (some current))
      (Run.bound ⟨(run.machine.pushed command current).located, run.world.logged log⟩
        current command)
  | left {call command ctx keeps undone frame rest log}
    (departs : Departs run call command ctx keeps undone frame rest)
    (plain : command.isBoundary = false) :
    Effect run call ((undone.machine.droppedFrame keeps frame rest).located.current.map some)
      ⟨(undone.machine.droppedFrame keeps frame rest).located, undone.world.logged log⟩
  | leftUnit {call command ctx keeps undone frame rest top outer entry entries log}
    (departs : Departs run call command ctx keeps undone frame rest)
    (unit : command.isBoundary = true) (contexts : run.machine.contexts = top :: outer)
    (trace : run.machine.trace = entry :: entries) :
    Effect run call
      ((((undone.machine.droppedFrame keeps frame rest).droppedContext keeps top
        outer).droppedTrace keeps entry entries).located.current.map some)
      ⟨(((undone.machine.droppedFrame keeps frame rest).droppedContext keeps top
        outer).droppedTrace keeps entry entries).located,
        (if keeps then undone.world else undone.world.endContext top).logged log⟩
  | tornContext {call command ctx keeps undone frame rest}
    (departs : Departs run call command ctx keeps undone frame rest)
    (unit : command.isBoundary = true) (contexts : run.machine.contexts = []) :
    Effect run call (.error (.emptyStack .contexts))
      ⟨undone.machine.droppedFrame keeps frame rest, undone.world⟩
  | tornTrace {call command ctx keeps undone frame rest top outer}
    (departs : Departs run call command ctx keeps undone frame rest)
    (unit : command.isBoundary = true) (contexts : run.machine.contexts = top :: outer)
    (trace : run.machine.trace = []) :
    Effect run call (.error (.emptyStack .trace))
      ⟨(undone.machine.droppedFrame keeps frame rest).droppedContext keeps top outer,
        if keeps then undone.world else undone.world.endContext top⟩
  | resumed {command ctx frame rest current log} (resumes : Resumes run command ctx frame rest)
    (plain : command.isBoundary = false) (now : run.machine.current = .ok current) :
    Effect run (.startPostProcess command ctx) (.ok (some current))
      (Run.bound ⟨((run.machine.resumedFrame frame rest).located).marked current,
        run.world.logged log⟩ current command)
  | resumedUnit {command ctx frame rest top outer entry entries log}
    (resumes : Resumes run command ctx frame rest) (unit : command.isBoundary = true)
    (contexts : run.machine.suspendedContexts = top :: outer)
    (trace : run.machine.suspendedTrace = entry :: entries) :
    Effect run (.startPostProcess command ctx) (.ok (some top))
      (Run.bound ⟨((((run.machine.resumedFrame frame rest).resumedContext top
        outer).resumedTrace entry entries).located).marked top, run.world.logged log⟩ top command)
  | viewed {ctx subject view world} (here : run.At ctx)
    (opens : run.world.openView ctx subject = (.ok view, world)) :
    Effect run (.startPointer ctx subject) (.ok (some view))
      ⟨{ run.machine with contexts := view :: run.machine.contexts }, world⟩
  | viewLeft {call ctx keeps top outer} (unviews : call.unviewing = some (ctx, keeps))
    (here : run.At ctx) (pointer : ctx.isPointer = true)
    (contexts : run.machine.contexts = top :: outer) :
    Effect run call ((run.machine.droppedContext keeps top outer).current.map some)
      ⟨run.machine.droppedContext keeps top outer,
        if keeps then run.world else run.world.endContext top⟩
  | viewResumed {ctx top outer} (here : run.At ctx) (pointer : top.isPointer = true)
    (contexts : run.machine.suspendedContexts = top :: outer) :
    Effect run (.resumePointer ctx) (.ok (some top))
      ⟨run.machine.resumedContext top outer, run.world⟩
  | thrown {command fault top parent rest log}
    (frames : run.machine.frames = top :: parent :: rest) (own : top.isFor command = true) :
    Effect run (.exceptionThrown command fault) (.ok none)
      ⟨run.machine.thrown fault top parent rest, run.world.logged log⟩
  | handled {command fault top parent rest chain log}
    (frames : run.machine.frames = top :: parent :: rest) (own : top.isFor command = true)
    (recorded : parent.exception = some chain) :
    Effect run (.exceptionHandled command fault) (.ok none)
      ⟨run.machine.handling chain, run.world.logged log⟩

theorem Effect.of_finish {run run' : Run I H}
    {outcome : Except ExecutionError (Option (Context I H))}
    (effect : Effect run .finish outcome run') (running : run.machine.isRunning = true) :
    outcome = run.machine.verdict ∧ ∃ global log, run.machine.global = some global ∧
      run' = ⟨run.machine.cleared, ((run.world.endContexts (run.machine.contexts ++
        run.machine.suspendedContexts)).endContext global).logged log⟩ := by
  cases effect with
  | rejected refused => exact absurd running refused
  | ended started => exact ⟨rfl, _, _, started, rfl⟩
  | unused opens | begun opens => cases opens
  | left departs | leftUnit departs | tornContext departs | tornTrace departs =>
    cases departs.departure
  | viewLeft unviews => cases unviews

/-- How a resumption ends: it is refused and changes nothing, or the frame on top comes back, alone
or with its context and its trace entry. -/
theorem Effect.of_resumption {run run' : Run I H} {command : Command} {ctx : Context I H}
    {outcome : Except ExecutionError (Option (Context I H))}
    (effect : Effect run (.startPostProcess command ctx) outcome run') :
    (run' = run ∧ ∃ error, outcome = .error error) ∨
    ∃ frame rest, Resumes run command ctx frame rest ∧
      (command.isBoundary = false ∧ (∃ current, outcome = .ok (some current)) ∨
        command.isBoundary = true ∧ ∃ top outer entry entries,
        run.machine.suspendedContexts = top :: outer ∧
        run.machine.suspendedTrace = entry :: entries ∧ outcome = .ok (some top) ∧
        run'.machine.current = .ok top ∧ run'.machine.trace.head?.map (·.id) = some entry.id) := by
  cases effect with
  | rejected => exact .inl ⟨rfl, _, rfl⟩
  | unused opens | begun opens => cases opens
  | left departs | leftUnit departs | tornContext departs | tornTrace departs =>
    cases departs.departure
  | viewLeft unviews => cases unviews
  | resumed resumes plain => exact .inr ⟨_, _, resumes, .inl ⟨plain, _, rfl⟩⟩
  | resumedUnit resumes unit contexts trace =>
    refine .inr ⟨_, _, resumes, .inr ⟨unit, _, _, _, _, contexts, trace, rfl, ?_, ?_⟩⟩
    · simp [Machine.current]
    · rw [← List.head?_map]
      simp

/-- How an admitted departure ends: with the frame gone, and with the context and the trace entry of
a registered command, unless there were none. -/
theorem Effect.of_departure {run run' : Run I H} {call : Call I H} {command : Command}
    {ctx : Context I H} {keeps : Bool} {outcome : Except ExecutionError (Option (Context I H))}
    (effect : Effect run call outcome run')
    (departure : call.departure = some (command, ctx, keeps)) (admits : run.Admits call) :
    ∃ undone frame rest, Departs run call command ctx keeps undone frame rest ∧
      (command.isBoundary = false ∧ (∃ log, run' =
          ⟨(undone.machine.droppedFrame keeps frame rest).located, undone.world.logged log⟩) ∨
        command.isBoundary = true ∧ (run.machine.contexts = [] ∨ run.machine.trace = [] ∨
          ∃ top outer entry entries log, run.machine.contexts = top :: outer ∧
            run.machine.trace = entry :: entries ∧ run' =
              ⟨(((undone.machine.droppedFrame keeps frame rest).droppedContext keeps top
                outer).droppedTrace keeps entry entries).located,
                (if keeps then undone.world else undone.world.endContext top).logged log⟩)) := by
  have closing : call.opening run = none ∧ call.unviewing = none := by
    rcases Call.of_departure departure with ⟨rfl, -⟩ | ⟨rfl, -⟩ <;> exact ⟨rfl, rfl⟩
  cases effect with
  | rejected refused => exact absurd admits refused
  | unused opens | begun opens =>
    rw [closing.1] at opens
    cases opens
  | viewLeft unviews =>
    rw [closing.2] at unviews
    cases unviews
  | left departs plain =>
    cases departure.symm.trans departs.departure
    exact ⟨_, _, _, departs, .inl ⟨plain, _, rfl⟩⟩
  | leftUnit departs unit contexts trace =>
    cases departure.symm.trans departs.departure
    exact ⟨_, _, _, departs, .inr ⟨unit, .inr (.inr ⟨_, _, _, _, _, contexts, trace, rfl⟩)⟩⟩
  | tornContext departs unit contexts =>
    cases departure.symm.trans departs.departure
    exact ⟨_, _, _, departs, .inr ⟨unit, .inl contexts⟩⟩
  | tornTrace departs unit contexts trace =>
    cases departure.symm.trans departs.departure
    exact ⟨_, _, _, departs, .inr ⟨unit, .inr (.inl trace)⟩⟩
  | _ => cases departure

end CommandChain
