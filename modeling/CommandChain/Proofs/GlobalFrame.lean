import CommandChain.Proofs.Machine.Root

/-!
The frame of the run lies below all others from the begin of the run to its end. So every operation
finds the frames that it looks for while there is a run, and a command on top has a frame below its
own.
-/
namespace CommandChain

variable {I H α β : Type}

/-- Whether a computation does not fail for want of a frame. -/
def FindsFrames (x : MachineM I H α) (run : Run I H) : Prop :=
  ∀ run', x run ≠ .error (.emptyStack .frames) run'

namespace FindsFrames

variable {x : MachineM I H α} {f : α → MachineM I H β} {run middle : Run I H} {a : α}

theorem of_ok (ran : x run = .ok a middle) : FindsFrames x run := by
  intro run' failed
  rw [ran] at failed
  cases failed

theorem of_error {e : ExecutionError} (failed : x run = .error e middle)
    (other : e ≠ .emptyStack .frames) : FindsFrames x run := by
  intro run' lacking
  rw [failed] at lacking
  cases lacking
  exact other rfl

theorem bind (first : FindsFrames x run)
    (second : ∀ a middle, x run = .ok a middle → FindsFrames (f a) middle) :
    FindsFrames (x >>= f) run := by
  intro run'
  rw [bind_apply]
  cases ran : x run with
  | ok a middle => exact second a middle ran run'
  | error e middle =>
    rintro ⟨⟩
    exact first _ ran

theorem after (ran : x run = .ok a middle) (next : FindsFrames (f a) middle) :
    FindsFrames (x >>= f) run := by
  refine bind (of_ok ran) fun a' middle' ran' => ?_
  cases ran.symm.trans ran'
  exact next

theorem map (finds : FindsFrames x run) (f : α → β) : FindsFrames (f <$> x) run := by
  intro run'
  rw [map_apply]
  cases ran : x run with
  | ok a middle => nofun
  | error e middle =>
    rintro ⟨⟩
    exact finds _ ran

theorem of_throw {e : ExecutionError} (other : e ≠ .emptyStack .frames) :
    FindsFrames (throw e : MachineM I H α) run :=
  of_error rfl other

theorem check {failing : Prop} [Decidable failing] {e : ExecutionError}
    {next : Unit → MachineM I H β} (other : e ≠ .emptyStack .frames)
    (goes : FindsFrames (next ()) run) :
    FindsFrames (if failing then throw e >>= next else next ()) run := by
  split
  · exact bind (of_throw other) nofun
  · exact goes

end FindsFrames

namespace Machine

open MachineM

variable {run : Run I H} {command : Command} {ctx : Context I H}

theorem currentContext_finds : FindsFrames (currentContext (I := I) (H := H)) run := by
  intro run'
  rw [currentContext_apply]
  cases now : run.machine.current with
  | ok current => nofun
  | error e =>
    unfold current at now
    split at now <;> cases now
    nofun

theorem located_finds : FindsFrames (updateLocation >>= fun _ => currentContext) run :=
  .after (updateLocation_apply run) currentContext_finds

theorem checkContext_finds {operation : Operation} :
    FindsFrames (checkContext ctx operation) run := by
  unfold checkContext
  refine .bind currentContext_finds fun current _ _ => ?_
  split
  · exact .of_throw nofun
  · exact .of_ok rfl

theorem checkContext_same {operation : Operation} {run' : Run I H}
    (passed : checkContext ctx operation run = .ok () run') : run' = run := by
  rcases checkContext_cases run ctx operation with ⟨-, checked⟩ | ⟨-, error, checked⟩
  · cases checked.symm.trans passed
    rfl
  · cases checked.symm.trans passed

theorem checkPointer_finds {operation : Operation} :
    FindsFrames (checkPointer ctx operation) run := by
  unfold checkPointer
  refine .bind checkContext_finds fun _ _ _ => ?_
  split
  · exact .of_throw nofun
  · exact .of_ok rfl

theorem popContext_finds : FindsFrames (popContext (I := I) (H := H)) run := by
  cases contexts : run.machine.contexts with
  | nil => exact .of_error (popContext_nil contexts) nofun
  | cons top rest => exact .of_ok (popContext_cons contexts)

theorem popTrace_finds : FindsFrames (popTrace (I := I) (H := H)) run := by
  cases trace : run.machine.trace with
  | nil => exact .of_error (popTrace_nil trace) nofun
  | cons top rest => exact .of_ok (popTrace_cons trace)

theorem beginRun_finds {global : Context I H} : FindsFrames (beginRun global) run := by
  unfold beginRun
  refine .after (machine_apply run) (.check nofun ?_)
  exact .of_ok rfl

theorem finish_finds : FindsFrames (finish (I := I) (H := H)) run := by
  unfold finish
  refine .after (machine_apply run) ?_
  split
  · exact .of_throw nofun
  · refine .after (changeMachine_apply _ _) (.after (changeWorld_apply _ _) ?_)
    refine .after (changeWorld_apply _ _) (.after (note_apply _ _ _) ?_)
    split
    · exact .of_throw nofun
    · exact .of_ok rfl

theorem startCommand_finds : FindsFrames (Machine.startCommand command ctx) run := by
  unfold startCommand
  refine .bind currentContext_finds fun current _ _ => .after (machine_apply _) (.check nofun ?_)
  have entering (run : Run I H) : FindsFrames (do
      updateLocation
      let entered ← currentContext
      definePrefixes entered command
      pure entered) run := by
    refine .after (updateLocation_apply _) (.bind currentContext_finds fun entered _ _ => ?_)
    exact .after (definePrefixes_apply _ _ _) (.of_ok rfl)
  dsimp only
  split
  · refine .after (onWorld_apply _ _) (.after (fresh_apply _) ?_)
    refine .after (changeMachine_apply _ _) (.after (changeMachine_apply _ _) ?_)
    exact .after (changeMachine_apply _ _) (.after (note_apply _ _ _) (entering _))
  · exact .check nofun (.after (changeMachine_apply _ _) (entering _))

theorem startPostProcess_finds : FindsFrames (Machine.startPostProcess command ctx) run := by
  unfold startPostProcess
  refine .bind checkContext_finds fun _ _ _ => .after (machine_apply _) ?_
  have resuming (run : Run I H) : FindsFrames (do
      changeMachine (resumeStacks command)
      note .debug ("resumed filter '" ++ command.name ++ "'")
      updateLocation
      let entered ← currentContext
      markEntered entered
      definePrefixes entered command
      pure entered) run := by
    refine .after (changeMachine_apply _ _) (.after (note_apply _ _ _) ?_)
    refine .after (updateLocation_apply _) (.bind currentContext_finds fun entered _ _ => ?_)
    exact .after (markEntered_apply _ _) (.after (definePrefixes_apply _ _ _) (.of_ok rfl))
  dsimp only
  split
  · exact .bind (.of_throw nofun) nofun
  · refine .check nofun ?_
    split
    · exact .check nofun (.check nofun (resuming _))
    · exact resuming _

theorem startPointer_finds {subject : Value} :
    FindsFrames (Machine.startPointer ctx subject) run := by
  unfold startPointer
  refine .bind checkContext_finds fun _ _ _ => .after (onWorld_apply _ _) ?_
  split
  · exact .of_throw nofun
  · exact .after (changeMachine_apply _ _) (.of_ok rfl)

theorem stopPointer_finds : FindsFrames (Machine.stopPointer ctx) run := by
  unfold stopPointer
  refine .bind checkPointer_finds fun _ _ _ => .bind popContext_finds fun top _ _ => ?_
  exact .after (changeWorld_apply _ _) currentContext_finds

theorem suspendPointer_finds : FindsFrames (Machine.suspendPointer ctx) run := by
  unfold suspendPointer
  refine .bind checkPointer_finds fun _ _ _ => .bind popContext_finds fun top _ _ => ?_
  exact .after (changeMachine_apply _ _) currentContext_finds

theorem resumePointer_finds : FindsFrames (Machine.resumePointer ctx) run := by
  unfold resumePointer
  refine .bind checkContext_finds fun _ _ _ => .after (machine_apply _) ?_
  split
  · exact .of_throw nofun
  · refine .check nofun (.after (changeMachine_apply _ _) ?_)
    exact .after (changeMachine_apply _ _) (.of_ok rfl)

/-! ### Operations that look for a frame -/

theorem checkCommand_finds {operation : Operation} (some_frame : run.machine.frames ≠ []) :
    FindsFrames (checkCommand command operation) run := by
  unfold checkCommand
  refine .after (machine_apply run) ?_
  split
  · rename_i none_left
    exact absurd none_left some_frame
  · split
    · exact .of_throw nofun
    · exact .of_ok rfl

theorem checkCommand_on {operation : Operation} {run' : Run I H}
    (passed : checkCommand command operation run = .ok () run') : run' = run ∧ run.On command := by
  rcases checkCommand_cases run command operation with ⟨on, checked⟩ | ⟨-, error, checked⟩
  · cases checked.symm.trans passed
    exact ⟨rfl, on⟩
  · cases checked.symm.trans passed

theorem undefinePrefixes_finds : FindsFrames (undefinePrefixes ctx command) run := by
  unfold undefinePrefixes
  split
  · exact .of_ok rfl
  · refine .after (get_apply run) ?_
    unfold PrefixStack.undefine
    cases run.machine.prefixes with
    | nil => exact .of_throw nofun
    | cons top rest =>
      dsimp only
      by_cases own : top.isFor ctx command = true
      · rw [if_pos own]
        cases top.reentries <;> exact .of_ok rfl
      · rw [if_neg own]
        exact .of_throw nofun

theorem undefinePrefixes_frames {run' : Run I H}
    (undid : undefinePrefixes ctx command run = .ok () run') :
    run'.machine.frames = run.machine.frames := by
  rw [undefinePrefixes_apply] at undid
  cases undoes : run.unbound ctx command with
  | error e => simp [undoes] at undid
  | ok undone =>
    obtain ⟨prefixes, same⟩ := Run.unbound_machine undoes
    simp only [undoes] at undid
    cases undid
    rw [same]

theorem popFrame_finds (some_frame : run.machine.frames ≠ []) : FindsFrames popFrame run := by
  obtain ⟨top, rest, frames⟩ := List.exists_cons_of_ne_nil some_frame
  exact .of_ok (popFrame_cons frames)

theorem departure_finds {operation : Operation} {next : MachineM I H (Context I H)}
    (some_frame : run.machine.frames ≠ [])
    (goes : ∀ run : Run I H, run.machine.frames ≠ [] → FindsFrames next run) :
    FindsFrames (do
      checkContext ctx operation
      checkCommand command operation
      undefinePrefixes ctx command
      next) run := by
  refine .bind checkContext_finds fun _ checked passed => ?_
  cases checkContext_same passed
  refine .bind (checkCommand_finds some_frame) fun _ checked' passed' => ?_
  cases (checkCommand_on passed').1
  refine .bind undefinePrefixes_finds fun _ undone undid => goes undone ?_
  rw [undefinePrefixes_frames undid]
  exact some_frame

theorem discard_finds {x : MachineM I H α} (finds : FindsFrames x run) :
    FindsFrames (discard x) run :=
  .bind finds fun _ _ _ => .of_ok rfl

theorem leaveUnit_finds (text : String) : FindsFrames (do
    let top ← popContext
    changeWorld (·.endContext top)
    discard popTrace
    note .debug text
    updateLocation
    currentContext) run := by
  refine .bind popContext_finds fun top _ _ => .after (changeWorld_apply _ _) ?_
  refine .bind (discard_finds popTrace_finds) fun _ _ _ => ?_
  exact .after (note_apply _ _ _) located_finds

theorem endCommand_finds (some_frame : run.machine.frames ≠ []) :
    FindsFrames (Machine.endCommand command ctx) run := by
  refine departure_finds some_frame fun run left => .bind (popFrame_finds left) fun frame _ _ => ?_
  dsimp only
  split
  · refine .after (changeMachine_apply _ _) ?_
    split
    · refine .bind popContext_finds fun top _ _ => .after (changeMachine_apply _ _) ?_
      refine .bind popTrace_finds fun entry _ _ => .after (changeMachine_apply _ _) ?_
      exact .after (note_apply _ _ _) located_finds
    · exact .after (note_apply _ _ _) located_finds
  · split
    · exact leaveUnit_finds _
    · exact located_finds

theorem endPostProcess_finds (some_frame : run.machine.frames ≠ []) :
    FindsFrames (Machine.endPostProcess command ctx) run := by
  refine departure_finds some_frame fun run left => ?_
  refine .bind (discard_finds (popFrame_finds left)) fun _ _ _ => ?_
  dsimp only
  split
  · exact leaveUnit_finds _
  · exact .after (note_apply _ _ _) located_finds

theorem exceptionHandled_finds {fault : Fault} (some_frame : run.machine.frames ≠ []) :
    FindsFrames (Machine.exceptionHandled command fault) run := by
  unfold exceptionHandled
  refine .bind (checkCommand_finds some_frame) fun _ checked _ => .after (machine_apply checked) ?_
  split
  · exact .after (changeMachine_apply _ _) (.of_ok (note_apply _ _ _))
  · exact .of_throw nofun

theorem exceptionThrown_finds {fault : Fault} (some_frame : run.machine.frames ≠ [])
    (below : run.On command → 2 ≤ run.machine.frames.length) :
    FindsFrames (Machine.exceptionThrown command fault) run := by
  unfold exceptionThrown
  refine .bind (checkCommand_finds some_frame) fun _ checked passed => ?_
  obtain ⟨rfl, on⟩ := checkCommand_on passed
  refine .after (machine_apply _) ?_
  split
  · rename_i top parent rest frames
    have recorded (chain : RaisedChain) (run : Run I H) : FindsFrames (do
        note .debug ("'" ++ command.name ++ "' raised: " ++ fault.text)
        changeMachine ({ · with frames := top :: { parent with exception := some chain } :: rest }))
        run :=
      .after (note_apply _ _ _) (.of_ok (changeMachine_apply _ _))
    dsimp only
    split
    · split
      · exact recorded _ _
      · exact .after (fresh_apply _) (recorded _ _)
    · exact .after (fresh_apply _) (recorded _ _)
  · rename_i short
    have two := below on
    obtain ⟨top, rest, frames, -⟩ := on
    cases rest with
    | nil => simp [frames] at two
    | cons parent rest => exact absurd frames (short top parent rest)

theorem act_finds (some_frame : run.machine.frames ≠ [])
    (below : ∀ command, run.On command → 2 ≤ run.machine.frames.length) (call : Call I H) :
    FindsFrames call.act run := by
  cases call with
  | start subject =>
    exact .map (.after (machine_apply _) (.after (onWorld_apply _ _) beginRun_finds)) _
  | startWithin parent => exact .map (.after (onWorld_apply _ _) beginRun_finds) _
  | finish => exact .map finish_finds _
  | startCommand command ctx => exact .map startCommand_finds _
  | endCommand command ctx => exact .map (endCommand_finds some_frame) _
  | startPostProcess command ctx => exact .map startPostProcess_finds _
  | endPostProcess command ctx => exact .map (endPostProcess_finds some_frame) _
  | startPointer ctx subject => exact .map startPointer_finds _
  | stopPointer ctx => exact .map stopPointer_finds _
  | suspendPointer ctx => exact .map suspendPointer_finds _
  | resumePointer ctx => exact .map resumePointer_finds _
  | exceptionThrown command fault =>
    exact .map (exceptionThrown_finds some_frame (below command)) _
  | exceptionHandled command fault => exact .map (exceptionHandled_finds some_frame) _

end Machine

namespace Session

variable {allowed : Session I H → Interaction I H → Prop} {s : Session I H}

theorem Reached.running_iff (reached : Reached allowed s) :
    s.run.machine.isRunning = true ↔ s.run.machine.frames ≠ [] := by
  rw [Machine.isRunning, Option.isSome_iff_ne_none]
  constructor
  · intro running none_left
    obtain ⟨commands, kinds⟩ := reached.rooted.lowest running
    simp [Machine.kinds, none_left] at kinds
  · intro some_frame
    obtain ⟨top, rest, frames⟩ := List.exists_cons_of_ne_nil some_frame
    exact reached.quiet.running_of_frames frames

theorem Reached.frame_below (reached : Reached allowed s) (command : Command)
    (on : s.run.On command) : 2 ≤ s.run.machine.frames.length := by
  obtain ⟨top, rest, frames, own⟩ := on
  have running := reached.quiet.running_of_frames frames
  obtain ⟨commands, kinds⟩ := reached.rooted.below running frames own
  have lengths := congrArg List.length kinds
  simp only [List.length_map, List.length_append, List.length_singleton] at lengths
  rw [frames, List.length_cons]
  omega

/-- The frame of the run is the lowest while there is a run, and no other frame in use and none that
waits is of its kind. What waits passes for filters, and if commands are used by their handles they
are filters. Without a run there is nothing on any stack. So no call lacks a frame during a run, and
a command on top has a frame below its own. -/
theorem global_frame_lowest (reached : Reached allowed s) :
    (s.run.machine.isRunning = true ↔ s.run.machine.frames ≠ []) ∧
    (s.run.machine.isRunning = true → ∃ commands : List Command,
      s.run.machine.frames.map (·.kind) = commands.map .command ++ [.global]) ∧
    (∃ commands : List Command,
      s.run.machine.suspendedFrames.map (·.kind) = commands.map .command ∧
        (∀ command ∈ commands, command.PassesForFilter) ∧
        ∀ handles, Reached (Handled handles) s →
          ∀ command ∈ commands, command.isFilter = true) ∧
    (s.run.machine.isRunning = false → ∀ stack, s.run.machine.depth stack = 0) ∧
    (s.run.machine.isRunning = true →
      ∀ call : Call I H, (call.perform s.run).1 ≠ .error (.emptyStack .frames)) ∧
    ∀ command, s.run.On command → 2 ≤ s.run.machine.frames.length := by
  have started : s.run.machine.isRunning = true ↔ s.run.machine.global ≠ none := by
    rw [Machine.isRunning, Option.isSome_iff_ne_none]
  refine ⟨reached.running_iff, fun running => reached.rooted.lowest (started.mp running), ?_, ?_, ?_,
    reached.frame_below⟩
  · obtain ⟨commands, suspended, pass⟩ := reached.rooted.waiting
    refine ⟨commands, suspended, pass, fun handles handled => ?_⟩
    obtain ⟨filters, suspended', all_filters⟩ := handled.filters_wait.waiting
    have same := suspended.symm.trans suspended'
    rw [List.map_inj_right fun _ _ => FrameKind.command.inj] at same
    rw [same]
    exact all_filters
  · intro stopped stack
    have no_run : s.run.machine.global = none := by simpa [Machine.isRunning] using stopped
    rw [← reached.quiet no_run]
    cases stack <;> rfl
  · intro running call
    have finds := Machine.act_finds (reached.running_iff.mp running) reached.frame_below call
    unfold Call.perform
    cases ended : call.act s.run with
    | ok told run => rintro ⟨⟩
    | error e run =>
      rintro ⟨⟩
      exact finds _ ended

def waitHandles (id : Nat) : Command := if id = 0 then sampleFilter else .named id "a"

/-- A filter waits while another command runs. -/
def filterWaits : Session Unit Unit :=
  (fresh .empty .standard ()).play [.calls (.start (.int 1)),
    .calls (.startCommand sampleFilter filterOuter), .calls (.endCommand sampleFilter filterOwn),
    .calls (.startCommand (.named 1 "a") filterOuter)]

theorem global_frame_lowest_filterWaits :
    Reached (Handled waitHandles) filterWaits ∧ filterWaits.run.machine.isRunning = true ∧
      (∃ commands : List Command, commands ≠ [] ∧
        filterWaits.run.machine.suspendedFrames.map (·.kind) = commands.map .command ∧
        ∀ command ∈ commands, command.isFilter = true) ∧
      filterWaits.run.On (.named 1 "a") ∧ 2 ≤ filterWaits.run.machine.frames.length ∧
      ∀ call : Call Unit Unit, (call.perform filterWaits.run).1 ≠ .error (.emptyStack .frames) := by
  have reached : Reached (Handled waitHandles) filterWaits := by
    refine ⟨_, _, _, Permits.leads ⟨nofun, ?_, ?_, ?_, trivial⟩⟩
    all_goals
      rintro command ⟨⟩
      rfl
  have on : filterWaits.run.On (.named 1 "a") := ⟨_, _, rfl, rfl⟩
  obtain ⟨-, -, ⟨commands, suspended, -, filters⟩, -, finds, below⟩ := global_frame_lowest reached
  refine ⟨reached, rfl, ⟨commands, ?_, suspended, filters _ reached⟩, on, below _ on, finds rfl⟩
  rintro rfl
  cases suspended

end Session

end CommandChain
