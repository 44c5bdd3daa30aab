import CommandChain.Proofs.FailureReport
import CommandChain.Proofs.Nesting
import CommandChain.Proofs.Ownership

/-!
What an invocation leaves when its body fails. The end of a frame names the context that its command
was entered with, and is refused while another context is current. So a body that fails with nothing
of its own on the stack of contexts is cleaned up after, and so are all commands around it that pass
its fault on. One that leaves a view there keeps its frame in use, and no command around it can end
its own.
-/
namespace CommandChain

variable {I H : Type}

namespace Machine

/-- Whether the stacks in use are those of another machine. Only the exception of the frame on top
and the place of the trace entry on top may have changed. -/
structure Keeps (m m' : Machine I H) : Prop where
  global : m'.global = m.global
  frames : m'.frames.modifyHead Frame.bare = m.frames.modifyHead Frame.bare
  trace : m'.trace.modifyHead TraceEntry.bare = m.trace.modifyHead TraceEntry.bare
  contexts : m'.contexts = m.contexts
  prefixes : m'.prefixes = m.prefixes

@[simp] def under (m : Machine I H) (above : List (Context I H)) : Machine I H :=
  { m with contexts := above ++ m.contexts }

variable {m middle m' : Machine I H}

theorem Restores.keeps (restores : m.Restores m') : m.Keeps m' :=
  ⟨restores.global, restores.frames, restores.trace, restores.contexts, restores.prefixes⟩

namespace Keeps

theorem refl (m : Machine I H) : m.Keeps m := ⟨rfl, rfl, rfl, rfl, rfl⟩

theorem trans (first : m.Keeps middle) (second : middle.Keeps m') : m.Keeps m' where
  global := second.global.trans first.global
  frames := second.frames.trans first.frames
  trace := second.trace.trans first.trace
  contexts := second.contexts.trans first.contexts
  prefixes := second.prefixes.trans first.prefixes

theorem under (keeps : m.Keeps m') (above : List (Context I H)) :
    (m.under above).Keeps (m'.under above) :=
  { keeps with contexts := congrArg (above ++ ·) keeps.contexts }

theorem current (keeps : m.Keeps m') : m'.current = m.current := by
  unfold Machine.current
  rw [keeps.contexts, keeps.global]

end Keeps
end Machine

theorem Binds.whatever {command : Command} {ctx : Context I H} {limit : Nat}
    {before stack : PrefixStack I H} {layers last : Layers}
    (binds : Binds command ctx limit before layers stack last) (later : Layers) :
    Binds command ctx 0 before layers stack later := by
  have none_below {layers' : Layers} : Layers.Same 0 layers layers' :=
    fun id below => absurd below (Nat.not_lt_zero id)
  cases binds with
  | silent none_bound => exact .silent none_bound none_below
  | again bound stack own => exact .again bound stack own none_below
  | anew bound => exact .anew bound none_below

namespace Run

/-! ### Closing a frame -/

/-- The run after the record of a fault that a command's body raised. A failure to record it is
told. -/
def recorded (run : Run I H) (command : Command) (fault : Fault) : Run I H :=
  match (Call.exceptionThrown command fault).perform run with
  | (.ok _, run) => run
  | (.error error, run) => ⟨run.machine, run.world.note .error
      ("could not record exception for '" ++ command.name ++ "': " ++ error.message)⟩

/-- The run that an invocation leaves whose body raised a fault. -/
def closed (run : Run I H) (command : Command) (entered : Context I H) (fault : Fault) :
    Run I H :=
  match (Call.endCommand command entered).perform (run.recorded command fault) with
  | (.ok _, run) => run
  | (.error error, run) => ⟨run.machine, run.world.note .error
      ("ending frame after failure also failed: " ++ error.message)⟩

/-- Whether the fault of a command's body can be recorded and its frame ended. -/
def closes (run : Run I H) (command : Command) (entered : Context I H) (fault : Fault) : Bool :=
  ((Call.exceptionThrown command fault).perform run).1.isOk &&
    ((Call.endCommand command entered).perform (run.recorded command fault)).1.isOk

/-- Whether the stacks are those of another run but for exceptions, and the worlds differ in what
was told alone. -/
structure Stalls (run run' : Run I H) : Prop where
  global : run'.machine.global = run.machine.global
  frames : run'.machine.frames.map Frame.bare = run.machine.frames.map Frame.bare
  suspendedFrames : run'.machine.suspendedFrames = run.machine.suspendedFrames
  trace : run'.machine.trace = run.machine.trace
  suspendedTrace : run'.machine.suspendedTrace = run.machine.suspendedTrace
  contexts : run'.machine.contexts = run.machine.contexts
  suspendedContexts : run'.machine.suspendedContexts = run.machine.suspendedContexts
  prefixes : run'.machine.prefixes = run.machine.prefixes
  world : ∃ log, run'.world = run.world.logged log

/-- Whether a run is another one again, but for views that were opened since and are left on top. -/
structure Leaves (views : List (Context I H)) (run run' : Run I H) : Prop where
  keeps : (run.machine.under views).Keeps run'.machine
  views : ∀ view ∈ views, view.isPointer = true ∧ run.world.nextNode ≤ view.id

/-- Whether a fault was recorded on the frame that was on top. -/
def Records (start : Run I H) (fault : Fault) (now : Run I H) : Prop :=
  ∃ front parent rest chain, now.machine.frames = front ++ parent :: rest ∧
    parent.exception = some chain ∧ chain.latest.fault.same fault = true ∧
    (parent :: rest).modifyHead Frame.bare = start.machine.frames.modifyHead Frame.bare

/-- Whether the stacks in use are those from before a command, its context is released if it was its
own, and a filter is set aside with its context. -/
structure CleanedUp (start : Run I H) (command : Command) (entered : Context I H)
    (now : Run I H) : Prop where
  keeps : start.machine.Keeps now.machine
  released : command.isFilter = false → command.isBoundary = true →
    now.world.isReleased entered = true
  suspended : command.isFilter = true → ∃ frame rest,
    now.machine.suspendedFrames = frame :: rest ∧ frame.isFor command = true ∧
    (command.isBoundary = true → now.machine.suspendedContexts.head? = some entered)

/-- Whether a run is one from before with a command in use and some contexts on top of its own. -/
structure Over (limit : Nat) (above : List (Context I H)) (start : Run I H) (command : Command)
    (entered : Context I H) (now : Run I H) : Prop where
  machine : ∃ base frame mine, start.machine.Keeps base ∧ frame.isFor command = true ∧
    mine.isSome = command.isBoundary ∧ (∀ own ∈ mine, own.1 = entered ∧ own.1.isPointer = false) ∧
    ((base.raised frame mine now.machine.prefixes).under above).Keeps now.machine
  current : now.machine.current = .ok (above.headD entered)
  binds : Binds command entered limit start.machine.prefixes start.world.layers
    now.machine.prefixes now.world.layers

variable {start inner now run run' : Run I H} {command : Command} {entered : Context I H}
  {above : List (Context I H)} {limit : Nat} {fault : Fault} {mine : Machine.Mine I H}

theorem Within.over (within : Within start command entered mine inner)
    (keeps : (inner.machine.under above).Keeps now.machine)
    (binds : Binds command entered limit start.machine.prefixes start.world.layers
      inner.machine.prefixes now.world.layers) :
    Over limit above start command entered now where
  machine := by
    obtain ⟨base, frame, kept, own, raised⟩ := within.machine
    refine ⟨base, frame, mine, kept.keeps, own, within.unit, fun own member => ?_, ?_⟩
    · exact ⟨within.own own member, (within.world.own own member).1⟩
    · rw [show now.machine.prefixes = inner.machine.prefixes from keeps.prefixes]
      exact (raised.keeps.under above).trans keeps
  current := by
    rw [keeps.current]
    have here := within.fits.current
    cases above with
    | nil => exact here
    | cons view rest => rfl
  binds := by
    rw [show now.machine.prefixes = inner.machine.prefixes from keeps.prefixes]
    exact binds

/-! ### Records -/

namespace Stalls

theorem trans {last : Run I H} (first : run.Stalls run') (second : run'.Stalls last) :
    run.Stalls last where
  global := second.global.trans first.global
  frames := second.frames.trans first.frames
  suspendedFrames := second.suspendedFrames.trans first.suspendedFrames
  trace := second.trace.trans first.trace
  suspendedTrace := second.suspendedTrace.trans first.suspendedTrace
  contexts := second.contexts.trans first.contexts
  suspendedContexts := second.suspendedContexts.trans first.suspendedContexts
  prefixes := second.prefixes.trans first.prefixes
  world := by
    obtain ⟨_, same⟩ := first.world
    obtain ⟨log, same'⟩ := second.world
    exact ⟨log, by rw [same', same]; rfl⟩

theorem note (run : Run I H) (level : LogLevel) (text : String) :
    run.Stalls ⟨run.machine, run.world.note level text⟩ :=
  ⟨rfl, rfl, rfl, rfl, rfl, rfl, rfl, rfl, _, rfl⟩

theorem current (stalls : run.Stalls run') : run'.machine.current = run.machine.current := by
  unfold Machine.current
  rw [stalls.contexts, stalls.global]

end Stalls

theorem stalls_recorded (run : Run I H) (command : Command) (fault : Fault) :
    run.Stalls (run.recorded command fault) := by
  have effect := Machine.perform_effect run (.exceptionThrown command fault)
  unfold recorded
  cases performed : (Call.exceptionThrown command fault).perform run with
  | mk outcome after =>
    rw [performed] at effect
    cases effect with
    | rejected => exact .note _ _ _
    | unused opens | begun opens => cases opens
    | left departs | leftUnit departs | tornContext departs | tornTrace departs =>
      cases departs.departure
    | viewLeft unviews => cases unviews
    | thrown frames =>
      refine ⟨rfl, ?_, rfl, rfl, rfl, rfl, rfl, rfl, _, rfl⟩
      rw [frames]
      rfl

theorem recorded_ok {told : Option (Context I H)}
    (records : (Call.exceptionThrown command fault).perform run = (.ok told, run')) :
    run.recorded command fault = run' := by
  rw [recorded, records]

theorem Over.records (laid : Over limit above start command entered now)
    (based : start.machine.frames ≠ []) (fault : Fault) :
    ((Call.exceptionThrown command fault).perform now).1.isOk = true ∧
      Over limit above start command entered (now.recorded command fault) ∧
      (∃ front, (now.recorded command fault).machine.frames =
        front :: (now.recorded command fault).machine.frames.tail) ∧
      ∃ parent rest chain, (now.recorded command fault).machine.frames.tail = parent :: rest ∧
        parent.exception = some chain ∧ chain.latest.fault.same fault = true ∧
        (parent :: rest).modifyHead Frame.bare = start.machine.frames.modifyHead Frame.bare := by
  obtain ⟨base, frame, mine, kept, own, unit, mine_own, raised⟩ := laid.machine
  obtain ⟨top, frames, same⟩ := Machine.of_modifyHead raised.frames
  have is_own := Machine.isFor_of_bare same own
  have below : base.frames ≠ [] := by
    intro none_left
    have lengths := congrArg List.length kept.frames
    rw [none_left, List.length_modifyHead, List.length_modifyHead] at lengths
    exact based (List.length_eq_zero_iff.mp lengths.symm)
  have admits : now.Admits (.exceptionThrown command fault) := by
    refine ⟨⟨top, base.frames, frames, is_own⟩, ?_⟩
    rw [frames]
    exact Nat.succ_le_succ (List.length_pos_iff.mpr below)
  have effect := Machine.perform_effect now (.exceptionThrown command fault)
  cases performed : (Call.exceptionThrown command fault).perform now with
  | mk outcome after =>
    rw [performed] at effect
    cases effect with
    | rejected refused => exact absurd admits refused
    | unused opens | begun opens => cases opens
    | left departs | leftUnit departs | tornContext departs | tornTrace departs =>
      cases departs.departure
    | viewLeft unviews => cases unviews
    | thrown stack =>
      rename_i frame' parent rest log _
      rw [frames] at stack
      obtain ⟨rfl, tails⟩ := List.cons.inj stack
      rw [recorded_ok performed]
      have parents : ({ parent with exception := some (now.machine.recording top fault) } ::
          rest).modifyHead Frame.bare = start.machine.frames.modifyHead Frame.bare := by
        rw [← kept.frames, tails]
        rfl
      refine ⟨rfl, ⟨⟨{ base with frames :=
        { parent with exception := some (now.machine.recording top fault) } :: rest }, frame, mine,
          { kept with frames := parents }, own, unit, mine_own, ?_⟩, laid.current, laid.binds⟩,
        ⟨top, rfl⟩, ⟨_, _, _, rfl, rfl, recording_same _ _ _, parents⟩⟩
      refine { raised with frames := ?_ }
      change top.bare :: _ = frame.bare :: _
      rw [same]

/-! ### Ends -/

theorem refused_departure {call : Call I H}
    {outcome : Except ExecutionError (Option (Context I H))} {ctx current : Context I H}
    {keeps : Bool} (effect : Effect run call outcome run')
    (departure : call.departure = some (command, ctx, keeps))
    (now : run.machine.current = .ok current) (other : current.same ctx = false) :
    outcome.isOk = false ∧ run' = run := by
  have away : ¬ run.At ctx := by
    rintro ⟨found, here, same⟩
    rw [now] at here
    cases here
    rw [other] at same
    cases same
  have elsewhere {command' : Command} {ctx' : Context I H} {keeps' : Bool} {undone : Run I H}
      {frame : Frame I H} {rest : List (Frame I H)}
      (departs : Departs run call command' ctx' keeps' undone frame rest) : False := by
    cases departure.symm.trans departs.departure
    exact away departs.here
  cases effect with
  | rejected => exact ⟨rfl, rfl⟩
  | left departs | leftUnit departs | tornContext departs | tornTrace departs =>
    exact (elsewhere departs).elim
  | unused opens | begun opens =>
    rcases Call.of_departure departure with ⟨rfl, -⟩ | ⟨rfl, -⟩ <;> cases opens
  | viewLeft unviews =>
    rcases Call.of_departure departure with ⟨rfl, -⟩ | ⟨rfl, -⟩ <;> cases unviews
  | _ => cases departure

theorem Over.ends (laid : Over limit [] start command entered now)
    {around : Context I H} (within : start.machine.current = .ok around)
    {outcome : Except ExecutionError (Option (Context I H))}
    (effect : Effect now (.endCommand command entered) outcome run') :
    outcome.isOk = true ∧ start.CleanedUp command entered run' ∧
      run'.machine.frames = now.machine.frames.tail ∧
      Layers.Same limit start.world.layers run'.world.layers := by
  obtain ⟨base, frame, mine, kept, own, unit, mine_own, raised⟩ := laid.machine
  obtain ⟨top, frames, same⟩ := Machine.of_modifyHead raised.frames
  have is_own := Machine.isFor_of_bare same own
  obtain ⟨layers, undoes, settled, -⟩ := laid.binds.undoes
  have admits : now.Admits (.endCommand command entered) :=
    ⟨⟨entered, laid.current, by simp [Context.same]⟩, ⟨top, base.frames, frames, is_own⟩, _, undoes⟩
  -- Both kinds of departure find the run with the prefixes off and the frame on top.
  have departing {ctx : Context I H} {keeps : Bool} {undone : Run I H} {frame' : Frame I H}
      {rest : List (Frame I H)}
      (departs : Departs now (.endCommand command entered) command ctx keeps undone frame' rest) :
      top = frame' ∧ base.frames = rest ∧ undone =
        ⟨{ now.machine with prefixes := start.machine.prefixes }, { now.world with layers }⟩ := by
    have stack := departs.frames
    rw [frames] at stack
    obtain ⟨same_top, same_rest⟩ := List.cons.inj stack
    cases departs.departure
    have undoing := departs.undoes
    rw [undoes] at undoing
    exact ⟨same_top, same_rest, (Except.ok.inj undoing).symm⟩
  have nothing_above : now.machine.contexts = (mine.map Prod.fst).toList ++ base.contexts :=
    raised.contexts
  cases effect with
  | rejected refused => exact absurd admits refused
  | unused opens | begun opens => cases opens
  | viewLeft unviews => cases unviews
  | left departs plain =>
    cases departs.departure
    obtain ⟨rfl, rfl, rfl⟩ := departing departs
    have alone : mine = none := by simpa [plain] using unit
    subst alone
    refine ⟨?_, ⟨?_, fun _ bounded => ?_, fun filters => ?_⟩, ?_, settled⟩
    · rw [Machine.located_current]
      have here : Machine.current { now.machine with
        prefixes := start.machine.prefixes } = .ok entered := laid.current
      unfold Machine.current at here ⊢
      simp only [Machine.droppedFrame]
      rw [here]
      rfl
    · refine kept.trans (Machine.Keeps.trans ?_ (Machine.restores_located _).keeps)
      exact { raised with frames := rfl, prefixes := kept.prefixes.symm }
    · rw [plain] at bounded
      cases bounded
    · refine ⟨top, now.machine.suspendedFrames, ?_, is_own, fun bounded => ?_⟩
      · simp [filters]
      · rw [plain] at bounded
        cases bounded
    · rw [Machine.located_frames, frames]
      rfl
  | leftUnit departs bounded contexts trace =>
    rename_i top_context outer entry entries log
    cases departs.departure
    obtain ⟨rfl, rfl, rfl⟩ := departing departs
    obtain ⟨⟨context, entry'⟩, rfl⟩ := Option.isSome_iff_exists.mp (unit.trans bounded)
    obtain ⟨rfl, owner⟩ := mine_own _ rfl
    obtain ⟨rfl, same_outer⟩ := List.cons.inj (contexts.symm.trans nothing_above)
    obtain rfl : outer = base.contexts := same_outer
    obtain ⟨entry'', entries', -⟩ := Machine.of_modifyHead raised.trace
    rw [trace] at entries'
    obtain ⟨rfl, rfl⟩ := List.cons.inj entries'
    have there : base.current = .ok around := kept.current.trans within
    refine ⟨?_, ⟨?_, fun plain _ => ?_, fun filters => ?_⟩, ?_, ?_⟩
    · rw [Machine.located_current]
      unfold Machine.current at there ⊢
      have global : now.machine.global = base.global := raised.global
      simp only [Machine.droppedTrace, Machine.droppedContext, Machine.droppedFrame, global]
      rw [there]
      rfl
    · refine kept.trans (Machine.Keeps.trans ?_ (Machine.restores_located _).keeps)
      exact { raised with
        frames := rfl, contexts := rfl, trace := rfl, prefixes := kept.prefixes.symm }
    · simp only [plain, Bool.false_eq_true, if_false]
      exact World.released_endContext owner
    · refine ⟨top, now.machine.suspendedFrames, ?_, is_own, fun _ => ?_⟩
      · simp [filters]
      · simp [filters]
    · rw [Machine.located_frames, frames]
      rfl
    · intro id below
      refine Eq.trans ?_ (settled id below)
      split
      · rfl
      · exact congrArg (Store.get · id) (World.layers_endContext _ _)
  | tornContext departs bounded contexts =>
    cases departs.departure
    obtain ⟨⟨context, entry'⟩, rfl⟩ := Option.isSome_iff_exists.mp (unit.trans bounded)
    rw [contexts] at nothing_above
    cases nothing_above
  | tornTrace departs bounded contexts trace =>
    cases departs.departure
    obtain ⟨⟨context, entry'⟩, rfl⟩ := Option.isSome_iff_exists.mp (unit.trans bounded)
    obtain ⟨entry'', entries', -⟩ := Machine.of_modifyHead raised.trace
    rw [trace] at entries'
    cases entries'

/-- A frame stays in use whose end is called while a view is current. -/
theorem refused {view : Context I H} (command : Command) (current : run.machine.current = .ok view)
    (other : view.same entered = false) (fault : Fault) :
    run.closes command entered fault = false ∧ run.Stalls (run.closed command entered fault) ∧
      (run.closed command entered fault).machine = (run.recorded command fault).machine := by
  have stalls := stalls_recorded run command fault
  obtain ⟨failed, same⟩ := refused_departure (Machine.perform_effect (run.recorded command fault)
    (.endCommand command entered)) rfl (stalls.current.trans current) other
  refine ⟨by rw [closes, failed, Bool.and_false], ?_⟩
  unfold closed
  cases ended : (Call.endCommand command entered).perform (run.recorded command fault) with
  | mk outcome after =>
    rw [ended] at failed same
    cases outcome with
    | ok told => cases failed
    | error error =>
      rw [show after = run.recorded command fault from same]
      exact ⟨stalls.trans (.note _ _ _), rfl⟩

theorem Over.closes (laid : Over limit [] start command entered now)
    (based : start.machine.frames ≠ []) {around : Context I H}
    (within : start.machine.current = .ok around) (fault : Fault) :
    now.closes command entered fault = true ∧
      start.CleanedUp command entered (now.closed command entered fault) ∧
      start.Records fault (now.closed command entered fault) ∧
      Layers.Same limit start.world.layers (now.closed command entered fault).world.layers := by
  obtain ⟨recorded, laid', -, parent, rest, chain, frames, carries, named, same⟩ :=
    laid.records based fault
  obtain ⟨ended, cleaned, left, layers⟩ := laid'.ends within
    (Machine.perform_effect (now.recorded command fault) (.endCommand command entered))
  have is_left : now.closed command entered fault =
      ((Call.endCommand command entered).perform (now.recorded command fault)).2 := by
    unfold closed
    cases performed : (Call.endCommand command entered).perform (now.recorded command fault) with
    | mk outcome after =>
      cases outcome with
      | ok told => rfl
      | error error =>
        rw [performed] at ended
        cases ended
  rw [is_left]
  refine ⟨by rw [Run.closes, recorded, ended]; rfl, cleaned, ?_, layers⟩
  exact ⟨[], parent, rest, chain, left.trans frames, carries, named, same⟩

/-- One that passes a command with views on top leaves its frame in use. -/
theorem Over.stalls (laid : Over limit above start command entered now)
    (based : start.machine.frames ≠ []) {view : Context I H} {views : List (Context I H)}
    (stack : above = view :: views) (other : view.same entered = false) (fault : Fault) :
    now.closes command entered fault = false ∧
      now.Stalls (now.closed command entered fault) ∧
      ¬ start.CleanedUp command entered (now.closed command entered fault) ∧
      start.Records fault (now.closed command entered fault) := by
  subst stack
  obtain ⟨-, -, ⟨front, frames⟩, parent, rest, chain, tail, carries, named, same⟩ :=
    laid.records based fault
  obtain ⟨failed, stalls, machine⟩ := refused command laid.current other fault
  rw [tail] at frames
  refine ⟨failed, stalls, fun cleaned => ?_, [front], parent, rest, chain, ?_, carries, named, same⟩
  · have below := congrArg List.length same
    have kept := congrArg List.length cleaned.keeps.frames
    rw [machine, frames] at kept
    simp only [List.length_modifyHead, List.length_cons] at below kept
    omega
  · rw [machine]
    exact frames

end Run

/-! ### Programs -/

namespace Program

variable {S α : Type} {command : Command} {ctx entered : Context I H} {run inner left last : Run I H}
  {state state' : S} {fault : Fault}

theorem attempt_ofMachine (operation : MachineM I H α) (run : Run I H) (state : S) :
    (attempt (ofMachine operation) : Program I H S Fault (Except ExecutionError α)) (run, state) =
      .ok (outcomeOf (operation run)).1 ((outcomeOf (operation run)).2, state) := by
  simp only [attempt, ofMachine]
  cases operation run <;> rfl

theorem record_recorded (command : Command) (fault : Fault) (run : Run I H) (state : S) :
    (record command (Machine.exceptionThrown command fault) : Program I H S Fault Unit)
      (run, state) = .ok () (run.recorded command fault, state) := by
  rw [record, bind_apply, attempt_ofMachine, Run.recorded, Call.perform, Call.act, outcomeOf_map]
  cases outcomeOf (Machine.exceptionThrown command fault run) with
  | mk outcome after => cases outcome <;> rfl

/-- What an invocation does whose body fails. -/
theorem invoke_failing {body : Context I H → Program I H S Fault Unit}
    (starts : outcomeOf (Machine.startCommand command ctx run) = (.ok entered, inner))
    (fails : body entered (inner, state) = .error fault (left, state')) :
    invoke command ctx body (run, state) =
      .error fault (left.closed command entered fault, state') := by
  have entering : (raising (Machine.startCommand command ctx) : Program I H S Fault _)
      (run, state) = .ok entered (inner, state) := by
    rw [raising, bind_apply, attempt_ofMachine, starts]
    rfl
  have failing : (attempt (body entered) : Program I H S Fault _) (inner, state) =
      .ok (.error fault) (left, state') := by
    rw [attempt, fails]
  rw [invoke, bind_apply, entering]
  simp only [bind_apply, failing, record_recorded, conclude, attempt_ofMachine]
  unfold Run.closed
  rw [Call.perform, Call.act, outcomeOf_map]
  cases outcomeOf (Machine.endCommand command entered (left.recorded command fault)) with
  | mk outcome after => cases outcome <;> rfl

end Program

/-! ### Sessions -/

/-- An invocation that is under way, and the views of its body's on top of its own context. -/
structure Level (I H : Type) where
  command : Command
  entered : Context I H
  views : List (Context I H)

namespace Level

/-- Which of some invocations, innermost first, have no views on top, and none in those inside. -/
def clear : Bool → List (Level I H) → List Bool
  | _, [] => []
  | inside, level :: outer =>
    (inside && level.views.isEmpty) :: clear (inside && level.views.isEmpty) outer

/-- Which of some invocations, innermost first, are recorded and ended as they pass a fault on. -/
def closing (fault : Fault) : List (Level I H) → Run I H → List Bool
  | [], _ => []
  | level :: outer, run =>
    run.closes level.command level.entered fault ::
      closing fault outer (run.closed level.command level.entered fault)

end Level

namespace Session

/-- Whether a session is inside invocations, innermost first. Their bodies are at the next
invocation, or where they fail: with the stacks as they were entered, and views on top. -/
inductive Inside : List (Level I H) → Session I H → Prop where
  | outermost {s : Session I H} (reached : Reached Knows s) : Inside [] s
  | entered {s t : Session I H} {outer : List (Level I H)} {command : Command}
    {ctx entered : Context I H} {views : List (Context I H)} (inside : Inside outer s)
    (knows : ctx ∈ s.known)
    (starts : ((Call.startCommand command ctx).perform s.run).1 = .ok (some entered))
    (leads : Leads Knows (s.called (.startCommand command ctx)) t)
    (leaves : (s.called (.startCommand command ctx)).run.Leaves views t.run) :
    Inside (⟨command, entered, views⟩ :: outer) t

variable {s : Session I H} {command : Command} {ctx entered : Context I H} {fault : Fault}
  {levels : List (Level I H)} {views : List (Context I H)}

theorem Reached.starting (reached : Reached Knows s) (command : Command) (knows : ctx ∈ s.known) :
    Reached Knows (s.called (.startCommand command ctx)) := by
  have allows : s.Knows (.calls (.startCommand command ctx)) := by
    rintro _ ⟨⟩
    exact knows
  exact reached.leads (Leads.refl.step allows)

namespace Inside

theorem reached (inside : Inside levels s) : Reached Knows s := by
  induction inside with
  | outermost reached => exact reached
  | entered _ knows _ leads _ ih => exact (ih.starting _ knows).leads leads

theorem known (inside : Inside levels s) : ∀ level ∈ levels, level.entered ∈ s.known := by
  induction inside with
  | outermost => nofun
  | entered inside knows starts leads leaves ih =>
    rintro level (_ | ⟨_, member⟩)
    · exact leads.known (told_known starts)
    · exact leads.known (known_after (ih level member) (.calls _))

end Inside

theorem Reached.starts (reached : Reached Knows s)
    (starts : ((Call.startCommand command ctx).perform s.run).1 = .ok (some entered)) :
    s.run.machine.frames ≠ [] ∧ (∃ around, s.run.machine.current = .ok around) ∧
      ∃ mine, Run.Within s.run command entered mine (s.called (.startCommand command ctx)).run := by
  have housed := reached.known_housed
  have effect := Machine.perform_effect s.run (.startCommand command ctx)
  have found : ∃ around, s.run.machine.current = .ok around := by
    cases performed : (Call.startCommand command ctx).perform s.run with
    | mk outcome after =>
      rw [performed] at effect starts
      cases effect with
      | rejected => cases starts
      | unused opens | begun opens => cases opens
      | enteredUnit _ now | entered _ now => exact ⟨_, now⟩
      | left departs | leftUnit departs | tornContext departs | tornTrace departs =>
        cases departs.departure
      | viewLeft unviews => cases unviews
  obtain ⟨around, now⟩ := found
  refine ⟨reached.based (reached.quiet.running_of_current now), ⟨around, now⟩, ?_⟩
  have fits : s.run.Fits around :=
    ⟨now, (housed.handles.houses _ (housed.stacked _ (Machine.current_working now))).layer⟩
  rcases Run.enters effect fits with ⟨-, error, failed⟩ | ⟨told, mine, succeeded, within⟩
  · rw [starts] at failed
    cases failed
  · rw [starts] at succeeded
    cases succeeded
    exact ⟨mine, within⟩

theorem Housed.apart_view (housed : s.Housed) {last : Run I H} (leaves : s.run.Leaves views last)
    {view known : Context I H} (among : view ∈ views) (member : known ∈ s.known) :
    view.same known = false := by
  have later := (leaves.views view among).2
  have below := housed.handles.below known member
  simp only [Context.same, decide_eq_false_iff_not]
  omega

theorem closing_stuck {run : Run I H} {view : Context I H} (current : run.machine.current = .ok view)
    (others : ∀ level ∈ levels, view.same level.entered = false) :
    Level.closing fault levels run = Level.clear false levels := by
  induction levels generalizing run with
  | nil => rfl
  | cons level outer ih =>
    obtain ⟨fails, stalls, -⟩ :=
      Run.refused level.command current (others level List.mem_cons_self) fault
    rw [Level.closing, Level.clear, fails,
      ih (stalls.current.trans current) fun inv member => others inv (List.mem_cons_of_mem _ member)]
    rfl

/-- The invocations that a session is inside are ended as a fault passes, up to the first that left
views. -/
theorem Inside.closing_eq (inside : Inside levels s) {run : Run I H}
    (keeps : s.run.machine.Keeps run.machine) :
    Level.closing fault levels run = Level.clear true levels := by
  induction inside generalizing run with
  | outermost => rfl
  | entered inside knows starts leads leaves ih =>
    rename_i s t outer command ctx entered views
    have reached := inside.reached
    obtain ⟨based, ⟨around, now⟩, mine, within⟩ := reached.starts starts
    have laid := within.over (leaves.keeps.trans keeps) (within.binds.whatever _)
    cases views with
    | nil =>
      obtain ⟨closes, cleaned, -⟩ := laid.closes based now fault
      rw [Level.closing, Level.clear, closes, ih cleaned.keeps]
      rfl
    | cons view rest =>
      have housed := (reached.starting command knows).known_housed
      have apart (known) (member : known ∈ (s.called (.startCommand command ctx)).known) :
          view.same known = false := housed.apart_view leaves List.mem_cons_self member
      obtain ⟨fails, stalls, -⟩ := laid.stalls based rfl (apart _ (told_known starts)) fault
      rw [Level.closing, Level.clear, fails, closing_stuck (stalls.current.trans laid.current)]
      · rfl
      · exact fun level member => apart _ (known_after (inside.known level member) (.calls _))

/-- An invocation returns the fault of its body, whatever the body leaves, and the fault is on the
frame below. The command is cleaned up after just when the body left no views, and otherwise its
frame stays in use with all that is on the stacks. Each invocation around it records a fault that
passes and is ended just when neither its own body left views nor that of one inside it. -/
theorem invocation_cleans_up_iff {outer : List (Level I H)} {inner left : Run I H}
    (inside : Inside outer s) (knows : ctx ∈ s.known)
    (starts : outcomeOf (Machine.startCommand command ctx s.run) = (.ok entered, inner))
    (leaves : inner.Leaves views left) (fault : Fault) :
    (∀ (S : Type) (body : Context I H → Program I H S Fault Unit) (state state' : S),
      body entered (inner, state) = .error fault (left, state') →
        Program.invoke command ctx body (s.run, state) =
          .error fault (left.closed command entered fault, state')) ∧
    s.run.Records fault (left.closed command entered fault) ∧
    (s.run.CleanedUp command entered (left.closed command entered fault) ↔ views = []) ∧
    (views = [] → Layers.Same inner.world.layers.next inner.world.layers left.world.layers →
      Layers.Same s.run.world.layers.next s.run.world.layers
        (left.closed command entered fault).world.layers) ∧
    (views ≠ [] → left.Stalls (left.closed command entered fault)) ∧
    Level.closing fault (⟨command, entered, views⟩ :: outer) left =
      Level.clear true (⟨command, entered, views⟩ :: outer) := by
  have reached := inside.reached
  have performed : (Call.startCommand command ctx).perform s.run = (.ok (some entered), inner) := by
    rw [Call.perform, Call.act, outcomeOf_map, starts]
    rfl
  have is_inner : (s.called (.startCommand command ctx)).run = inner := by
    simp only [called, performed]
  subst is_inner
  have starts' := congrArg Prod.fst performed
  obtain ⟨based, ⟨around, now⟩, mine, within⟩ := reached.starts starts'
  have laid := within.over leaves.keeps (within.binds.whatever left.world.layers)
  refine ⟨fun S body state state' fails => Program.invoke_failing starts fails, ?_⟩
  cases views with
  | nil =>
    obtain ⟨closes, cleaned, records, -⟩ := laid.closes based now fault
    refine ⟨records, iff_of_true cleaned rfl, fun _ layers => ?_, fun some_left => ?_, ?_⟩
    · have binds := within.binds.later layers within.world.nextLayer within.fits.layer
      exact ((within.over leaves.keeps binds).closes based now fault).2.2.2
    · exact absurd rfl some_left
    · rw [Level.closing, Level.clear, closes, inside.closing_eq cleaned.keeps]
      rfl
  | cons view rest =>
    have housed := (reached.starting command knows).known_housed
    have apart (known) (member : known ∈ (s.called (.startCommand command ctx)).known) :
        view.same known = false := housed.apart_view leaves List.mem_cons_self member
    obtain ⟨fails, stalls, not_clean, records⟩ :=
      laid.stalls based rfl (apart _ (told_known starts')) fault
    refine ⟨records, iff_of_false not_clean (List.cons_ne_nil _ _),
      fun none_left => absurd none_left (List.cons_ne_nil _ _), fun _ => stalls, ?_⟩
    rw [Level.closing, Level.clear, fails, closing_stuck (stalls.current.trans laid.current)]
    · rfl
    · exact fun level member => apart _ (known_after (inside.known level member) (.calls _))

/-! ### A body with a view -/

def outerCommand : Command := .named 1 "a"

def withinOuter : Session Unit Unit := startedRun.called (.startCommand outerCommand filterOuter)

theorem withinOuter_inside : Inside [⟨outerCommand, filterOuter, []⟩] withinOuter := by
  have reached : Reached Knows startedRun := ⟨_, _, _, Leads.refl.step nofun⟩
  exact .entered (.outermost reached) List.mem_cons_self rfl .refl ⟨.refl _, List.forall_mem_nil _⟩

def sampleFault : Fault := .mk 0 (.failure (.ofMessage "boom"))

/-- A body that starts a view and fails, and may stop the view before. -/
def failingBody (stops : Bool) (entered : Context Unit Unit) : Program Unit Unit Unit Fault Unit := do
  let view ← Program.raising (Machine.startPointer entered (.int 2))
  if stops then
    let _ ← Program.raising (Machine.stopPointer view)
  throw sampleFault

def enteredUnit : Run Unit Unit := (withinOuter.called (.startCommand sampleUnit filterOuter)).run

def leftBy (stops : Bool) : Run Unit Unit :=
  (outcomeOf (failingBody stops filterOwn (enteredUnit, ()))).2.1

theorem invocation_cleans_up_view_stopped :
    outcomeOf (Machine.startCommand sampleUnit filterOuter withinOuter.run) =
        (.ok filterOwn, enteredUnit) ∧
      enteredUnit.Leaves [] (leftBy true) ∧
      Program.invoke sampleUnit filterOuter (failingBody true) (withinOuter.run, ()) =
        .error sampleFault ((leftBy true).closed sampleUnit filterOwn sampleFault, ()) ∧
      withinOuter.run.CleanedUp sampleUnit filterOwn
        ((leftBy true).closed sampleUnit filterOwn sampleFault) ∧
      Level.closing sampleFault [⟨sampleUnit, filterOwn, []⟩, ⟨outerCommand, filterOuter, []⟩]
        (leftBy true) = [true, true] := by
  have starts : outcomeOf (Machine.startCommand sampleUnit filterOuter withinOuter.run) =
      (.ok filterOwn, enteredUnit) := rfl
  have leaves : enteredUnit.Leaves [] (leftBy true) := ⟨⟨rfl, rfl, rfl, rfl, rfl⟩, List.forall_mem_nil _⟩
  obtain ⟨invokes, -, cleans, -, -, closing⟩ := invocation_cleans_up_iff withinOuter_inside
    (withinOuter_inside.known _ List.mem_cons_self) starts leaves sampleFault
  exact ⟨starts, leaves, invokes Unit _ () () rfl, cleans.mpr rfl, closing⟩

/-- A body that fails within a view leaves the frame and the context of its command in use, and so
it leaves those of the command around it. -/
theorem invocation_abandoned_within_view :
    Inside [⟨outerCommand, filterOuter, []⟩] withinOuter ∧
      outcomeOf (Machine.startCommand sampleUnit filterOuter withinOuter.run) =
        (.ok filterOwn, enteredUnit) ∧
      enteredUnit.Leaves [unitView] (leftBy false) ∧
      ∃ closed, Program.invoke sampleUnit filterOuter (failingBody false) (withinOuter.run, ()) =
          .error sampleFault (closed, ()) ∧
        closed.machine.frames.length = withinOuter.run.machine.frames.length + 1 ∧
        closed.world.isReleased filterOwn = false ∧
        closed.closes outerCommand filterOuter sampleFault = false := by
  refine ⟨withinOuter_inside, rfl, ⟨⟨rfl, rfl, rfl, rfl, rfl⟩, ?_⟩, _, rfl, rfl, rfl, rfl⟩
  rintro view (_ | ⟨_, ⟨⟩⟩)
  exact ⟨rfl, by decide⟩

end Session
end CommandChain
