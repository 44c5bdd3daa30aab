import CommandChain.Proofs.FailureReport
import CommandChain.Proofs.Machine.Root
import CommandChain.Proofs.PrefixMirror

/-!
What the trace tells. Each unit in use has one entry, with the place of the command that runs in it
at the moment: the innermost one where it is now, the outer ones where they called. Places are noted
on the entry on top alone, but an entry is on top whenever a command of its unit comes or goes. Only
a call that finds a stack empty leaves the trace and the frames apart.
-/
namespace CommandChain

variable {I H : Type}

def Command.place (unknown : String) (command : Command) : Locator :=
  command.locator.getD ⟨unknown, 0, 0⟩

namespace TraceElement

def moved (here : Locator) (element : TraceElement) : TraceElement :=
  { element with locator := some here }

/-- The units of commands in flight, innermost first, each at the place of the innermost of the
commands that run in it. `above` is that place, if commands of the first unit have been passed. -/
def boundaries (unknown : String) : Option Locator → List Command → List TraceElement
  | _, [] => []
  | above, command :: below =>
    let here := above.getD (command.place unknown)
    match command.registration with
    | some unit => ⟨some unit.systemId, some unit.qname, some here⟩ :: boundaries unknown none below
    | none => boundaries unknown (some here) below

section

variable {unknown : String} {command : Command} {registration : Registration}

theorem boundaries_unit (unit : command.registration = some registration)
    (above : Option Locator) (below : List Command) :
    boundaries unknown above (command :: below) =
      ⟨some registration.systemId, some registration.qname,
        some (above.getD (command.place unknown))⟩ :: boundaries unknown none below := by
  simp only [boundaries, unit]

theorem boundaries_plain (plain : command.registration = none) (above : Option Locator)
    (below : List Command) :
    boundaries unknown above (command :: below) =
      boundaries unknown (some (above.getD (command.place unknown))) below := by
  simp only [boundaries, plain]

theorem boundaries_top (command : Command) (below : List Command) :
    boundaries unknown (some (command.place unknown)) (command :: below) =
      boundaries unknown none (command :: below) := rfl

theorem boundaries_within {within : List Command} (plain : ∀ c ∈ within, c.registration = none)
    (unit : command.registration = some registration) (above : Option Locator)
    (below : List Command) :
    boundaries unknown above (within ++ command :: below) =
      ⟨some registration.systemId, some registration.qname,
        some (above.getD ((within.headD command).place unknown))⟩ ::
          boundaries unknown none below := by
  induction within generalizing above with
  | nil => exact boundaries_unit unit above below
  | cons first within ih =>
    rw [List.cons_append, boundaries_plain (plain first List.mem_cons_self),
      ih fun c member => plain c (List.mem_cons_of_mem _ member)]
    rfl

theorem boundaries_below (unit : command.registration = some registration)
    (inner : List Command) (above : Option Locator) (below : List Command) :
    ∃ first, first.length = ((inner ++ [command]).filterMap (·.registration)).length ∧
      boundaries unknown above (inner ++ command :: below) =
        first ++ boundaries unknown none below := by
  induction inner generalizing above with
  | nil => exact ⟨[_], by simp [unit], boundaries_unit unit above below⟩
  | cons other inner ih =>
    cases registered : other.registration with
    | none =>
      simp only [List.cons_append]
      rw [boundaries_plain registered, List.filterMap_cons_none registered]
      exact ih _
    | some registration =>
      obtain ⟨first, length, eq⟩ := ih none
      simp only [List.cons_append]
      rw [boundaries_unit registered, eq, List.filterMap_cons_some registered]
      exact ⟨_ :: first, congrArg (· + 1) length, rfl⟩

/-- Where the entry of a unit lies, and which place it tells: that of the first of the commands
that run in the unit. -/
theorem boundaries_at {inner within : List Command}
    (closed : ∀ last ∈ inner.getLast?, last.registration ≠ none)
    (plain : ∀ c ∈ within, c.registration = none)
    (unit : command.registration = some registration) (below : List Command) :
    (boundaries unknown none (inner ++ (within ++ command :: below)))[
        (inner.filterMap (·.registration)).length]? =
      some ⟨some registration.systemId, some registration.qname,
        some ((within.headD command).place unknown)⟩ := by
  obtain rfl | ⟨inner, last, rfl⟩ := List.eq_nil_or_concat inner
  · rw [List.nil_append, boundaries_within plain unit]
    rfl
  · rw [List.concat_eq_append] at closed ⊢
    rw [List.getLast?_concat] at closed
    obtain ⟨closing, registered⟩ := Option.ne_none_iff_exists'.mp (closed last rfl)
    obtain ⟨first, length, eq⟩ :=
      boundaries_below registered inner none (within ++ command :: below)
    rw [List.append_assoc, List.singleton_append, eq, boundaries_within plain unit, ← length]
    simp

theorem moved_boundaries (here : Locator) (above : Option Locator) (commands : List Command) :
    (boundaries unknown above commands).modifyHead (moved here) =
      boundaries unknown (some here) commands := by
  induction commands generalizing above with
  | nil => rfl
  | cons command below ih =>
    cases unit : command.registration with
    | some registration => rw [boundaries_unit unit, boundaries_unit unit]; rfl
    | none => rw [boundaries_plain unit, boundaries_plain unit, ih]; rfl

end

end TraceElement

def TraceEntry.registration (entry : TraceEntry) : Registration := ⟨entry.systemId, entry.qname⟩

theorem units_of_boundaries {unknown : String} {above : Option Locator} {trace : List TraceEntry}
    {commands : List Command} (mirrors : trace.map TraceEntry.snapshot =
      TraceElement.boundaries unknown above commands) :
    trace.map TraceEntry.registration = commands.filterMap (·.registration) := by
  induction commands generalizing above trace with
  | nil =>
    rw [TraceElement.boundaries, List.map_eq_nil_iff] at mirrors
    rw [mirrors]
    rfl
  | cons command below ih =>
    cases unit : command.registration with
    | none =>
      rw [TraceElement.boundaries_plain unit] at mirrors
      rw [List.filterMap_cons_none unit, ih mirrors]
    | some registration =>
      rw [TraceElement.boundaries_unit unit] at mirrors
      rw [List.filterMap_cons_some unit]
      cases trace with
      | nil => cases mirrors
      | cons entry entries =>
        injection mirrors with first rest
        injection first with systemId qname
        rw [List.map_cons, ih rest, TraceEntry.registration, Option.some.inj systemId,
          Option.some.inj qname]

namespace Machine

def commands (m : Machine I H) : List Command := m.frames.filterMap Frame.command?

def suspendedCommands (m : Machine I H) : List Command := m.suspendedFrames.filterMap Frame.command?

/-- Whether the frames of commands lie above the frame of the run. -/
def Grounded (m : Machine I H) : Prop :=
  ∃ depth, m.frames.map Frame.command? = m.commands.map some ++ List.replicate depth none

/-- Whether the trace tells the units in use with their places, and the suspended entries are those
of the suspended filters. -/
structure TraceMirrors (m : Machine I H) : Prop where
  active : m.executionTrace = TraceElement.boundaries m.settings.unknownLocation none m.commands
  waiting : m.suspendedTrace.map TraceEntry.registration =
    m.suspendedCommands.filterMap (·.registration)

/-- Whether the trace tells the units in use and their places, but for the place of the first. -/
def Nearly (m : Machine I H) : Prop :=
  ∀ here, m.executionTrace.modifyHead (TraceElement.moved here) =
    TraceElement.boundaries m.settings.unknownLocation (some here) m.commands

section

variable {m : Machine I H} {command : Command} {rest : List Command}

theorem TraceMirrors.nearly (mirrors : m.TraceMirrors) : m.Nearly := by
  intro here
  rw [mirrors.active, TraceElement.moved_boundaries]

/-! What the trace tells when a command comes or goes, before the place on top is noted. -/

variable {m' : Machine I H}

theorem TraceMirrors.enter (mirrors : m.TraceMirrors)
    (settings : m'.settings = m.settings) (plain : command.registration = none)
    (commands : m'.commands = command :: m.commands) (trace : m'.trace = m.trace) : m'.Nearly := by
  intro here
  rw [executionTrace, trace, settings, commands, TraceElement.boundaries_plain plain]
  exact mirrors.nearly here

theorem TraceMirrors.enterUnit (mirrors : m.TraceMirrors)
    (settings : m'.settings = m.settings) {entry : TraceEntry}
    (unit : command.registration = some entry.registration)
    (commands : m'.commands = command :: m.commands) (trace : m'.trace = entry :: m.trace) :
    m'.Nearly := by
  intro here
  rw [executionTrace, trace, settings, commands, TraceElement.boundaries_unit unit,
    ← mirrors.active]
  rfl

theorem TraceMirrors.leave (mirrors : m.TraceMirrors)
    (settings : m'.settings = m.settings) (plain : command.registration = none)
    (commands : m.commands = command :: m'.commands) (trace : m'.trace = m.trace) : m'.Nearly := by
  intro here
  have nearly := mirrors.nearly here
  rw [commands, TraceElement.boundaries_plain plain] at nearly
  rw [executionTrace, trace, settings]
  exact nearly

theorem TraceMirrors.leaveUnit (mirrors : m.TraceMirrors)
    (settings : m'.settings = m.settings) {registration : Registration}
    (unit : command.registration = some registration)
    (commands : m.commands = command :: m'.commands) {entry : TraceEntry}
    (trace : m.trace = entry :: m'.trace) :
    m'.Nearly ∧ entry.registration = registration := by
  have active := mirrors.active
  rw [executionTrace, trace, commands, TraceElement.boundaries_unit unit, List.map_cons] at active
  injection active with first rest
  injection first with systemId qname
  refine ⟨fun here => ?_, ?_⟩
  · rw [executionTrace, rest, settings, TraceElement.moved_boundaries]
  · rw [TraceEntry.registration, Option.some.inj systemId, Option.some.inj qname]

@[simp] theorem located_commands (m : Machine I H) : m.located.commands = m.commands := by
  rw [commands, commands, located_frames]

@[simp] theorem located_suspendedCommands (m : Machine I H) :
    m.located.suspendedCommands = m.suspendedCommands := by
  rw [suspendedCommands, suspendedCommands, located_suspendedFrames]

theorem commands_eq (m : Machine I H) :
    m.commands = (m.frames.map Frame.command?).filterMap id := by
  rw [List.filterMap_map]
  rfl

theorem commands_of_inFlight {m' : Machine I H}
    (inFlight : m'.frames.map Frame.command? = m.frames.map Frame.command?) :
    m'.commands = m.commands := by
  rw [commands_eq, commands_eq, inFlight]

theorem Grounded.of_inFlight {m' : Machine I H} (grounded : m'.Grounded)
    (inFlight : m'.frames.map Frame.command? = m.frames.map Frame.command?) : m.Grounded := by
  rwa [Grounded, inFlight, commands_of_inFlight inFlight] at grounded

theorem marked_inFlight (m : Machine I H) (ctx : Context I H) :
    (m.marked ctx).frames.map Frame.command? = m.frames.map Frame.command? := by
  unfold marked
  split
  · rename_i frames
    rw [frames]
    rfl
  · rfl

theorem thrown_inFlight {top parent : Frame I H} {rest : List (Frame I H)}
    (frames : m.frames = top :: parent :: rest) (fault : Fault) :
    (m.thrown fault top parent rest).frames.map Frame.command? = m.frames.map Frame.command? := by
  rw [frames]
  rfl

theorem Grounded.top (grounded : m.Grounded) :
    m.frames.head?.bind Frame.command? = m.commands.head? := by
  obtain ⟨depth, eq⟩ := grounded
  have top := congrArg List.head? eq
  cases frames : m.frames with
  | nil => simp [commands, frames]
  | cons frame rest =>
    rw [frames] at top
    cases inFlight : m.commands with
    | cons command below =>
      rw [inFlight] at top
      simpa using top
    | nil =>
      rw [inFlight] at top
      cases depth with
      | zero => cases top
      | succ depth => simpa [List.replicate_succ] using top

theorem executionTrace_located (grounded : m.Grounded) (nearly : m.Nearly) :
    m.located.executionTrace =
      TraceElement.boundaries m.settings.unknownLocation none m.commands := by
  cases inFlight : m.commands with
  | nil =>
    have untold : m.trace = [] := by
      simpa [inFlight, executionTrace, TraceElement.boundaries] using nearly default
    simp only [located, untold, executionTrace, List.map_nil, TraceElement.boundaries]
  | cons command below =>
    have top : m.frames.head?.bind Frame.command? = some command := by
      rw [grounded.top, inFlight]
      rfl
    rw [← TraceElement.boundaries_top, ← inFlight, ← nearly]
    cases trace : m.trace with
    | nil => simp only [located, trace, executionTrace, List.map_nil, List.modifyHead_nil]
    | cons entry entries =>
      simp only [located, trace, top, executionTrace, List.map_cons, List.modifyHead_cons]
      rfl

theorem TraceMirrors.of_located (nearly : m.Nearly) (grounded : m'.Grounded)
    (inFlight : m'.frames.map Frame.command? = m.frames.map Frame.command?)
    (settings : m'.settings = m.settings) (trace : m'.trace = m.located.trace)
    (waiting : m'.suspendedTrace.map TraceEntry.registration =
      m'.suspendedCommands.filterMap (·.registration)) : m'.TraceMirrors := by
  refine ⟨?_, waiting⟩
  rw [executionTrace, trace, settings, commands_of_inFlight inFlight]
  exact executionTrace_located (grounded.of_inFlight inFlight) nearly

end

end Machine

section

variable {handles : Nat → Command} {run run' : Run I H} {call : Call I H}
  {outcome : Except ExecutionError (Option (Context I H))}

theorem command_of_kind {frame : Frame I H} {command : Command}
    (kind : frame.kind = .command command) : frame.command? = some command := by
  rw [Frame.command?, kind]

section

variable {undone : Run I H} {command : Command} {ctx : Context I H} {keeps : Bool}
  {frame : Frame I H} {rest : List (Frame I H)}
  (departs : Departs run call command ctx keeps undone frame rest)
  (framed : run.machine.Framed handles)
  (genuine : ∀ command ∈ call.command?, handles command.id = command)
include departs framed genuine

theorem Departs.frame_command : frame.command? = some command :=
  command_of_kind (kind_of_own (departs.frame_faithful framed) departs.own
    (genuine command departs.command_mem))

theorem Departs.commands : run.machine.commands = command :: rest.filterMap Frame.command? := by
  rw [Machine.commands, departs.frames,
    List.filterMap_cons_some (departs.frame_command framed genuine)]

end

/-- What a call does keeps the trace a mirror of the frames, unless it finds a stack empty. -/
theorem Effect.traceMirrors (effect : Effect run call outcome run')
    (framed : run.machine.Framed handles)
    (genuine : ∀ command ∈ call.command?, handles command.id = command)
    (mirrors : run.machine.TraceMirrors) (grounded : run'.machine.Grounded)
    (whole : ∀ kind, outcome ≠ .error (.emptyStack kind)) : run'.machine.TraceMirrors := by
  cases effect with
  | rejected | unused | begun | viewed | viewLeft | viewResumed | handled =>
    exact ⟨mirrors.active, mirrors.waiting⟩
  | ended => exact ⟨rfl, rfl⟩
  | tornContext | tornTrace => exact absurd rfl (whole _)
  | thrown frames =>
    rename_i fault top parent rest log own
    have same := Machine.commands_of_inFlight (Machine.thrown_inFlight frames fault)
    refine ⟨?_, mirrors.waiting⟩
    rw [same]
    exact mirrors.active
  | enteredUnit unit now shallow opens =>
    rename_i command ctx registration current opened world log
    have nearly : (run.machine.pushedUnit command registration opened).Nearly :=
      mirrors.enterUnit rfl unit rfl rfl
    exact .of_located nearly grounded (by simp) (by simp) (by simp)
      (by simpa [Machine.suspendedCommands] using mirrors.waiting)
  | entered plain now shallow same =>
    rename_i command ctx current log
    have nearly : (run.machine.pushed command current).Nearly := mirrors.enter rfl plain rfl rfl
    exact .of_located nearly grounded (by simp) (by simp) (by simp)
      (by simpa [Machine.suspendedCommands] using mirrors.waiting)
  | left departs plain =>
    rename_i command ctx keeps undone frame rest log
    have unregistered : command.registration = none := by simpa [Command.isBoundary] using plain
    have own := departs.frame_command framed genuine
    obtain ⟨prefixes, same⟩ := departs.machine
    have nearly : (undone.machine.droppedFrame keeps frame rest).Nearly :=
      mirrors.leave (by simp [same]) unregistered (departs.commands framed genuine) (by simp [same])
    refine .of_located nearly grounded (by simp) (by simp) rfl ?_
    cases keeps with
    | false => simpa [Machine.suspendedCommands, same] using mirrors.waiting
    | true => simpa [Machine.suspendedCommands, same, own, unregistered] using mirrors.waiting
  | leftUnit departs unit contexts trace =>
    rename_i command ctx keeps undone frame rest top outer entry entries log
    obtain ⟨registration, registered⟩ := Option.isSome_iff_exists.mp unit
    have own := departs.frame_command framed genuine
    obtain ⟨prefixes, same⟩ := departs.machine
    have leaves : (((undone.machine.droppedFrame keeps frame rest).droppedContext keeps top
        outer).droppedTrace keeps entry entries).Nearly ∧ entry.registration = registration := by
      refine mirrors.leaveUnit ?_ registered ?_ ?_
      · simp [same]
      · exact departs.commands framed genuine
      · exact trace
    refine .of_located leaves.1 grounded (by simp) (by simp) rfl ?_
    cases keeps with
    | false => simpa [Machine.suspendedCommands, same] using mirrors.waiting
    | true =>
      simpa [Machine.suspendedCommands, same, own, registered, leaves.2] using mirrors.waiting
  | resumed resumes plain =>
    rename_i command ctx frame rest current log now
    have unregistered : command.registration = none := by simpa [Command.isBoundary] using plain
    have own := command_of_kind (resumes.kind framed (genuine command rfl))
    have nearly : (run.machine.resumedFrame frame rest).Nearly :=
      mirrors.enter rfl unregistered (by simp [Machine.commands, own]) rfl
    have waiting := mirrors.waiting
    rw [Machine.suspendedCommands, resumes.frames] at waiting
    refine .of_located nearly grounded ?_ (by simp) (by simp) ?_
    · simp [Machine.marked_inFlight]
    · simpa [Machine.suspendedCommands, own, unregistered] using waiting
  | resumedUnit resumes unit contexts trace =>
    rename_i command ctx frame rest top outer entry entries log
    obtain ⟨registration, registered⟩ := Option.isSome_iff_exists.mp unit
    have own := command_of_kind (resumes.kind framed (genuine command rfl))
    have waiting := mirrors.waiting
    rw [Machine.suspendedCommands, resumes.frames, List.filterMap_cons_some own, trace,
      List.filterMap_cons_some registered] at waiting
    injection waiting with first waiting
    have nearly : (((run.machine.resumedFrame frame rest).resumedContext top outer).resumedTrace
        entry entries).Nearly :=
      mirrors.enterUnit rfl (first ▸ registered) (by simp [Machine.commands, own]) rfl
    refine .of_located nearly grounded ?_ (by simp) (by simp) ?_
    · simp [Machine.marked_inFlight]
    · simpa [Machine.suspendedCommands] using waiting

/-! ### Frames of commands above the frame of the run -/

def FrameKind.command? : FrameKind → Option Command
  | .global => none
  | .command own => some own

theorem Machine.inFlight_eq (m : Machine I H) :
    m.frames.map Frame.command? = m.kinds.map FrameKind.command? := by
  rw [kinds, List.map_map]
  refine List.map_congr_left fun frame _ => ?_
  obtain ⟨kind, _, _, _⟩ := frame
  cases kind <;> rfl

theorem Machine.Rooted.grounded {m : Machine I H} {waits : Command → Prop}
    (rooted : m.Rooted waits) (quiet : m.Quiet) : m.Grounded := by
  by_cases running : m.global = none
  · rw [← quiet running]
    exact ⟨0, rfl⟩
  · obtain ⟨commands, kinds⟩ := rooted.lowest running
    have inFlight : m.frames.map Frame.command? = commands.map some ++ [none] := by
      rw [inFlight_eq, kinds, List.map_append, List.map_map]
      rfl
    refine ⟨1, ?_⟩
    rw [commands_eq, inFlight]
    simp

theorem Effect.idle (effect : Effect run call outcome run')
    (begins : (Event.mk run call outcome run').begins = true) :
    run.machine.isRunning = false := by
  have opening : (∃ told, outcome = .ok told) ∧ (call.opening run).isSome = true ∧
      call.departure = none ∧ call.unviewing = none := by
    unfold Event.begins at begins
    split at begins <;> simp_all [Call.opening, Call.departure, Call.unviewing]
  obtain ⟨⟨told, ended⟩, opens, stays, keeps⟩ := opening
  cases effect with
  | begun _ idle => exact idle
  | rejected | unused | tornContext | tornTrace => cases ended
  | left departs | leftUnit departs => cases stays.symm.trans departs.departure
  | viewLeft unviews => cases keeps.symm.trans unviews
  | _ => cases opens

end

namespace Session

/-- The events of the run that was begun last, from its begin on. -/
def sinceBegin : List (Event I H) → List (Event I H)
  | [] => []
  | event :: older => if event.begins then [event] else event :: sinceBegin older

variable {handles : Nat → Command} {s : Session I H}

theorem Reached.grounded (reached : Reached (Genuine handles) s) : s.run.machine.Grounded :=
  reached.rooted.grounded reached.quiet

theorem Reached.traceMirrors (reached : Reached (Genuine handles) s)
    (whole : ∀ event ∈ sinceBegin s.history, ∀ kind, event.outcome ≠ .error (.emptyStack kind)) :
    s.run.machine.TraceMirrors := by
  revert whole
  refine reached.induct
    (motive := fun s => (∀ event ∈ sinceBegin s.history, ∀ kind,
      event.outcome ≠ .error (.emptyStack kind)) → s.run.machine.TraceMirrors) ?_ ?_
  · exact fun _ _ _ _ => ⟨rfl, rfl⟩
  · intro s interaction reached ih genuine whole
    cases interaction with
    | asks request => exact ih whole
    | calls call =>
      let event : Event I H := ⟨s.run, call, (call.perform s.run).1, (call.perform s.run).2⟩
      have effect := Machine.perform_effect s.run call
      have after : (s.called call).run.machine.Grounded :=
        (reached.leads (.step .refl genuine)).grounded
      have since : sinceBegin (s.called call).history =
        if event.begins then [event] else event :: sinceBegin s.history := rfl
      have latest : event ∈ sinceBegin (s.called call).history := by
        rw [since]
        split <;> exact List.mem_cons_self
      refine effect.traceMirrors reached.framed genuine.2 ?_ after (whole event latest)
      by_cases begins : event.begins = true
      · have stopped : s.run.machine.global = none := by
          simpa [Machine.isRunning] using effect.idle begins
        rw [← reached.quiet stopped]
        exact ⟨rfl, rfl⟩
      · refine ih fun older member => whole older ?_
        change older ∈ sinceBegin (s.called call).history
        rw [since, if_neg begins]
        exact List.mem_cons_of_mem _ member

/-- While no call has found a stack empty since the run was begun, the trace has one entry for each
frame of a registered command in use, in their order, and the suspended trace one for each such
frame that is suspended. The entry of a unit is at the place of the first frame at or above its own
and below that of the next unit. -/
theorem trace_tells (reached : Reached (Genuine handles) s)
    (whole : ∀ event ∈ sinceBegin s.history, ∀ kind, event.outcome ≠ .error (.emptyStack kind)) :
    s.run.machine.trace.map TraceEntry.registration =
        s.run.machine.commands.filterMap (·.registration) ∧
      s.run.machine.suspendedTrace.map TraceEntry.registration =
        s.run.machine.suspendedCommands.filterMap (·.registration) ∧
      ∀ (inner within : List Command) (unit : Command) (outer : List Command)
        (registration : Registration),
        s.run.machine.commands = inner ++ (within ++ unit :: outer) →
        (∀ last ∈ inner.getLast?, last.registration ≠ none) →
        (∀ command ∈ within, command.registration = none) →
        unit.registration = some registration →
        s.run.machine.executionTrace[(inner.filterMap (·.registration)).length]? =
          some ⟨some registration.systemId, some registration.qname,
            some ((within.headD unit).place s.run.machine.settings.unknownLocation)⟩ := by
  obtain ⟨active, waiting⟩ := reached.traceMirrors whole
  refine ⟨units_of_boundaries active, waiting, ?_⟩
  intro inner within unit outer registration commands closed plain registered
  rw [active, commands]
  exact TraceElement.boundaries_at closed plain registered outer

/-! ### A unit that calls another while a filter waits -/

def callingUnit : Command :=
  ⟨1, "a", .plain, some ⟨"a.xml", .plain "a"⟩, some ⟨"a.xml", 1, 1⟩, none⟩

def callSite : Command := ⟨2, "call", .plain, none, some ⟨"a.xml", 5, 2⟩, none⟩

/-- It does not tell where it stands. -/
def calledUnit : Command := ⟨3, "b", .plain, some ⟨"b.xml", .plain "b"⟩, none, none⟩

def callingOwn : Context Unit Unit :=
  ⟨⟨2, 2, .chain, .empty, .int 1, ⟨2, [0]⟩, true⟩, [filterOuter.node]⟩

def callHandles : Nat → Command
  | 0 => sampleFilter
  | 1 => callingUnit
  | 2 => callSite
  | _ => calledUnit

def calling : Session Unit Unit :=
  (fresh .empty .standard ()).play
    [.calls (.start (.int 1)), .calls (.startCommand sampleFilter filterOuter),
      .calls (.endCommand sampleFilter filterOwn), .calls (.startCommand callingUnit filterOuter),
      .calls (.startCommand callSite callingOwn), .calls (.startCommand calledUnit callingOwn)]

theorem trace_tells_calling :
    Reached (Genuine callHandles) calling ∧
      (∀ event ∈ sinceBegin calling.history, ∀ kind,
        event.outcome ≠ .error (.emptyStack kind)) ∧
      calling.run.machine.suspendedTrace.map TraceEntry.registration =
        [⟨"f.xml", ⟨"urn:sample", "f"⟩⟩] ∧
      calling.run.machine.executionTrace[0]? =
        some ⟨some "b.xml", some (.plain "b"), some ⟨"UNKNOWN_LOCATION", 0, 0⟩⟩ ∧
      calling.run.machine.executionTrace[1]? =
        some ⟨some "a.xml", some (.plain "a"), some ⟨"a.xml", 5, 2⟩⟩ := by
  have reached : Reached (Genuine callHandles) calling := by
    -- Each call is about the context that was told last.
    refine ⟨_, _, _, Permits.leads ⟨⟨nofun, nofun⟩, ⟨?_, ?_⟩, ⟨?_, ?_⟩, ⟨?_, ?_⟩, ⟨?_, ?_⟩,
      ⟨?_, ?_⟩, trivial⟩⟩
    case refine_1 | refine_3 | refine_5 | refine_7 | refine_9 =>
      rintro ctx ⟨⟩
      exact List.mem_cons_self
    all_goals
      rintro command ⟨⟩
      rfl
  have whole : ∀ event ∈ sinceBegin calling.history, ∀ kind,
      event.outcome ≠ .error (.emptyStack kind) := by
    have ended : ∀ event ∈ sinceBegin calling.history, ∃ told, event.outcome = .ok told := by
      rintro event (_ | ⟨_, _ | ⟨_, _ | ⟨_, _ | ⟨_, _ | ⟨_, _ | ⟨_, ⟨⟩⟩⟩⟩⟩⟩⟩)
      all_goals exact ⟨_, rfl⟩
    intro event member kind failed
    obtain ⟨told, ended⟩ := ended event member
    cases ended.symm.trans failed
  obtain ⟨-, waiting, at_place⟩ := trace_tells reached whole
  refine ⟨reached, whole, waiting, ?_, ?_⟩
  · exact at_place [] [] calledUnit [callSite, callingUnit] _ rfl nofun nofun rfl
  · refine at_place [calledUnit] [callSite] callingUnit [] _ rfl ?_ ?_ rfl
    · rintro last ⟨⟩
      nofun
    · rintro command (_ | ⟨_, ⟨⟩⟩)
      rfl

end Session
end CommandChain
