import CommandChain.Proofs.Machine.Framing

/-!
Whose frames are on the stacks. While there is a run its frame is the lowest of those in use, and
there is no other of its kind: a command that ends takes the frame of a command, so what lies below
all of them stays until the run ends. The frames that wait to be resumed are those of filters, if
commands are used by their handles.
-/
namespace CommandChain

variable {I H : Type}

theorem Frame.kind_of_isFor {frame : Frame I H} {command : Command}
    (own : frame.isFor command = true) : ∃ other, frame.kind = .command other := by
  cases kind : frame.kind with
  | global => simp [isFor, kind] at own
  | command other => exact ⟨other, rfl⟩

namespace Machine

def kinds (m : Machine I H) : List FrameKind := m.frames.map (·.kind)

def suspendedKinds (m : Machine I H) : List FrameKind := m.suspendedFrames.map (·.kind)

structure Rooted (waits : Command → Prop) (m : Machine I H) : Prop where
  lowest : m.global ≠ none →
    ∃ commands : List Command, m.kinds = commands.map .command ++ [.global]
  waiting : ∃ commands : List Command, m.suspendedKinds = commands.map .command ∧
    ∀ command ∈ commands, waits command

namespace Rooted

variable {waits : Command → Prop} {m m' : Machine I H}

theorem of_same (rooted : m.Rooted waits) (global : m'.global = m.global)
    (kinds : m'.kinds = m.kinds) (suspended : m'.suspendedKinds = m.suspendedKinds) :
    m'.Rooted waits := by
  refine ⟨fun running => ?_, suspended ▸ rooted.waiting⟩
  rw [kinds]
  exact rooted.lowest (global ▸ running)

theorem stopped (no_run : m.global = none) (none_wait : m.suspendedFrames = []) :
    m.Rooted waits := by
  refine ⟨fun running => absurd no_run running, [], ?_, nofun⟩
  rw [suspendedKinds, none_wait]
  rfl

variable {frame : Frame I H} {rest : List (Frame I H)} {command : Command}

theorem below (rooted : m.Rooted waits) (running : m.global ≠ none)
    (frames : m.frames = frame :: rest) (own : frame.isFor command = true) :
    ∃ commands : List Command, rest.map (·.kind) = commands.map .command ++ [.global] := by
  obtain ⟨other, kind⟩ := Frame.kind_of_isFor own
  obtain ⟨commands, kinds⟩ := rooted.lowest running
  rw [Machine.kinds, frames, List.map_cons, kind] at kinds
  cases commands with
  | nil => cases kinds
  | cons first commands => exact ⟨commands, (List.cons.inj kinds).2⟩

theorem dropped (rooted : m.Rooted waits) (frames : m.frames = frame :: rest)
    (own : frame.isFor command = true) {keeps : Bool}
    (keeping : ∀ other, keeps = true → frame.kind = .command other → waits other) :
    (m.droppedFrame keeps frame rest).Rooted waits := by
  obtain ⟨other, kind⟩ := Frame.kind_of_isFor own
  obtain ⟨commands, suspended, all_wait⟩ := rooted.waiting
  refine ⟨fun running => rooted.below running frames own, ?_⟩
  cases keeps with
  | false => exact ⟨commands, suspended, all_wait⟩
  | true =>
    refine ⟨other :: commands, ?_, ?_⟩
    · rw [suspendedKinds, droppedFrame, if_pos rfl, List.map_cons, kind, ← suspendedKinds,
        suspended]
      rfl
    · intro command member
      rcases List.mem_cons.mp member with rfl | older
      · exact keeping command rfl kind
      · exact all_wait command older

theorem resumed (rooted : m.Rooted waits) (frames : m.suspendedFrames = frame :: rest) :
    (m.resumedFrame frame rest).Rooted waits := by
  obtain ⟨commands, suspended, all_wait⟩ := rooted.waiting
  rw [suspendedKinds, frames, List.map_cons] at suspended
  cases commands with
  | nil => cases suspended
  | cons first commands =>
    obtain ⟨kind, below⟩ := List.cons.inj suspended
    refine ⟨fun running => ?_, commands, below, fun command member => ?_⟩
    · obtain ⟨active, kinds⟩ := rooted.lowest running
      refine ⟨first :: active, ?_⟩
      rw [Machine.kinds, resumedFrame, List.map_cons, kind, ← Machine.kinds, kinds]
      rfl
    · exact all_wait command (List.mem_cons_of_mem _ member)

end Rooted

theorem marked_kinds (m : Machine I H) (ctx : Context I H) : (m.marked ctx).kinds = m.kinds := by
  unfold kinds marked
  split
  · rename_i frames
    rw [frames]
    rfl
  · rfl

theorem thrown_kinds {m : Machine I H} {top parent : Frame I H} {rest : List (Frame I H)}
    (frames : m.frames = top :: parent :: rest) (fault : Fault) :
    (m.thrown fault top parent rest).kinds = m.kinds := by
  rw [kinds, kinds, frames]
  rfl

end Machine

section

variable {run run' : Run I H} {call : Call I H}
  {outcome : Except ExecutionError (Option (Context I H))} {waits : Command → Prop}

/-- What a call does leaves the frame of the run below all others. Of what waits it is enough that a
departure keeps no other frames. -/
theorem Effect.rooted (effect : Effect run call outcome run') (quiet : run.machine.Quiet)
    (keeping : ∀ {command ctx undone frame rest other},
      Departs run call command ctx true undone frame rest → frame.kind = .command other →
        waits other)
    (rooted : run.machine.Rooted waits) : run'.machine.Rooted waits := by
  have departing {command : Command} {ctx : Context I H} {keeps : Bool} {undone : Run I H}
      {frame : Frame I H} {rest : List (Frame I H)}
      (departs : Departs run call command ctx keeps undone frame rest) :
      (undone.machine.droppedFrame keeps frame rest).Rooted waits := by
    obtain ⟨prefixes, same⟩ := departs.machine
    -- The frames are still there when the prefixes of the command are undone.
    have rooted' : undone.machine.Rooted waits := by
      rw [same]
      exact rooted.of_same rfl rfl rfl
    refine rooted'.dropped ?_ departs.own ?_
    · rw [same]
      exact departs.frames
    · rintro other rfl kind
      exact keeping departs kind
  cases effect with
  | rejected | unused => exact rooted
  | begun opens idle =>
    refine ⟨fun _ => ⟨[], ?_⟩, rooted.waiting⟩
    have stopped : run.machine.global = none := by simpa [Machine.isRunning] using idle
    have frames : run.machine.frames = [] := by
      rw [← quiet stopped]
      rfl
    simp [Machine.kinds, frames]
  | ended => exact .stopped rfl rfl
  | @enteredUnit command | @entered command =>
    refine ⟨fun running => ?_, by simpa [Machine.suspendedKinds] using rooted.waiting⟩
    obtain ⟨commands, kinds⟩ := rooted.lowest (by simpa using running)
    refine ⟨command :: commands, ?_⟩
    simpa [Machine.kinds] using kinds
  | left departs | leftUnit departs =>
    refine (departing departs).of_same ?_ ?_ ?_ <;> simp [Machine.kinds, Machine.suspendedKinds]
  | tornContext departs => exact departing departs
  | tornTrace departs => exact (departing departs).of_same rfl rfl rfl
  | resumed resumes | resumedUnit resumes =>
    refine (rooted.resumed resumes.frames).of_same ?_ ?_ ?_
    · simp
    · rw [Machine.kinds, Run.bound_frames, ← Machine.kinds, Machine.marked_kinds]
      simp [Machine.kinds]
    · simp [Machine.suspendedKinds]
  | viewed | viewLeft | viewResumed | handled => exact rooted.of_same rfl rfl rfl
  | thrown frames => exact rooted.of_same rfl (Machine.thrown_kinds frames _) rfl

theorem Departs.filter {undone : Run I H} {command : Command} {ctx : Context I H}
    {frame : Frame I H} {rest : List (Frame I H)}
    (departs : Departs run call command ctx true undone frame rest) : command.isFilter = true := by
  rcases Call.of_departure departs.departure with ⟨-, keeps⟩ | ⟨-, keeps⟩
  · exact keeps.symm
  · cases keeps

end

/-- Whether a frame of the command is taken for that of some filter. -/
def Command.PassesForFilter (command : Command) : Prop :=
  ∃ filter : Command, filter.isFilter = true ∧ command.same filter = true

namespace Session

variable {s : Session I H}

theorem Reached.rooted {allowed : Session I H → Interaction I H → Prop}
    (reached : Reached allowed s) : s.run.machine.Rooted Command.PassesForFilter := by
  refine reached.induct (motive := fun s => s.run.machine.Rooted Command.PassesForFilter) ?_ ?_
  · exact fun _ _ _ => .stopped rfl rfl
  · intro s interaction reached rooted _
    cases interaction with
    | asks request => exact rooted
    | calls call =>
      refine (Machine.perform_effect s.run call).rooted reached.quiet ?_ rooted
      intro command ctx undone frame rest other departs kind
      refine ⟨command, departs.filter, ?_⟩
      simpa [Frame.isFor, kind] using departs.own

/-- Commands that are used by their handles are filters themselves if they wait. -/
theorem Reached.filters_wait {handles : Nat → Command} (reached : Reached (Handled handles) s) :
    s.run.machine.Rooted fun command => command.isFilter = true := by
  refine reached.induct
    (motive := fun s => s.run.machine.Rooted fun command => command.isFilter = true) ?_ ?_
  · exact fun _ _ _ => .stopped rfl rfl
  · intro s interaction reached rooted handled
    cases interaction with
    | asks request => exact rooted
    | calls call =>
      refine (Machine.perform_effect s.run call).rooted reached.quiet ?_ rooted
      intro command ctx undone frame rest other departs kind
      have own := kind_of_own (departs.frame_faithful reached.handled_framed) departs.own
        (handled command departs.command_mem)
      cases kind.symm.trans own
      exact departs.filter

end Session

end CommandChain
