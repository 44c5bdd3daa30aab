import CommandChain.Proofs.Machine.Framing
import CommandChain.Proofs.Machine.Restoration
import CommandChain.Proofs.World.Sparing

/-!
How the frames in use come and go, and the prefixes with them. A call that succeeds to enter a
command puts one frame on top, with the context that it tells, and binds the prefixes of the command
there; an admitted departure takes one frame off, also if it fails after that, and has undone the
prefixes of its command by then. No other call but the begin and the end of a run adds a frame,
takes one or touches a prefix.
-/
namespace CommandChain

variable {I H : Type}

def Frame.entry (frame : Frame I H) : FrameKind × Context I H := (frame.kind, frame.context)

def Machine.entries (m : Machine I H) : List (FrameKind × Context I H) := m.frames.map Frame.entry

theorem Machine.entries_length (m : Machine I H) : m.entries.length = m.frames.length :=
  List.length_map _

inductive Event.Passage (event : Event I H) : Prop where
  | stays (entries : event.after.machine.entries = event.before.machine.entries)
    (prefixes : event.after.machine.prefixes = event.before.machine.prefixes)
    (layers : event.before.world.layers.Grows event.after.world.layers)
  | begins (global : Context I H) (idle : event.before.machine.isRunning = false)
    (tells : event.outcome = .ok (some global)) (now : event.after.machine.current = .ok global)
    (entries : event.after.machine.entries = (.global, global) :: event.before.machine.entries)
    (prefixes : event.after.machine.prefixes = event.before.machine.prefixes)
    (layers : event.before.world.layers.Grows event.after.world.layers)
  | ends (entries : event.after.machine.entries = []) (prefixes : event.after.machine.prefixes = [])
    (layers : event.after.world.layers = event.before.world.layers)
  | enters (command : Command) (told : Context I H) (middle : Run I H)
    (named : command ∈ event.call.command?) (tells : event.outcome = .ok (some told))
    (now : event.after.machine.current = .ok told)
    (entries : event.after.machine.entries =
      (.command command, told) :: event.before.machine.entries)
    (prefixes : middle.machine.prefixes = event.before.machine.prefixes)
    (layers : event.before.world.layers.Grows middle.world.layers)
    (inside : told.namespaces.layer < middle.world.layers.next)
    (unspoken : event.before.world.layers.Tidy → middle.world.layers.get told.namespaces.layer =
      event.before.world.layers.get told.namespaces.layer)
    (binds : event.after = middle.bound told command)
  | leaves (command : Command) (ctx entered : Context I H) (undone : Run I H)
    (named : command ∈ event.call.command?)
    (undoes : event.before.unbound ctx command = .ok undone)
    (entries : event.before.machine.entries =
      (.command command, entered) :: event.after.machine.entries)
    (prefixes : event.after.machine.prefixes = undone.machine.prefixes)
    (layers : event.after.world.layers = undone.world.layers)

section

variable {handles : Nat → Command} {run run' : Run I H} {call : Call I H}
  {outcome : Except ExecutionError (Option (Context I H))}

theorem Machine.marked_entries {m : Machine I H} {frame : Frame I H} {rest : List (Frame I H)}
    (frames : m.frames = frame :: rest) (ctx : Context I H) :
    (m.marked ctx).entries = (frame.kind, ctx) :: rest.map Frame.entry := by
  simp only [entries, marked, frames, List.map_cons, Frame.entry]

theorem Machine.thrown_entries {m : Machine I H} {top parent : Frame I H} {rest : List (Frame I H)}
    (frames : m.frames = top :: parent :: rest) (fault : Fault) :
    (m.thrown fault top parent rest).entries = m.entries := by
  rw [entries, entries, frames]
  rfl

theorem Event.Passage.of_departure {event : Event I H} {undone : Run I H} {command : Command}
    {ctx : Context I H} {keeps : Bool} {frame : Frame I H} {rest : List (Frame I H)}
    (departs : Departs event.before event.call command ctx keeps undone frame rest)
    (framed : event.before.machine.Framed handles)
    (genuine : ∀ command ∈ event.call.command?, handles command.id = command)
    (frames : event.after.machine.frames = rest)
    (prefixes : event.after.machine.prefixes = undone.machine.prefixes)
    (layers : event.after.world.layers = undone.world.layers) : event.Passage := by
  have kind := kind_of_own (departs.frame_faithful framed) departs.own
    (genuine command departs.command_mem)
  refine .leaves command ctx frame.context undone departs.command_mem departs.undoes ?_ prefixes
    layers
  rw [Machine.entries, departs.frames, Machine.entries, frames, ← kind]
  rfl

theorem Resumes.kind {command : Command} {ctx : Context I H} {frame : Frame I H}
    {rest : List (Frame I H)} (resumes : Resumes run command ctx frame rest)
    (framed : run.machine.Framed handles) (genuine : handles command.id = command) :
    frame.kind = .command command :=
  kind_of_own (resumes.frame_faithful framed) resumes.own genuine

theorem Effect.passage (effect : Effect run call outcome run')
    (framed : run.machine.Framed handles) (quiet : run.machine.Quiet)
    (genuine : ∀ command ∈ call.command?, handles command.id = command)
    (inside : ∀ ctx ∈ run.machine.working, run.world.Houses ctx) :
    (Event.mk run call outcome run').Passage := by
  have here {current : Context I H} (now : run.machine.current = .ok current) :
      current.namespaces.layer < run.world.layers.next :=
    (inside current (Machine.current_working now)).layer
  cases effect with
  | rejected => exact .stays rfl rfl (.refl _)
  | unused opens => exact .stays rfl rfl (Call.opening_spares opens).layers
  | begun opens idle =>
    rename_i global world log
    have stopped : run.machine.global = none := by simpa [Machine.isRunning] using idle
    have contexts : run.machine.contexts = [] := by
      rw [← quiet stopped]
      rfl
    refine .begins global idle rfl ?_ rfl rfl (Call.opening_spares opens).layers
    simp [Machine.current, contexts]
  | ended =>
    refine .ends rfl rfl ?_
    exact (World.layers_endContext _ _).trans (World.layers_endContexts _ _)
  | enteredUnit unit now shallow opens =>
    rename_i command ctx registration current own world log
    obtain ⟨layers, -, -, place, -⟩ := World.openChild_adds opens
    refine .enters command own ⟨(run.machine.pushedUnit command registration own).located,
      world.logged log⟩ rfl rfl ?_ ?_ ?_ (World.Spares.openChild opens).layers ?_ ?_ rfl
    · simp [Machine.current]
    · simp [Machine.entries, Frame.entry]
    · simp
    · change own.namespaces.layer < world.layers.next
      rw [place, layers]
      exact Nat.lt_succ_self _
    · intro tidy
      change world.layers.get own.namespaces.layer = _
      rw [place, layers, tidy.unborn _ (Nat.le_refl _)]
      exact Store.get_add_self run.world.layers []
  | entered plain now =>
    rename_i command ctx current log shallow same
    refine .enters command current ⟨(run.machine.pushed command current).located,
      run.world.logged log⟩ rfl rfl ?_ ?_ ?_ (.refl _) (here now) (fun _ => rfl) rfl
    · unfold Machine.current at now ⊢
      simpa using now
    · simp [Machine.entries, Frame.entry]
    · simp
  | left departs plain =>
    refine .of_departure departs framed genuine ?_ ?_ rfl
    · simp
    · simp
  | leftUnit departs unit contexts trace =>
    rename_i command ctx keeps undone frame rest top outer entry entries log
    refine .of_departure departs framed genuine ?_ ?_ ?_
    · simp
    · simp
    · cases keeps with
      | true => rfl
      | false => exact World.layers_endContext undone.world top
  | tornContext departs => exact .of_departure departs framed genuine rfl rfl rfl
  | tornTrace departs unit contexts trace => exact absurd trace (departs.traced framed genuine unit)
  | resumed resumes plain now =>
    rename_i command ctx frame rest current log
    have kind := resumes.kind framed (genuine command rfl)
    refine .enters command current ⟨((run.machine.resumedFrame frame rest).located).marked current,
      run.world.logged log⟩ rfl rfl ?_ ?_ ?_ (.refl _) (here now) (fun _ => rfl) rfl
    · unfold Machine.current at now ⊢
      simpa using now
    · rw [Machine.entries, Run.bound_frames, ← kind]
      exact Machine.marked_entries (Machine.located_frames _) current
    · simp
  | resumedUnit resumes unit contexts trace =>
    rename_i command ctx frame rest top outer entry entries log
    have kind := resumes.kind framed (genuine command rfl)
    have waiting : top ∈ run.machine.working := by simp [Machine.working, contexts]
    refine .enters command top ⟨((((run.machine.resumedFrame frame rest).resumedContext top
      outer).resumedTrace entry entries).located).marked top, run.world.logged log⟩ rfl rfl ?_ ?_ ?_
      (.refl _) (inside top waiting).layer (fun _ => rfl) rfl
    · simp [Machine.current]
    · rw [Machine.entries, Run.bound_frames, ← kind]
      exact Machine.marked_entries (Machine.located_frames _) top
    · simp
  | viewed here opens =>
    rename_i ctx subject view world
    have spares := World.Spares.openView run.world ctx subject
    rw [opens] at spares
    exact .stays rfl rfl spares.layers
  | viewLeft =>
    rename_i ctx keeps top outer _ _ _ _
    refine .stays rfl rfl ?_
    cases keeps with
    | true => exact .refl _
    | false => exact .of_get (by simp [World.layers_endContext]) (by simp [World.layers_endContext])
  | viewResumed | handled => exact .stays rfl rfl (.refl _)
  | thrown frames => exact .stays (Machine.thrown_entries frames _) rfl (.refl _)

end
end CommandChain
