import CommandChain.Proofs.Machine.Framing
import CommandChain.Proofs.World.Sparing

/-!
What a call leaves behind that fails. Every call but the end of a run checks before it changes
anything, with one exception: a registered command that leaves takes its frame off before it looks
for its context. It finds one, unless a filter was resumed with a view on top of the contexts that
were suspended and that view was stopped.
-/
namespace CommandChain

variable {I H : Type}

/-- Whether a call is the departure of a registered command that is admitted where no context is
left on the stack. -/
def Run.Tears (run : Run I H) (call : Call I H) : Prop :=
  run.Admits call ∧ run.machine.contexts = [] ∧ ∃ command ctx keeps,
    call.departure = some (command, ctx, keeps) ∧ command.isBoundary = true

theorem Machine.current_ne_error {m : Machine I H} (running : m.global ≠ none)
    (error : ExecutionError) : .error error ≠ m.current.map some := by
  obtain ⟨global, started⟩ := Option.ne_none_iff_exists'.mp running
  cases contexts : m.contexts <;> simp [Machine.current, contexts, started, Except.map]

section

variable {handles : Nat → Command} {run run' : Run I H} {call : Call I H} {error : ExecutionError}

theorem Departs.admits {undone : Run I H} {command : Command} {ctx : Context I H} {keeps : Bool}
    {frame : Frame I H} {rest : List (Frame I H)}
    (departs : Departs run call command ctx keeps undone frame rest) : run.Admits call :=
  (Run.admits_departure departs.departure).mpr
    ⟨departs.here, ⟨frame, rest, departs.frames, departs.own⟩, undone, departs.undoes⟩

/-- A call that fails changes nothing, or it is torn and has taken a frame. -/
theorem Effect.fails (effect : Effect run call (.error error) run')
    (framed : run.machine.Framed handles) (quiet : run.machine.Quiet)
    (genuine : ∀ command ∈ call.command?, handles command.id = command)
    (going : call ≠ .finish) :
    (¬ run.Tears call ∧ run'.machine = run.machine ∧ run.world.Spares run'.world) ∨
      (run.Tears call ∧ error = .emptyStack .contexts ∧
        ∃ frame, run.machine.frames = frame :: run'.machine.frames) := by
  generalize failed : (Except.error error : Except _ (Option (Context I H))) = outcome at effect
  cases effect with
  | rejected refused => exact .inl ⟨fun torn => refused torn.1, rfl, .refl _⟩
  | unused opens =>
    refine .inl ⟨?_, rfl, Call.opening_spares opens⟩
    rintro ⟨-, -, command, ctx, keeps, departure, -⟩
    rcases Call.of_departure departure with ⟨rfl, -⟩ | ⟨rfl, -⟩ <;> cases opens
  | ended => exact absurd rfl going
  | left departs | leftUnit departs =>
    -- Whoever leaves is told where it is then.
    obtain ⟨prefixes, same⟩ := departs.machine
    have running := quiet.running_of_frames departs.frames
    exact absurd failed (Machine.current_ne_error (by simpa [same] using running) error)
  | viewLeft unviews here =>
    obtain ⟨current, now, -⟩ := here
    refine absurd failed (Machine.current_ne_error ?_ error)
    exact quiet.running_of_current now
  | tornContext departs unit contexts =>
    cases failed
    obtain ⟨prefixes, same⟩ := departs.machine
    exact .inr ⟨⟨departs.admits, contexts, _, _, _, departs.departure, unit⟩, rfl, _,
      departs.frames⟩
  | tornTrace departs unit contexts trace => exact absurd trace (departs.traced framed genuine unit)
  | _ => cases failed

end

namespace Session

variable {handles : Nat → Command} {s : Session I H}

/-- A call that fails leaves the machine as it was, and every layer and the released flag of every
table that was there, just when it is not torn. A call that is torn has taken the frame on top, and
none ever is as long as no filter is resumed with a view on top of the contexts that are
suspended. -/
theorem failed_unchanged_iff (reached : Reached (Genuine handles) s) {call : Call I H}
    (genuine : s.Genuine handles (.calls call)) (going : call ≠ .finish) {error : ExecutionError}
    (failed : (call.perform s.run).1 = .error error) :
    ((call.perform s.run).2.machine = s.run.machine ∧
        s.run.world.Spares (call.perform s.run).2.world ↔ ¬ s.run.Tears call) ∧
    (s.run.Tears call → error = .emptyStack .contexts ∧
      ∃ frame, s.run.machine.frames = frame :: (call.perform s.run).2.machine.frames) ∧
    ((∀ event ∈ s.history, event.Unviewed) → ¬ s.run.Tears call) := by
  have effect := Machine.perform_effect s.run call
  rw [failed] at effect
  have framed := reached.framed
  have fails := effect.fails framed reached.quiet genuine.2 going
  refine ⟨⟨?_, ?_⟩, ?_, ?_⟩
  · rintro ⟨same, -⟩ torn
    rcases fails with ⟨whole, -⟩ | ⟨-, -, frame, frames⟩
    · exact whole torn
    · rw [same] at frames
      exact List.cons_ne_self frame _ frames.symm
  · intro whole
    rcases fails with ⟨-, same, spares⟩ | ⟨torn, -⟩
    · exact ⟨same, spares⟩
    · exact absurd torn whole
  · intro torn
    rcases fails with ⟨whole, -⟩ | ⟨-, told, gone⟩
    · exact absurd torn whole
    · exact ⟨told, gone⟩
  · rintro unviewed ⟨admits, contexts, command, ctx, keeps, departure, unit⟩
    obtain ⟨undone, frame, rest, departs, -⟩ := effect.of_departure departure admits
    obtain ⟨own, owns⟩ :=
      Option.isSome_iff_exists.mp ((departs.opened framed genuine.2).trans unit)
    have covered := reached.covered unviewed
    rw [Machine.Covered, departs.framed_outlines, Frame.outline, owns, owned_unit, contexts]
      at covered
    exact Nat.not_succ_le_zero _ covered

/-- A filter is resumed with a view on top, and the view is stopped. -/
def stranded : Session Unit Unit :=
  (fresh .empty .standard ()).play
    (suspending ++ [resumingFrom filterOuter, .calls (.stopPointer filterView)])

theorem reached_stranded : Reached (Genuine fun _ => sampleFilter) stranded := by
  refine reached_suspending ⟨⟨?_, ?_⟩, ⟨?_, nofun⟩, trivial⟩
  case refine_2 =>
    rintro command ⟨⟩
    rfl
  all_goals
    rintro ctx ⟨⟩
    exact List.mem_cons_self

theorem failed_unchanged_stranded :
    (Call.perform (.stopPointer filterOuter) stranded.run).1 =
        .error (.notAPointer .stopPointer) ∧
      (Call.perform (.stopPointer filterOuter) stranded.run).2.machine = stranded.run.machine ∧
      stranded.run.world.Spares (Call.perform (.stopPointer filterOuter) stranded.run).2.world := by
  have genuine : stranded.Genuine (fun _ => sampleFilter) (.calls (.stopPointer filterOuter)) := by
    refine ⟨?_, nofun⟩
    rintro ctx ⟨⟩
    exact List.mem_cons_self
  have same := (failed_unchanged_iff reached_stranded genuine nofun rfl).1
  refine ⟨rfl, same.mpr ?_⟩
  rintro ⟨-, -, command, ctx, keeps, ⟨⟩, -⟩

/-- The filter that was resumed with the view cannot end: it fails and loses its frame. -/
theorem failed_departure_takes_frame :
    Reached (Genuine fun _ => sampleFilter) stranded ∧
      stranded.Genuine (fun _ => sampleFilter) (.calls (.endPostProcess sampleFilter filterOuter)) ∧
      (Call.perform (.endPostProcess sampleFilter filterOuter) stranded.run).1 =
        .error (.emptyStack .contexts) ∧
      stranded.run.machine.frames.length = 2 ∧
      (Call.perform (.endPostProcess sampleFilter filterOuter) stranded.run).2.machine.frames.length
        = 1 := by
  refine ⟨reached_stranded, ⟨?_, ?_⟩, rfl, rfl, rfl⟩
  · rintro ctx ⟨⟩
    exact List.mem_cons_self
  · rintro command ⟨⟩
    rfl

end Session
end CommandChain
