import CommandChain.Proofs.Machine.Numbering

/-!
How many frames are in use at once. The start of a command looks at the limit before it pushes its
frame and is refused where the limit is reached. The resumption of a filter puts a frame back
without looking. So the limit holds as long as no filter is resumed where it is reached, and each
filter that is resumed there goes beyond it by one frame at most.
-/
namespace CommandChain

variable {I H : Type}

namespace Machine

/-- Whether as many frames are in use as the settings allow. -/
def isFull (m : Machine I H) : Bool := m.settings.maxDepth ≤ m.frames.length

/-- Whether no more frames are in use than the settings allow. -/
def InLimit (m : Machine I H) : Prop := m.frames.length ≤ m.settings.maxDepth

theorem Quiet.current_iff {m : Machine I H} (quiet : m.Quiet) :
    (∃ current, m.current = .ok current) ↔ m.isRunning = true := by
  rw [isRunning, Option.isSome_iff_ne_none]
  constructor
  · rintro ⟨current, now⟩
    exact quiet.running_of_current now
  · intro running
    obtain ⟨global, started⟩ := Option.ne_none_iff_exists'.mp running
    cases contexts : m.contexts with
    | nil => exact ⟨global, by simp only [current, contexts, started]⟩
    | cons top outer => exact ⟨top, current_of_top contexts⟩

end Machine

namespace Event

def resumes (event : Event I H) : Bool :=
  match event.call, event.outcome with
  | .startPostProcess _ _, .ok _ => true
  | _, _ => false

/-- Whether an event resumes a filter where the limit is reached. -/
def overfills (event : Event I H) : Bool := event.resumes && event.before.machine.isFull

theorem resumes_eq_true {event : Event I H} : event.resumes = true ↔
    (∃ command ctx, event.call = .startPostProcess command ctx) ∧
      ∃ told, event.outcome = .ok told := by
  obtain ⟨before, call, outcome, after⟩ := event
  cases call <;> cases outcome <;> simp [resumes]

theorem overfills_eq_true {event : Event I H} :
    event.overfills = true ↔ event.resumes = true ∧
      event.before.machine.settings.maxDepth ≤ event.before.machine.frames.length := by
  simp [overfills, Machine.isFull]

end Event

section

variable {run run' : Run I H} {call : Call I H}
  {outcome : Except ExecutionError (Option (Context I H))}

theorem Effect.deepens (effect : Effect run call outcome run') (quiet : run.machine.Quiet) :
    run'.machine.frames.length ≤ run.machine.frames.length ∨
      run'.machine.frames.length = run.machine.frames.length + 1 ∧
        (run.machine.frames = [] ∨ run.machine.frames.length < run.machine.settings.maxDepth ∨
          (Event.mk run call outcome run').resumes = true) := by
  have departed {command : Command} {ctx : Context I H} {keeps : Bool} {undone : Run I H}
      {frame : Frame I H} {rest : List (Frame I H)}
      (departs : Departs run call command ctx keeps undone frame rest)
      (frames : run'.machine.frames = rest) :
      run'.machine.frames.length ≤ run.machine.frames.length := by
    rw [frames, departs.frames]
    exact Nat.le_succ _
  cases effect with
  | rejected | unused | viewed | viewLeft | viewResumed | handled => exact .inl (Nat.le_refl _)
  | begun opens idle =>
    rw [Machine.isRunning, Option.isSome_eq_false_iff, Option.isNone_iff_eq_none] at idle
    have none_yet : run.machine.frames = [] := by rw [← quiet idle]; rfl
    exact .inr ⟨rfl, .inl none_yet⟩
  | ended => exact .inl (Nat.zero_le _)
  | enteredUnit unit now shallow | entered plain now shallow =>
    exact .inr ⟨by simp, .inr (.inl shallow)⟩
  | left departs | leftUnit departs => exact .inl (departed departs (by simp))
  | tornContext departs | tornTrace departs => exact .inl (departed departs rfl)
  | resumed resumes | resumedUnit resumes =>
    exact .inr ⟨by simp, .inr (.inr rfl)⟩
  | thrown frames =>
    rw [frames]
    exact .inl (Nat.le_refl _)

theorem Effect.resumes_deeper (effect : Effect run call outcome run')
    (resumes : (Event.mk run call outcome run').resumes = true) :
    run'.machine.frames.length = run.machine.frames.length + 1 := by
  obtain ⟨⟨command, ctx, called⟩, told, ended⟩ := Event.resumes_eq_true.mp resumes
  subst called
  cases effect with
  | rejected => cases ended
  | begun opens => cases opens
  | left departs | leftUnit departs => cases departs.departure
  | viewLeft unviews => cases unviews
  | resumed | resumedUnit => simp
  | _ => cases ended

/-- A bound on the frames in use grows by one where a filter is resumed at the limit, and nowhere
else. -/
theorem Effect.within (effect : Effect run call outcome run') (quiet : run.machine.Quiet)
    (roomy : 1 ≤ run.machine.settings.maxDepth) {more : Nat}
    (bound : run.machine.frames.length ≤ run.machine.settings.maxDepth + more) :
    run'.machine.frames.length ≤ run'.machine.settings.maxDepth +
      (more + if (Event.mk run call outcome run').overfills then 1 else 0) := by
  rw [effect.settings]
  rcases effect.deepens quiet with same | ⟨deeper, none_yet | shallow | resumes⟩
  · omega
  · rw [none_yet] at deeper
    have one : run'.machine.frames.length = 1 := deeper
    omega
  · omega
  · by_cases full : run.machine.settings.maxDepth ≤ run.machine.frames.length
    · rw [if_pos (Event.overfills_eq_true.mpr ⟨resumes, full⟩)]
      omega
    · omega

theorem Effect.overfills_beyond (effect : Effect run call outcome run')
    (overfills : (Event.mk run call outcome run').overfills = true) : ¬ run'.machine.InLimit := by
  obtain ⟨resumes, full⟩ := Event.overfills_eq_true.mp overfills
  have deeper := effect.resumes_deeper resumes
  rw [Machine.InLimit, effect.settings]
  have full : run.machine.settings.maxDepth ≤ run.machine.frames.length := full
  omega

end

namespace Machine

section

variable (run : Run I H) (command : Command) (ctx : Context I H)

theorem startCommand_full {current : Context I H} (now : run.machine.current = .ok current)
    (full : run.machine.isFull = true) :
    (Call.startCommand command ctx).perform run =
      (.error (.callDepthExceeded run.machine.settings.maxDepth), run) := by
  have deep : run.machine.settings.maxDepth ≤ run.machine.frames.length := by
    simpa [isFull] using full
  have refused : startCommand command ctx run =
      .error (.callDepthExceeded run.machine.settings.maxDepth) run := by
    unfold startCommand
    simp only [bind_apply, currentContext_ok now, machine_apply, if_pos deep]
    rfl
  rw [Call.perform, Call.act, map_apply, refused]
  rfl

theorem startCommand_shallow {current : Context I H} (now : run.machine.current = .ok current)
    (shallow : run.machine.frames.length < run.machine.settings.maxDepth) {error : ExecutionError}
    (refused : ((Call.startCommand command ctx).perform run).1 = .error error) :
    error = .unregisteredEntry command.name := by
  have effect := perform_effect run (.startCommand command ctx)
  have admissible : ¬ run.Admits (.startCommand command ctx) := by
    generalize ((Call.startCommand command ctx).perform run).1 = outcome at effect refused
    generalize ((Call.startCommand command ctx).perform run).2 = run' at effect
    cases effect with
    | rejected closed => exact closed
    | enteredUnit | entered => cases refused
    | unused opens | begun opens => cases opens
    | left departs | leftUnit departs | tornContext departs | tornTrace departs =>
      cases departs.departure
    | viewLeft unviews => cases unviews
  obtain ⟨plain, elsewhere⟩ : command.registration = none ∧ ctx.same current = false := by
    simpa [Run.Admits, shallow, now, Command.isBoundary] using admissible
  have stops : startCommand command ctx run = .error (.unregisteredEntry command.name) run := by
    unfold startCommand
    simp only [bind_apply, currentContext_ok now, machine_apply, if_neg (Nat.not_le.mpr shallow),
      plain, elsewhere]
    rfl
  rw [Call.perform, Call.act, map_apply, stops] at refused
  cases refused
  rfl

theorem startCommand_exceeds_iff (limit : Nat) :
    ((Call.startCommand command ctx).perform run).1 = .error (.callDepthExceeded limit) ↔
      (∃ current, run.machine.current = .ok current) ∧ run.machine.isFull = true ∧
        limit = run.machine.settings.maxDepth := by
  constructor
  · intro refused
    cases now : run.machine.current with
    | error error =>
      have stopped : error = .notRunning := by
        unfold current at now
        split at now <;> cases now
        rfl
      rw [Call.perform, Call.act, map_apply, startCommand, bind_apply, currentContext_apply, now,
        stopped] at refused
      cases refused
    | ok current =>
      by_cases shallow : run.machine.frames.length < run.machine.settings.maxDepth
      · cases startCommand_shallow run command ctx now shallow refused
      · have full : run.machine.isFull = true := by simpa [isFull] using shallow
        rw [startCommand_full run command ctx now full] at refused
        cases refused
        exact ⟨⟨current, rfl⟩, full, rfl⟩
  · rintro ⟨⟨current, now⟩, full, rfl⟩
    rw [startCommand_full run command ctx now full]

end

end Machine

namespace Session

variable {allowed : Session I H → Interaction I H → Prop} {s : Session I H}

/-- The frames in use go beyond the limit by one at most for each filter that was resumed where it
was reached, and so the limit held throughout just when there was none. -/
theorem Reached.overfilled (reached : Reached allowed s) :
    1 ≤ s.run.machine.settings.maxDepth →
      s.run.machine.frames.length ≤
        s.run.machine.settings.maxDepth + s.history.countP Event.overfills ∧
      ((∀ event ∈ s.history, event.after.machine.InLimit) ↔
        ∀ event ∈ s.history, event.overfills = false) := by
  refine reached.induct (motive := fun s => 1 ≤ s.run.machine.settings.maxDepth →
      s.run.machine.frames.length ≤
        s.run.machine.settings.maxDepth + s.history.countP Event.overfills ∧
      ((∀ event ∈ s.history, event.after.machine.InLimit) ↔
        ∀ event ∈ s.history, event.overfills = false)) ?_ ?_
  · exact fun _ _ _ _ => ⟨Nat.zero_le _, Iff.intro (fun _ _ => nofun) fun _ _ => nofun⟩
  · intro s interaction reached ih _ roomy
    cases interaction with
    | asks request => exact ih roomy
    | calls call =>
      have effect := Machine.perform_effect s.run call
      have settings : (s.called call).run.machine.settings = s.run.machine.settings :=
        effect.settings
      have roomy : 1 ≤ s.run.machine.settings.maxDepth := by rwa [← settings]
      obtain ⟨bound, limit_iff⟩ := ih roomy
      have count : (s.called call).history.countP Event.overfills =
          s.history.countP Event.overfills + if (Event.mk s.run call (call.perform s.run).1
            (call.perform s.run).2).overfills then 1 else 0 := List.countP_cons
      have within : (s.called call).run.machine.frames.length ≤
          (s.called call).run.machine.settings.maxDepth +
            (s.called call).history.countP Event.overfills := by
        rw [count]
        exact effect.within reached.quiet roomy bound
      refine ⟨within, fun inside event member => ?_, fun sparing => ?_⟩
      · rcases List.mem_cons.mp member with rfl | older
        · exact Bool.eq_false_iff.mpr fun overfills =>
            effect.overfills_beyond overfills (inside _ List.mem_cons_self)
        · exact limit_iff.mp (fun event older => inside event (List.mem_cons_of_mem _ older))
            event older
      · have none_over : (s.called call).history.countP Event.overfills = 0 :=
          List.countP_eq_zero.mpr fun event member => Bool.eq_false_iff.mp (sparing event member)
        intro event member
        rcases List.mem_cons.mp member with rfl | older
        · rw [none_over] at within
          exact within
        · exact limit_iff.mpr
            (fun event older => sparing event (List.mem_cons_of_mem _ older)) event older

/-- Throughout a session the frames in use keep to the limit, just when no filter is resumed where
it is reached; each one that is goes beyond it by a frame at most. A command is refused for its
depth exactly where a run is in progress and the limit is reached, and then nothing is done. -/
theorem depth_bounded_iff (reached : Reached allowed s)
    (roomy : 1 ≤ s.run.machine.settings.maxDepth) :
    ((∀ event ∈ s.history, event.after.machine.InLimit) ↔
      ∀ event ∈ s.history, event.overfills = false) ∧
    s.run.machine.frames.length ≤
      s.run.machine.settings.maxDepth + s.history.countP Event.overfills ∧
    ∀ (command : Command) (ctx : Context I H) (limit : Nat),
      (((Call.startCommand command ctx).perform s.run).1 = .error (.callDepthExceeded limit) ↔
        s.run.machine.isRunning = true ∧ s.run.machine.isFull = true ∧
          limit = s.run.machine.settings.maxDepth) ∧
      (s.run.machine.isRunning = true → s.run.machine.isFull = true →
        (Call.startCommand command ctx).perform s.run =
          (.error (.callDepthExceeded s.run.machine.settings.maxDepth), s.run)) := by
  obtain ⟨bound, limit_iff⟩ := reached.overfilled roomy
  refine ⟨limit_iff, bound, fun command ctx limit => ⟨?_, fun running full => ?_⟩⟩
  · rw [Machine.startCommand_exceeds_iff, reached.quiet.current_iff]
  · obtain ⟨current, now⟩ := reached.quiet.current_iff.mpr running
    exact Machine.startCommand_full s.run command ctx now full

/-! ### A filter at the limit -/

def limited : EngineSettings := { EngineSettings.standard with maxDepth := 2 }

def limitedGlobal : Context Unit Unit := ⟨⟨0, 0, .execution, .empty, .int 1, ⟨0, []⟩, true⟩, []⟩

def passingFilter : Command := { Command.named 0 "f" with kind := .filter }

def otherCommand : Command := .named 1 "a"

/-- A filter is suspended, and then more is done in the same context. -/
def limitedRun (last : List (Call Unit Unit)) : List (Interaction Unit Unit) :=
  [.calls (.start (.int 1)), .calls (.startCommand passingFilter limitedGlobal),
    .calls (.endCommand passingFilter limitedGlobal)] ++ last.map .calls

def belowLimit : Session Unit Unit :=
  (fresh .empty limited ()).play (limitedRun [.startPostProcess passingFilter limitedGlobal])

def beyondLimit : Session Unit Unit :=
  (fresh .empty limited ()).play
    (limitedRun [.startCommand otherCommand limitedGlobal,
      .startPostProcess passingFilter limitedGlobal])

theorem depth_bounded_below_limit :
    Reached Knows belowLimit ∧ 1 ≤ belowLimit.run.machine.settings.maxDepth ∧
      belowLimit.run.machine.frames.length = 2 ∧
      (∀ event ∈ belowLimit.history, event.after.machine.InLimit) ∧
      (Call.startCommand otherCommand limitedGlobal).perform belowLimit.run =
        (.error (.callDepthExceeded 2), belowLimit.run) := by
  have reached : Reached Knows belowLimit := by
    refine ⟨_, _, _, Permits.leads ⟨nofun, ?_, ?_, ?_, trivial⟩⟩ <;>
      (rintro ctx ⟨⟩; exact List.mem_cons_self)
  obtain ⟨limit_iff, -, refuses⟩ := depth_bounded_iff reached (by decide)
  have sparing : belowLimit.history.all (!·.overfills) = true := rfl
  exact ⟨reached, by decide, rfl, limit_iff.mpr (by simpa only [List.all_eq_true,
    Bool.not_eq_true'] using sparing), (refuses otherCommand limitedGlobal 2).2 rfl rfl⟩

theorem resumed_beyond_limit :
    Reached Knows beyondLimit ∧ beyondLimit.run.machine.settings.maxDepth = 2 ∧
      beyondLimit.run.machine.frames.length = 3 ∧
      beyondLimit.history.head?.map (·.outcome) = some (.ok (some limitedGlobal)) ∧
      ¬ ∀ event ∈ beyondLimit.history, event.after.machine.InLimit := by
  have reached : Reached Knows beyondLimit := by
    refine ⟨_, _, _, Permits.leads ⟨nofun, ?_, ?_, ?_, ?_, trivial⟩⟩ <;>
      (rintro ctx ⟨⟩; exact List.mem_cons_self)
  refine ⟨reached, rfl, rfl, rfl, fun inside => ?_⟩
  have last : 3 ≤ 2 := inside _ List.mem_cons_self
  exact absurd last (by decide)

end Session
end CommandChain
