import CommandChain.Proofs.Machine.Session

/-!
The names of exceptions. A machine hands them out one after the other, so what frames carry and what
is marked as handled was named before, and what is recorded next has a name that nothing has yet. No
call but a report of a handled exception marks one.
-/
namespace CommandChain

variable {I H : Type}

namespace Machine

def chains (m : Machine I H) : List RaisedChain :=
  (m.frames ++ m.suspendedFrames).filterMap (·.exception)

/-- Whether all that is recorded or marked was named before. -/
structure Numbered (m : Machine I H) : Prop where
  handled : ∀ id ∈ m.handled, id < m.next
  chains : ∀ chain ∈ m.chains, ∀ raised ∈ chain.all, raised.id < m.next

/-- Whether names were handed out at most, and nothing was marked or set otherwise. -/
structure Later (m m' : Machine I H) : Prop where
  handled : m'.handled = m.handled
  next : m.next ≤ m'.next
  settings : m'.settings = m.settings
  numbered : m.Numbered → m'.Numbered

namespace Later

variable {m middle m' : Machine I H}

theorem refl (m : Machine I H) : m.Later m := ⟨rfl, Nat.le_refl _, rfl, id⟩

theorem trans (first : m.Later middle) (second : middle.Later m') : m.Later m' :=
  ⟨second.handled.trans first.handled, Nat.le_trans first.next second.next,
    second.settings.trans first.settings, fun numbered => second.numbered (first.numbered numbered)⟩

end Later

variable {m : Machine I H}

theorem mem_chains {chain : RaisedChain} :
    chain ∈ m.chains ↔ ∃ frame, (frame ∈ m.frames ∨ frame ∈ m.suspendedFrames) ∧
      frame.exception = some chain := by
  simp only [chains, List.mem_filterMap, List.mem_append]

theorem marked_chains (m : Machine I H) (ctx : Context I H) : (m.marked ctx).chains = m.chains := by
  unfold marked
  split
  · rename_i top rest frames
    rw [chains, chains, frames]
    rfl
  · rfl

theorem recording_cases (m : Machine I H) (top : Frame I H) (fault : Fault) :
    (∃ carried, top.exception = some carried ∧ carried.latest.fault.same fault = true ∧
      passesOn top fault = true ∧ m.recording top fault = carried) ∨
    (∀ carried, top.exception = some carried → carried.latest.fault.same fault = false) ∧
      passesOn top fault = false ∧ m.recording top fault =
        ⟨⟨m.next, fault, m.executionTrace⟩, top.exception.elim [] fun carried =>
          if m.isHandled carried.latest then [] else carried.all⟩ := by
  unfold recording passesOn
  cases carries : top.exception with
  | none => exact .inr ⟨nofun, rfl, rfl⟩
  | some carried =>
    cases same : carried.latest.fault.same fault with
    | true => exact .inl ⟨carried, rfl, same, by simp [same], by simp [same]⟩
    | false =>
      refine .inr ⟨?_, by simp [same], by simp [same]⟩
      rintro _ ⟨⟩
      exact same

end Machine

section

variable {run run' : Run I H} {call : Call I H}
  {outcome : Except ExecutionError (Option (Context I H))}

theorem Effect.settings (effect : Effect run call outcome run') :
    run'.machine.settings = run.machine.settings := by
  cases effect with
  | enteredUnit | entered | resumed | resumedUnit => simp
  | left departs | leftUnit departs | tornContext departs | tornTrace departs =>
    obtain ⟨prefixes, same⟩ := departs.machine
    simp [same]
  | _ => rfl

/-- No call takes back a name, and only the report of a handled exception marks one. -/
theorem Effect.unmarked (effect : Effect run call outcome run')
    (unhandled : ∀ command fault, call ≠ .exceptionHandled command fault) :
    run'.machine.handled = run.machine.handled ∧ run.machine.next ≤ run'.machine.next ∧
      run'.machine.settings = run.machine.settings := by
  have settings := effect.settings
  cases effect with
  | rejected | unused | begun | ended | viewed | viewLeft | viewResumed =>
    exact ⟨rfl, Nat.le_refl _, settings⟩
  | enteredUnit | entered | resumed | resumedUnit => exact ⟨by simp, by simp, settings⟩
  | left departs | leftUnit departs | tornContext departs | tornTrace departs =>
    obtain ⟨prefixes, same⟩ := departs.machine
    exact ⟨by simp [same], by simp [same], settings⟩
  | thrown frames =>
    refine ⟨rfl, ?_, settings⟩
    unfold Machine.thrown
    dsimp only
    split
    · exact Nat.le_refl _
    · exact Nat.le_succ _
  | handled => exact absurd rfl (unhandled _ _)

theorem Effect.chains (effect : Effect run call outcome run') {chain : RaisedChain}
    (member : chain ∈ run'.machine.chains) : chain ∈ run.machine.chains ∨
      ∃ top parent rest fault, run.machine.frames = top :: parent :: rest ∧
        chain = run.machine.recording top fault ∧
        run'.machine = run.machine.thrown fault top parent rest := by
  -- Frames that move between the two stacks take along what they carry.
  have departing {command : Command} {ctx : Context I H} {keeps : Bool} {undone : Run I H}
      {frame : Frame I H} {rest : List (Frame I H)}
      (departs : Departs run call command ctx keeps undone frame rest)
      (frames : run'.machine.frames = rest)
      (suspended : run'.machine.suspendedFrames =
        (undone.machine.droppedFrame keeps frame rest).suspendedFrames) :
      chain ∈ run.machine.chains := by
    obtain ⟨prefixes, same⟩ := departs.machine
    rw [Machine.mem_chains, frames, suspended, same] at member
    obtain ⟨carrier, there, carries⟩ := member
    refine Machine.mem_chains.mpr ⟨carrier, ?_, carries⟩
    rw [departs.frames]
    rcases there with there | there
    · exact .inl (List.mem_cons_of_mem _ there)
    · cases keeps with
      | false => exact .inr there
      | true =>
        rcases List.mem_cons.mp there with rfl | older
        · exact .inl List.mem_cons_self
        · exact .inr older
  have resuming {command : Command} {ctx : Context I H} {frame : Frame I H}
      {rest : List (Frame I H)} (resumes : Resumes run command ctx frame rest)
      (same : run'.machine.chains = (run.machine.resumedFrame frame rest).chains) :
      chain ∈ run.machine.chains := by
    rw [same] at member
    simp only [Machine.mem_chains, Machine.resumedFrame, List.mem_cons, resumes.frames] at member ⊢
    obtain ⟨carrier, (rfl | there) | there, carries⟩ := member
    · exact ⟨_, .inr (.inl rfl), carries⟩
    · exact ⟨_, .inl there, carries⟩
    · exact ⟨_, .inr (.inr there), carries⟩
  cases effect with
  | rejected | unused | viewed | viewLeft | viewResumed | handled => exact .inl member
  | ended => cases member
  | begun | enteredUnit | entered => exact .inl (by simpa [Machine.chains] using member)
  | left departs | leftUnit departs => exact .inl (departing departs (by simp) (by simp))
  | tornContext departs | tornTrace departs => exact .inl (departing departs rfl rfl)
  | resumed resumes | resumedUnit resumes =>
    refine .inl (resuming resumes ?_)
    simp only [Machine.chains, Run.bound_frames, Run.bound_suspendedFrames]
    rw [← Machine.chains, Machine.marked_chains]
    simp [Machine.chains]
  | thrown frames =>
    rename_i command fault top parent rest log own
    obtain ⟨carrier, there, carries⟩ := Machine.mem_chains.mp member
    rcases there with there | there
    · rcases List.mem_cons.mp there with rfl | there
      · exact .inl (Machine.mem_chains.mpr ⟨_, .inl (by rw [frames]; exact .head _), carries⟩)
      · rcases List.mem_cons.mp there with rfl | there
        · cases carries
          exact .inr ⟨top, parent, rest, fault, frames, rfl, rfl⟩
        · exact .inl (Machine.mem_chains.mpr
            ⟨_, .inl (by rw [frames]; exact .tail _ (.tail _ there)), carries⟩)
    · exact .inl (Machine.mem_chains.mpr ⟨_, .inr there, carries⟩)

theorem Machine.Numbered.thrown {m : Machine I H} (numbered : m.Numbered) {top parent : Frame I H}
    {rest : List (Frame I H)} (frames : m.frames = top :: parent :: rest) (fault : Fault) :
    ∀ raised ∈ (m.recording top fault).all, raised.id < (m.thrown fault top parent rest).next := by
  have carrying {carried : RaisedChain} (carries : top.exception = some carried) :
      ∀ raised ∈ carried.all, raised.id < m.next :=
    numbered.chains carried (mem_chains.mpr ⟨top, .inl (by rw [frames]; exact .head _), carries⟩)
  intro raised among
  rcases m.recording_cases top fault with ⟨carried, carries, -, passes, same⟩ | ⟨-, mints, same⟩
  · rw [same] at among
    simpa [Machine.thrown, passes] using carrying carries raised among
  · rw [same] at among
    simp only [Machine.thrown, mints, Bool.false_eq_true, if_false]
    rcases List.mem_cons.mp among with rfl | interrupted
    · exact Nat.lt_succ_self _
    · cases carries : top.exception with
      | none =>
        rw [carries] at interrupted
        cases interrupted
      | some carried =>
        rw [carries] at interrupted
        dsimp only [Option.elim] at interrupted
        split at interrupted
        · cases interrupted
        · exact Nat.lt_succ_of_lt (carrying carries raised interrupted)

theorem Effect.numbered (effect : Effect run call outcome run')
    (numbered : run.machine.Numbered) : run'.machine.Numbered := by
  by_cases marks : ∃ command fault, call = .exceptionHandled command fault
  · obtain ⟨command, fault, rfl⟩ := marks
    cases effect with
    | rejected => exact numbered
    | unused opens | begun opens => cases opens
    | left departs | leftUnit departs | tornContext departs | tornTrace departs =>
      cases departs.departure
    | viewLeft unviews => cases unviews
    | handled frames own recorded =>
      rename_i top parent rest chain log
      have there : chain ∈ run.machine.chains :=
        Machine.mem_chains.mpr ⟨parent, .inl (by rw [frames]; exact .tail _ (.head _)), recorded⟩
      refine ⟨fun id member => ?_, numbered.chains⟩
      rcases List.mem_cons.mp member with rfl | older
      · exact numbered.chains chain there _ List.mem_cons_self
      · exact numbered.handled id older
  · obtain ⟨handled, next, -⟩ :=
      effect.unmarked fun command fault same => marks ⟨command, fault, same⟩
    refine ⟨?_, fun chain member => ?_⟩
    · rw [handled]
      exact fun id member => Nat.lt_of_lt_of_le (numbered.handled id member) next
    · rcases effect.chains member with older | ⟨top, parent, rest, fault, frames, rfl, thrown⟩
      · exact fun raised among =>
          Nat.lt_of_lt_of_le (numbered.chains chain older raised among) next
      · rw [thrown]
        exact numbered.thrown frames fault

theorem Effect.later (effect : Effect run call outcome run')
    (unhandled : ∀ command fault, call ≠ .exceptionHandled command fault) :
    run.machine.Later run'.machine := by
  obtain ⟨handled, next, settings⟩ := effect.unmarked unhandled
  exact ⟨handled, next, settings, effect.numbered⟩

end

theorem Session.Reached.numbered {allowed : Session I H → Interaction I H → Prop} {s : Session I H}
    (reached : Reached allowed s) : s.run.machine.Numbered := by
  refine reached.induct (motive := fun s => s.run.machine.Numbered) ?_ ?_
  · exact fun _ _ _ => ⟨nofun, nofun⟩
  · intro s interaction _ numbered _
    cases interaction with
    | calls call => exact (Machine.perform_effect s.run call).numbered numbered
    | asks request => exact numbered

end CommandChain
