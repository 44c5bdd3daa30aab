import CommandChain.Proofs.Machine.Session

/-!
What the end of a run reports. The exception on the frame of the run is the one that was recorded
last directly above it, and what is marked as handled is what was found below the commands that
reported it: a mark goes by the exception found there, not by the fault named with it. So a run
fails with a fault exactly when its last record there is of that fault and is not marked.
-/
namespace CommandChain

variable {I H : Type}

namespace Event

def begins (event : Event I H) : Bool :=
  match event.call, event.outcome with
  | .start _, .ok _ | .startWithin _, .ok _ => true
  | _, _ => false

/-- The fault that an event raises directly above the frame of the run, and what is recorded for it
there. -/
def record? (event : Event I H) : Option (Fault × RaisedChain) :=
  match event.call, event.outcome, event.before.machine.frames with
  | .exceptionThrown _ fault, .ok _, [top, _] =>
    some (fault, event.before.machine.recording top fault)
  | _, _, _ => none

/-- The exception that an event marks as handled: the one found below the command on top. -/
def mark? (event : Event I H) : Option Nat :=
  match event.call, event.outcome, event.before.machine.frames with
  | .exceptionHandled _ _, .ok _, _ :: parent :: _ => parent.exception.map (·.latest.id)
  | _, _, _ => none

def reported? (event : Event I H) : Option Fault :=
  match event.call, event.outcome with
  | .exceptionHandled _ fault, .ok _ => some fault
  | _, _ => none

end Event

namespace Session

/-- What was last recorded on the frame of the run since it began. -/
def lastRecord : List (Event I H) → Option (Fault × RaisedChain)
  | [] => none
  | event :: older => if event.begins then none else event.record?.or (lastRecord older)

def marks (history : List (Event I H)) : List Nat := history.filterMap Event.mark?

end Session

/-! ### The frame of the run -/

/-- Whether the lowest frame is no command's and carries an exception, or none. -/
def Rests (frames : List (Frame I H)) (exception : Option RaisedChain) : Prop :=
  ∃ bottom, frames.getLast? = some bottom ∧ bottom.command? = none ∧ bottom.exception = exception

namespace Rests

variable {frames rest : List (Frame I H)} {frame : Frame I H} {exception : Option RaisedChain}

theorem push (rests : Rests frames exception) (frame : Frame I H) :
    Rests (frame :: frames) exception := by
  obtain ⟨bottom, last, plain, carries⟩ := rests
  have some_below : frames ≠ [] := by
    intro none_below
    simp [none_below] at last
  exact ⟨bottom, by rw [List.getLast?_cons_of_ne_nil some_below, last], plain, carries⟩

theorem below (rests : Rests (frame :: rest) exception) {command : Command}
    (own : frame.isFor command = true) : Rests rest exception := by
  obtain ⟨bottom, last, plain, carries⟩ := rests
  cases rest with
  | nil =>
    have same : frame = bottom := by simpa using last
    subst same
    obtain ⟨kind, _, _, _⟩ := frame
    cases kind with
    | global => cases own
    | command other => cases plain
  | cons next rest => exact ⟨bottom, by rwa [List.getLast?_cons_cons] at last, plain, carries⟩

theorem exception_eq (rests : Rests frames exception) :
    frames.getLast?.bind (·.exception) = exception := by
  obtain ⟨bottom, last, -, carries⟩ := rests
  rw [last]
  exact carries

theorem marked {m : Machine I H} (rests : Rests m.frames exception) (ctx : Context I H) :
    Rests (m.marked ctx).frames exception := by
  obtain ⟨bottom, last, plain, carries⟩ := rests
  unfold Machine.marked
  cases frames : m.frames with
  | nil => simp [frames] at last
  | cons top rest =>
    rw [frames] at last
    cases rest with
    | nil =>
      have same : top = bottom := by simpa using last
      subst same
      exact ⟨_, rfl, plain, carries⟩
    | cons next rest => exact ⟨bottom, by simpa using last, plain, carries⟩

end Rests

/-! ### What the history says of the machine -/

/-- That the history tells what the frame of the run carries and what is marked. -/
structure Reports (m : Machine I H) (history : List (Event I H)) : Prop where
  rests : m.global ≠ none → Rests m.frames ((Session.lastRecord history).map Prod.snd)
  named : ∀ fault chain, Session.lastRecord history = some (fault, chain) →
    chain.latest.fault.same fault = true
  marked : m.handled = Session.marks history

namespace Reports

variable {m m' : Machine I H} {history : List (Event I H)}

/-- An event that begins no run, records nothing on its frame and marks nothing. -/
theorem quiet (reports : Reports m history) {event : Event I H}
    (silent : event.begins = false ∧ event.record? = none ∧ event.mark? = none)
    (same_marks : m'.handled = m.handled) (running : m.global ≠ none)
    (rests : ∀ exception, Rests m.frames exception → Rests m'.frames exception) :
    Reports m' (event :: history) := by
  obtain ⟨goes_on, no_record, no_mark⟩ := silent
  have same_record : Session.lastRecord (event :: history) = Session.lastRecord history := by
    simp [Session.lastRecord, goes_on, no_record]
  refine ⟨fun _ => ?_, ?_, ?_⟩
  · rw [same_record]
    exact rests _ (reports.rests running)
  · rw [same_record]
    exact reports.named
  · rw [same_marks, reports.marked, Session.marks, Session.marks,
      List.filterMap_cons_none no_mark]

theorem failing (reports : Reports m history) {before after : Run I H} {call : Call I H}
    {error : ExecutionError} : Reports m (⟨before, call, .error error, after⟩ :: history) := by
  obtain ⟨rests, named, marked⟩ := reports
  cases call <;> exact ⟨rests, named, marked⟩

end Reports

/-- Calls that neither begin a run nor record or mark an exception. -/
def Call.Plain : Call I H → Prop
  | .start _ | .startWithin _ | .exceptionThrown _ _ | .exceptionHandled _ _ => False
  | _ => True

theorem Call.Plain.silent {call : Call I H} (plain : call.Plain) (before after : Run I H)
    (outcome : Except ExecutionError (Option (Context I H))) :
    (⟨before, call, outcome, after⟩ : Event I H).begins = false ∧
      (⟨before, call, outcome, after⟩ : Event I H).record? = none ∧
      (⟨before, call, outcome, after⟩ : Event I H).mark? = none := by
  cases call <;> first | exact plain.elim | exact ⟨rfl, rfl, rfl⟩

theorem Departs.plain {run undone : Run I H} {call : Call I H} {command : Command}
    {ctx : Context I H} {keeps : Bool} {frame : Frame I H} {rest : List (Frame I H)}
    (departs : Departs run call command ctx keeps undone frame rest) : call.Plain := by
  rcases Call.of_departure departs.departure with ⟨rfl, -⟩ | ⟨rfl, -⟩ <;> exact trivial

theorem recording_same (m : Machine I H) (top : Frame I H) (fault : Fault) :
    (m.recording top fault).latest.fault.same fault = true := by
  unfold Machine.recording
  split
  · split
    · assumption
    · simp [Fault.same]
  · simp [Fault.same]

theorem Reports.departed {run run' undone : Run I H} {call : Call I H} {command : Command}
    {ctx : Context I H} {keeps : Bool} {frame : Frame I H} {rest : List (Frame I H)}
    {outcome : Except ExecutionError (Option (Context I H))} {history : List (Event I H)}
    (reports : Reports run.machine history) (quiet : run.machine.Quiet)
    (departs : Departs run call command ctx keeps undone frame rest)
    (same_marks : run'.machine.handled = undone.machine.handled)
    (frames : run'.machine.frames = rest) :
    Reports run'.machine (⟨run, call, outcome, run'⟩ :: history) := by
  obtain ⟨prefixes, same⟩ := departs.machine
  rw [same] at same_marks
  refine reports.quiet (departs.plain.silent _ _ _) same_marks
    (quiet.running_of_frames departs.frames) ?_
  intro exception rests
  rw [frames]
  rw [departs.frames] at rests
  exact rests.below departs.own

theorem Reports.begun {run : Run I H} {call : Call I H} {global : Context I H}
    {world world' : World I H} {history : List (Event I H)} (reports : Reports run.machine history)
    (quiet : run.machine.Quiet) (opens : call.opening run = some (global, world))
    (idle : run.machine.isRunning = false) :
    Reports (run.machine.begun global)
      (⟨run, call, .ok (some global), ⟨run.machine.begun global, world'⟩⟩ :: history) := by
  have empty := quiet (by simpa [Machine.isRunning] using idle)
  have no_frames : run.machine.frames = [] := by rw [← empty]; rfl
  have begins : ∀ after, (⟨run, call, .ok (some global), after⟩ : Event I H).begins = true ∧
      (⟨run, call, .ok (some global), after⟩ : Event I H).mark? = none := by
    rcases Call.of_opening opens with ⟨subject, rfl⟩ | ⟨parent, rfl⟩ <;> exact fun _ => ⟨rfl, rfl⟩
  obtain ⟨begins, no_mark⟩ := begins ⟨run.machine.begun global, world'⟩
  refine ⟨fun _ => ?_, ?_, ?_⟩
  · rw [Session.lastRecord, if_pos begins, Machine.begun, no_frames]
    exact ⟨_, rfl, rfl, rfl⟩
  · rw [Session.lastRecord, if_pos begins]
    intro fault chain recorded
    cases recorded
  · rw [Session.marks, List.filterMap_cons_none no_mark]
    exact reports.marked

theorem Reports.ended {run run' : Run I H} {history : List (Event I H)}
    {outcome : Except ExecutionError (Option (Context I H))} (reports : Reports run.machine history)
    (cleared : run'.machine = run.machine.cleared) :
    Reports run'.machine (⟨run, .finish, outcome, run'⟩ :: history) := by
  rw [cleared]
  exact ⟨fun running => absurd rfl running, reports.named, reports.marked⟩

theorem Reports.thrown {run : Run I H} {command : Command} {fault : Fault} {top parent : Frame I H}
    {rest : List (Frame I H)} {world : World I H} {history : List (Event I H)}
    (reports : Reports run.machine history) (quiet : run.machine.Quiet)
    (frames : run.machine.frames = top :: parent :: rest) (own : top.isFor command = true) :
    Reports (run.machine.thrown fault top parent rest)
      (⟨run, .exceptionThrown command fault, .ok none,
        ⟨run.machine.thrown fault top parent rest, world⟩⟩ :: history) := by
  have running := quiet.running_of_frames frames
  have rests := reports.rests running
  rw [frames] at rests
  have below := rests.below own
  cases rest with
  | nil =>
    obtain ⟨bottom, last, plain, -⟩ := below
    have same : parent = bottom := by simpa using last
    subst same
    have record : Session.lastRecord (⟨run, .exceptionThrown command fault, .ok none,
        ⟨run.machine.thrown fault top parent [], world⟩⟩ :: history) =
        some (fault, run.machine.recording top fault) := by
      simp [Session.lastRecord, Event.begins, Event.record?, frames]
    refine ⟨fun _ => ?_, ?_, reports.marked⟩
    · rw [record]
      exact ⟨_, rfl, plain, rfl⟩
    · intro raised chain recorded
      rw [record] at recorded
      cases recorded
      exact recording_same _ _ _
  | cons next rest =>
    have record : Session.lastRecord (⟨run, .exceptionThrown command fault, .ok none,
        ⟨run.machine.thrown fault top parent (next :: rest), world⟩⟩ :: history) =
        Session.lastRecord history := by
      simp [Session.lastRecord, Event.begins, Event.record?, frames]
    refine ⟨fun _ => ?_, ?_, reports.marked⟩
    · rw [record]
      obtain ⟨bottom, last, plain, carries⟩ := below
      exact ⟨bottom, by simpa [Machine.thrown] using last, plain, carries⟩
    · rw [record]
      exact reports.named

theorem Reports.handled {run run' : Run I H} {command : Command} {fault : Fault}
    {top parent : Frame I H} {rest : List (Frame I H)} {chain : RaisedChain}
    {history : List (Event I H)} (reports : Reports run.machine history)
    (frames : run.machine.frames = top :: parent :: rest) (recorded : parent.exception = some chain)
    (handling : run'.machine = run.machine.handling chain) :
    Reports run'.machine (⟨run, .exceptionHandled command fault, .ok none, run'⟩ :: history) := by
  rw [handling]
  refine ⟨reports.rests, reports.named, ?_⟩
  have mark : (⟨run, .exceptionHandled command fault, .ok none, run'⟩ : Event I H).mark? =
      some chain.latest.id := by
    simp [Event.mark?, frames, recorded]
  rw [Session.marks, List.filterMap_cons_some mark, ← Session.marks, ← reports.marked]
  rfl

theorem Effect.reports {run run' : Run I H} {call : Call I H}
    {outcome : Except ExecutionError (Option (Context I H))} {history : List (Event I H)}
    (effect : Effect run call outcome run') (reports : Reports run.machine history)
    (quiet : run.machine.Quiet) :
    Reports run'.machine (⟨run, call, outcome, run'⟩ :: history) := by
  have quietly (plain : call.Plain) (same_marks : run'.machine.handled = run.machine.handled)
      (running : run.machine.global ≠ none)
      (rests : ∀ exception, Rests run.machine.frames exception →
        Rests run'.machine.frames exception) :
      Reports run'.machine (⟨run, call, outcome, run'⟩ :: history) :=
    reports.quiet (plain.silent _ _ _) same_marks running rests
  have running_here {ctx : Context I H} (here : run.At ctx) : run.machine.global ≠ none := by
    obtain ⟨current, now, -⟩ := here
    exact quiet.running_of_current now
  cases effect with
  | rejected | unused => exact reports.failing
  | begun opens idle => exact reports.begun quiet opens idle
  | ended running => exact reports.ended rfl
  | enteredUnit _ now | entered _ now =>
    refine quietly trivial (by simp) (quiet.running_of_current now) ?_
    intro exception rests
    simpa using rests.push _
  | left departs | leftUnit departs =>
    exact reports.departed quiet departs (by simp) (by simp)
  | tornContext departs | tornTrace departs => exact reports.departed quiet departs rfl rfl
  | resumed resumes | resumedUnit resumes =>
    refine quietly trivial (by simp) (running_here resumes.here) ?_
    intro exception rests
    simpa using Rests.marked (by simpa using rests.push _) _
  | viewed here | viewResumed here =>
    exact quietly trivial rfl (running_here here) fun _ rests => rests
  | viewLeft unviews here =>
    have plain : call.Plain := by
      rcases Call.of_unviewing unviews with ⟨rfl, -⟩ | ⟨rfl, -⟩ <;> exact trivial
    exact quietly plain rfl (running_here here) fun _ rests => rests
  | thrown frames own => exact reports.thrown quiet frames own
  | handled frames own recorded => exact reports.handled frames recorded rfl

namespace Session

theorem Reached.reports {allowed : Session I H → Interaction I H → Prop} {s : Session I H}
    (reached : Reached allowed s) : Reports s.run.machine s.history := by
  refine Reached.induct (motive := fun s => Reports s.run.machine s.history) ?_ ?_ reached
  · intro registry settings host
    exact ⟨fun running => absurd rfl running, nofun, rfl⟩
  · intro s interaction reached reports _
    cases interaction with
    | calls call => exact (Machine.perform_effect s.run call).reports reports reached.quiet
    | asks request => exact reports

theorem Reached.based {allowed : Session I H → Interaction I H → Prop} {s : Session I H}
    (reached : Reached allowed s) (running : s.run.machine.global ≠ none) :
    s.run.machine.frames ≠ [] := by
  obtain ⟨bottom, last, -⟩ := reached.reports.rests running
  intro none_left
  rw [none_left] at last
  cases last

def ending (s : Session I H) : Except ExecutionError (Option (Context I H)) :=
  ((Call.finish : Call I H).perform s.run).1

def FailsWith (s : Session I H) (fault : Fault) : Prop :=
  ∃ failure, s.ending = .error (.failed failure) ∧ failure.fault.same fault = true

theorem FailsWith.ending_ne {s : Session I H} {fault : Fault} (fails : s.FailsWith fault) :
    s.ending ≠ .ok none := by
  obtain ⟨failure, failed, -⟩ := fails
  rw [failed]
  nofun

theorem ending_eq {allowed : Session I H → Interaction I H → Prop} {s : Session I H}
    (reached : Reached allowed s) (running : s.run.machine.isRunning = true) :
    s.ending = match lastRecord s.history with
      | some (_, chain) =>
        if chain.latest.id ∈ marks s.history then .ok none else .error (.failed chain.failure)
      | none => .ok none := by
  have reports := reached.reports
  have verdict := ((Machine.perform_effect s.run .finish).of_finish running).1
  have started : s.run.machine.global ≠ none := by
    simpa [Machine.isRunning, Option.isSome_iff_ne_none] using running
  have recorded : s.run.machine.globalException? = (lastRecord s.history).map Prod.snd :=
    (reports.rests started).exception_eq
  rw [ending, verdict, Machine.verdict, Machine.failure?, recorded]
  cases last : lastRecord s.history with
  | none => rfl
  | some record =>
    obtain ⟨raised, chain⟩ := record
    by_cases marked : chain.latest.id ∈ marks s.history
    · simp [Machine.isHandled, reports.marked, marked]
    · simp [Machine.isHandled, reports.marked, marked]

theorem failure_fault (chain : RaisedChain) : chain.failure.fault = chain.latest.fault := by
  obtain ⟨latest, interrupted⟩ := chain
  cases interrupted <;> rfl

/-- The end of a run fails with the fault that was recorded last directly above the frame of the
run, unless that record is marked as handled, and fails with no other. -/
theorem ending_fails_iff {allowed : Session I H → Interaction I H → Prop} {s : Session I H}
    (reached : Reached allowed s) (running : s.run.machine.isRunning = true) :
    (∀ fault, s.FailsWith fault ↔ ∃ raised chain, lastRecord s.history = some (raised, chain) ∧
      raised.same fault = true ∧ chain.latest.id ∉ marks s.history) ∧
    ((∀ fault, ¬ s.FailsWith fault) → s.ending = .ok none) := by
  have ends := ending_eq reached running
  have named := reached.reports.named
  cases last : lastRecord s.history with
  | none =>
    simp only [last] at ends
    refine ⟨fun fault => ⟨?_, ?_⟩, fun _ => ends⟩
    · exact fun fails => absurd ends fails.ending_ne
    · rintro ⟨raised, chain, recorded, -⟩
      cases recorded
  | some record =>
    obtain ⟨raised, chain⟩ := record
    have carried := named raised chain last
    by_cases marked : chain.latest.id ∈ marks s.history
    · simp only [last, if_pos marked] at ends
      refine ⟨fun fault => ⟨?_, ?_⟩, fun _ => ends⟩
      · exact fun fails => absurd ends fails.ending_ne
      · rintro ⟨raised', chain', recorded, -, unmarked⟩
        cases recorded
        exact absurd marked unmarked
    · simp only [last, if_neg marked] at ends
      have carries (fault : Fault) :
          chain.failure.fault.same fault = true ↔ raised.same fault = true := by
        rw [failure_fault]
        simp only [Fault.same, decide_eq_true_eq] at carried ⊢
        rw [carried]
      refine ⟨fun fault => ⟨?_, ?_⟩, fun none_fails => ?_⟩
      · rintro ⟨failure, failed, same⟩
        rw [ends] at failed
        cases failed
        exact ⟨raised, chain, rfl, (carries fault).mp same, marked⟩
      · rintro ⟨raised', chain', recorded, same, -⟩
        cases recorded
        exact ⟨chain.failure, ends, (carries fault).mpr same⟩
      · exact absurd ⟨chain.failure, ends, (carries raised).mpr (by simp [Fault.same])⟩
          (none_fails raised)

def boom : Fault := .mk 0 (.failure (.ofMessage "boom"))

def otherFault : Fault := .mk 1 (.failure (.ofMessage "other"))

/-- The context of a run over a subject. -/
def wholeRun : Context Unit Unit := ⟨⟨0, 0, .execution, .empty, .int 1, ⟨0, []⟩, true⟩, []⟩

/-- A run of one command over a subject, in which the command raises a fault. -/
def raising : List (Interaction Unit Unit) :=
  [.calls (.start (.int 1)), .calls (.startCommand (.named 0 "a") wholeRun),
    .calls (.exceptionThrown (.named 0 "a") boom)]

def raised : Session Unit Unit := (fresh .empty .standard ()).play raising

/-- The same, and then the command reports another fault as handled. -/
def silenced : Session Unit Unit :=
  raised.after (.calls (.exceptionHandled (.named 0 "a") otherFault))

/-- A command in the command of the run raises a fault. -/
def raisingBelow : List (Interaction Unit Unit) :=
  [.calls (.start (.int 1)), .calls (.startCommand (.named 0 "a") wholeRun),
    .calls (.startCommand (.named 1 "b") wholeRun), .calls (.exceptionThrown (.named 1 "b") boom)]

/-- It is handled there, and then the command of the run raises it again. -/
def handledThenRaised : List (Interaction Unit Unit) :=
  raisingBelow ++ [.calls (.exceptionHandled (.named 1 "b") boom),
    .calls (.endCommand (.named 1 "b") wholeRun), .calls (.exceptionThrown (.named 0 "a") boom)]

/-- The command of the run raises it too, and then another command in it reports it as handled. -/
def raisedThenHandled : List (Interaction Unit Unit) :=
  raisingBelow ++ [.calls (.endCommand (.named 1 "b") wholeRun),
    .calls (.exceptionThrown (.named 0 "a") boom), .calls (.startCommand (.named 1 "b") wholeRun),
    .calls (.exceptionHandled (.named 1 "b") boom)]

def raisedAgain : Session Unit Unit := (fresh .empty .standard ()).play handledThenRaised

def silencedBelow : Session Unit Unit := (fresh .empty .standard ()).play raisedThenHandled

/-- The faults that are reported as handled, each with the number of frames that there are then. -/
def handlings (history : List (Event I H)) : List (Fault × Nat) :=
  history.filterMap fun event =>
    event.reported?.map fun fault => (fault, event.before.machine.frames.length)

theorem raised_once_fails :
    Reached (fun _ _ => True) raised ∧ raised.run.machine.isRunning = true ∧
      raised.FailsWith boom := by
  have reached : Reached (fun _ _ => True) raised := reached_play .empty .standard () raising
  exact ⟨reached, rfl, ((ending_fails_iff reached rfl).1 boom).mpr ⟨boom, _, rfl, rfl, by decide⟩⟩

/-- A fault is silenced by a report of another one, by one from before it was raised again, and by
one from deeper in the run. -/
theorem handled_under_another_name_silences :
    (Reached (fun _ _ => True) silenced ∧ silenced.run.machine.isRunning = true ∧
      (lastRecord silenced.history).map Prod.fst = some boom ∧
      silenced.history.filterMap Event.reported? = [otherFault] ∧ otherFault.same boom = false ∧
      ¬ silenced.FailsWith boom) ∧
    (Reached (fun _ _ => True) raisedAgain ∧ raisedAgain.run.machine.isRunning = true ∧
      (raisedAgain.history.head?.bind Event.record?).map Prod.fst = some boom ∧
      handlings raisedAgain.history = [(boom, 3)] ∧ ¬ raisedAgain.FailsWith boom) ∧
    (Reached (fun _ _ => True) silencedBelow ∧ silencedBelow.run.machine.isRunning = true ∧
      (lastRecord silencedBelow.history).map Prod.fst = some boom ∧
      handlings silencedBelow.history = [(boom, 3)] ∧ ¬ silencedBelow.FailsWith boom) := by
  refine ⟨⟨?_, rfl, rfl, rfl, rfl, fun fails => fails.ending_ne rfl⟩,
    ⟨?_, rfl, rfl, rfl, fun fails => fails.ending_ne rfl⟩,
    ⟨?_, rfl, rfl, rfl, fun fails => fails.ending_ne rfl⟩⟩
  · have reached : Reached (fun _ _ => True) raised := reached_play .empty .standard () raising
    exact reached.leads (.step .refl trivial)
  · exact reached_play .empty .standard () handledThenRaised
  · exact reached_play .empty .standard () raisedThenHandled

end Session

end CommandChain
