import CommandChain.Proofs.FailureReport
import CommandChain.Proofs.Machine.Numbering
import CommandChain.Proofs.Nesting

/-!
What is recorded while invocations unwind. A command that raises a fault writes an exception on the
frame below its own: the one that its own frame carries, if it is for that very fault, or else a new
one with the trace as it stands that interrupts what its own frame carries. A frame is entered with
nothing on it, and whatever it carries later was named since, so it is never marked as handled.
-/
namespace CommandChain

variable {I H α ε : Type}

def Program.left (x : Program I H Unit ε α) (run : Run I H) : Except ε α × Run I H :=
  ((outcomeOf (x (run, ()))).1, (outcomeOf (x (run, ()))).2.1)

namespace Program

theorem left_bind {β : Type} (x : Program I H Unit ε β) (f : β → Program I H Unit ε α)
    (run : Run I H) : left (x >>= f) run = match left x run with
      | (.ok b, run) => left (f b) run
      | (.error error, run) => (.error error, run) := by
  unfold left
  rw [bind_apply]
  cases x (run, ()) <;> rfl

theorem left_attempt {ε' : Type} (x : Program I H Unit ε α) (run : Run I H) :
    left (attempt x : Program I H Unit ε' (Except ε α)) run =
      (.ok (left x run).1, (left x run).2) := by
  unfold left attempt
  cases x (run, ()) <;> rfl

theorem left_ofMachine (operation : MachineM I H α) (run : Run I H) :
    left (ofMachine operation : Program I H Unit ExecutionError α) run =
      outcomeOf (operation run) := by
  simp only [left, ofMachine]
  cases operation run <;> rfl

end Program

/-- A tree of invocations. A body invokes commands one after the other, goes on with what each of
them returned, and succeeds or raises a fault of any origin. -/
inductive CallTree where
  | pass
  | raise (fault : Fault)
  | mint (cause : FaultCause) (next : Fault → CallTree)
  | invoke (command : Command) (plain : command.isFilter = false) (body : CallTree)
    (next : Except Fault Unit → CallTree)

/-- A command's raise of a fault: the run when its body has ended, and the run when the fault is
recorded. -/
structure Raise (I H : Type) where
  command : Command
  fault : Fault
  before : Run I H
  after : Run I H

namespace CallTree

open Program

def nested : CallTree → Nested I H Unit
  | .pass => .pass
  | .raise fault => .raise fault
  | .mint cause next => .mint cause fun fault => (next fault).nested
  | .invoke command plain body next =>
    .invoke command plain body.nested fun outcome => (next outcome).nested

def left (tree : CallTree) (ctx : Context I H) (run : Run I H) : Except Fault Unit × Run I H :=
  Program.left (tree.nested.run ctx) run

/-- How the invocation of a command with a tree as its body ends. -/
def invoked (body : CallTree) (command : Command) (ctx : Context I H) (run : Run I H) :
    Except Fault Unit × Run I H :=
  Program.left (Program.invoke command ctx body.nested.run) run

/-- The raise at the end of a body that was entered, if it ends with a fault. -/
def raise? (body : CallTree) (command : Command) (entered : Context I H) (inner : Run I H) :
    Option (Raise I H) :=
  match body.left entered inner with
  | (.error fault, before) =>
    some ⟨command, fault, before, (outcomeOf (Machine.exceptionThrown command fault before)).2⟩
  | (.ok (), _) => none

/-- The raises while a tree runs, in order. -/
def raises : CallTree → Context I H → Run I H → List (Raise I H)
  | .pass, _, _ => []
  | .raise _, _, _ => []
  | .mint cause next, ctx, run =>
    match Program.left (Program.mintFault cause : Program I H Unit Fault Fault) run with
    | (.ok fault, run) => (next fault).raises ctx run
    | (.error _, _) => []
  | .invoke command _ body next, ctx, run =>
    (match outcomeOf (Machine.startCommand command ctx run) with
      | (.ok entered, inner) =>
        body.raises entered inner ++ (body.raise? command entered inner).toList
      | (.error _, _) => []) ++
    (next (body.invoked command ctx run).1).raises ctx (body.invoked command ctx run).2

variable {body : CallTree} {command : Command} {ctx entered : Context I H}
  {run inner after recorded last : Run I H} {fault : Fault}

theorem left_mint (cause : FaultCause) (next : Fault → CallTree) (ctx : Context I H)
    (run : Run I H) : ∃ fault world, run.Restores ⟨run.machine, world⟩ ∧
      (CallTree.mint cause next).left ctx run = (next fault).left ctx ⟨run.machine, world⟩ ∧
      (CallTree.mint cause next).raises ctx run = (next fault).raises ctx ⟨run.machine, world⟩ :=
  ⟨.mk run.world.nextFault cause, { run.world with nextFault := run.world.nextFault + 1 },
    Run.restores_of_same rfl rfl, rfl, rfl⟩

theorem left_invoke (plain : command.isFilter = false) (next : Except Fault Unit → CallTree) :
    (CallTree.invoke command plain body next).left ctx run =
      (next (body.invoked command ctx run).1).left ctx (body.invoked command ctx run).2 := by
  rw [CallTree.left, nested, Nested.run, left_bind, left_attempt]
  rfl

theorem invoked_refused {error : ExecutionError}
    (starts : outcomeOf (Machine.startCommand command ctx run) = (.error error, last)) :
    ∃ fault world, body.invoked command ctx run = (.error fault, ⟨last.machine, world⟩) := by
  rw [invoked, Program.invoke, left_bind, raising, left_bind, left_attempt, left_ofMachine, starts]
  exact ⟨_, _, rfl⟩

theorem invoked_entered
    (starts : outcomeOf (Machine.startCommand command ctx run) = (.ok entered, inner))
    {outcome : Except Fault Unit} (ran : body.left entered inner = (outcome, after)) :
    body.invoked command ctx run = Program.left (do
      match outcome with
      | .error fault => record command (Machine.exceptionThrown command fault)
      | .ok () => pure ()
      conclude outcome (Machine.endCommand command entered)) after := by
  rw [CallTree.left] at ran
  rw [invoked, Program.invoke, left_bind, raising, left_bind, left_attempt, left_ofMachine, starts]
  change Program.left (attempt (body.nested.run entered) >>= _) inner = _
  cases outcome <;> simp only [left_bind, left_attempt, ran]

theorem left_record {operation : MachineM I H Unit}
    (records : outcomeOf (operation after) = (.ok (), recorded)) :
    Program.left (record command operation) after = (.ok (), recorded) := by
  rw [record, left_bind, left_attempt, left_ofMachine, records]
  rfl

theorem left_conclude (outcome : Except Fault Unit) (ending : MachineM I H (Context I H))
    (run : Run I H) : ∃ concluded world, (∀ fault, outcome = .error fault →
        concluded = .error fault) ∧
      Program.left (conclude outcome ending) run =
        (concluded, ⟨(outcomeOf (ending run)).2.machine, world⟩) := by
  cases outcome with
  | error fault =>
    rw [conclude, left_bind, left_attempt, left_ofMachine]
    cases outcomeOf (ending run) with
    | mk ended last =>
      cases ended with
      | error error => exact ⟨_, _, fun _ same => same, rfl⟩
      | ok told => exact ⟨_, _, fun _ same => same, rfl⟩
  | ok =>
    rw [conclude, left_bind, left_attempt, left_ofMachine]
    cases outcomeOf (ending run) with
    | mk ended last =>
      cases ended with
      | error error => exact ⟨_, _, nofun, rfl⟩
      | ok told => exact ⟨_, _, nofun, rfl⟩

end CallTree

/-! ### Entering, recording and leaving -/

namespace Run

open Program

variable {start inner now : Run I H} {command : Command} {ctx entered : Context I H}

/-- Whether a run is one from before with a command entered just now: its frame carries nothing. -/
structure Enters (start : Run I H) (command : Command) (entered : Context I H) (inner : Run I H) :
    Prop where
  entered : Entered start command entered inner
  bare : ∃ frame, inner.machine.frames = frame :: start.machine.frames ∧ frame.exception = none
  shallow : start.machine.frames.length < start.machine.settings.maxDepth
  later : start.machine.Later inner.machine

theorem Enters.fits (enters : start.Enters command entered inner) : inner.Fits entered := by
  obtain ⟨mine, within⟩ := enters.entered
  exact within.fits

theorem Enters.empty (enters : start.Enters command entered inner) :
    inner.machine.frames.head?.bind (·.exception) = none := by
  obtain ⟨frame, frames, nothing⟩ := enters.bare
  rw [frames]
  exact nothing

theorem Enters.based (enters : start.Enters command entered inner) :
    inner.machine.frames ≠ [] := by
  obtain ⟨frame, frames, -⟩ := enters.bare
  rw [frames]
  exact List.cons_ne_nil _ _

theorem Restores.based (restores : start.Restores now) (based : start.machine.frames ≠ []) :
    now.machine.frames ≠ [] := by
  rw [← List.length_pos_iff, restores.machine.frames_length]
  exact List.length_pos_iff.mpr based

theorem starts {outcome : Except ExecutionError (Option (Context I H))} (fits : start.Fits ctx)
    (effect : Effect start (.startCommand command ctx) outcome inner) :
    (inner = start ∧ (∃ error, outcome = .error error) ∧
      start.machine.settings.maxDepth ≤ start.machine.frames.length) ∨
    ((∃ entered, outcome = .ok (some entered)) ∧
      start.machine.frames.length < start.machine.settings.maxDepth ∧
      ∃ frame, inner.machine.frames = frame :: start.machine.frames ∧ frame.exception = none) := by
  cases effect with
  | unused opens | begun opens => cases opens
  | left departs | leftUnit departs | tornContext departs | tornTrace departs =>
    cases departs.departure
  | viewLeft unviews => cases unviews
  | rejected refused =>
    refine .inl ⟨rfl, ⟨_, rfl⟩, Nat.le_of_not_lt fun shallow => refused ?_⟩
    exact ⟨shallow, ctx, fits.current, .inr (by simp [Context.same])⟩
  | enteredUnit unit now shallow | entered plain now shallow =>
    refine .inr ⟨⟨_, rfl⟩, shallow, ?_⟩
    rw [bound_frames, Machine.located_frames]
    exact ⟨_, rfl, rfl⟩

theorem enters_or_refused (fits : start.Fits ctx) (command : Command) :
    (∃ entered inner, outcomeOf (Machine.startCommand command ctx start) = (.ok entered, inner) ∧
      start.Enters command entered inner) ∨
    (∃ error, outcomeOf (Machine.startCommand command ctx start) = (.error error, start)) ∧
      start.machine.settings.maxDepth ≤ start.machine.frames.length := by
  have effect : Effect start (.startCommand command ctx) _ _ := operation_effect rfl start
  cases started : outcomeOf (Machine.startCommand command ctx start) with
  | mk outcome inner =>
    rw [started] at effect
    cases outcome with
    | error error =>
      rcases starts fits effect with ⟨rfl, -, deep⟩ | ⟨⟨entered, failed⟩, -⟩
      · exact .inr ⟨⟨error, rfl⟩, deep⟩
      · cases failed
    | ok entered =>
      rcases starts fits effect with ⟨-, ⟨error, failed⟩, -⟩ | ⟨-, shallow, bare⟩
      · cases failed
      rcases enters effect fits with ⟨-, error, failed⟩ | ⟨told, mine, succeeded, within⟩
      · cases failed
      cases succeeded
      exact .inl ⟨entered, inner, rfl, ⟨mine, within⟩, bare, shallow, effect.later nofun⟩

theorem Entered.records (within : Entered start command entered now)
    (based : start.machine.frames ≠ []) (fault : Fault) :
    ∃ recorded top parent rest,
      outcomeOf (Machine.exceptionThrown command fault now) = (.ok (), recorded) ∧
      now.machine.frames = top :: parent :: rest ∧ top.isFor command = true ∧
      recorded.machine = now.machine.thrown fault top parent rest ∧
      now.machine.Later recorded.machine ∧ Entered start command entered recorded := by
  have effect : Effect now (.exceptionThrown command fault) _ _ := operation_effect rfl now
  obtain ⟨mine, within⟩ := within
  have still := within.recorded effect
  have later := effect.later nofun
  obtain ⟨base, frame, kept, own, raised⟩ := within.machine
  obtain ⟨top, frames, same⟩ := Machine.of_modifyHead raised.frames
  have admits : now.Admits (.exceptionThrown command fault) := by
    refine ⟨⟨top, base.frames, frames, Machine.isFor_of_bare same own⟩, ?_⟩
    rw [frames, List.length_cons, kept.frames_length]
    exact Nat.succ_le_succ (List.length_pos_iff.mpr based)
  cases threw : outcomeOf (Machine.exceptionThrown command fault now) with
  | mk outcome recorded =>
    rw [threw] at effect still later
    generalize shown : Except.map (fun _ => none) outcome = told at effect
    cases effect with
    | unused opens | begun opens => cases opens
    | left departs | leftUnit departs | tornContext departs | tornTrace departs =>
      cases departs.departure
    | viewLeft unviews => cases unviews
    | rejected refused => exact absurd admits refused
    | thrown frames own =>
      cases outcome with
      | error error => cases shown
      | ok => exact ⟨_, _, _, _, rfl, frames, own, rfl, later, mine, still⟩

theorem Entered.ended (within : Entered start command entered now) :
    (outcomeOf (Machine.endCommand command entered now)).2.machine.frames =
        now.machine.frames.tail ∧
      now.machine.Later (outcomeOf (Machine.endCommand command entered now)).2.machine := by
  have effect : Effect now (.endCommand command entered) _ _ := operation_effect rfl now
  obtain ⟨mine, within⟩ := within
  refine ⟨?_, effect.later nofun⟩
  generalize (outcomeOf (Machine.endCommand command entered now)).2 = last at effect ⊢
  generalize Except.map some (outcomeOf (Machine.endCommand command entered now)).1 = told at effect
  cases effect with
  | unused opens | begun opens => cases opens
  | viewLeft unviews => cases unviews
  | rejected refused => exact absurd (within.admits rfl) refused
  | left departs | leftUnit departs => simp [departs.frames]
  | tornContext departs | tornTrace departs =>
    rw [departs.frames]
    rfl

end Run

/-! ### What an invocation does with the exceptions -/

/-- Whether nothing was marked, and the frame on top carries what it carried or what was named
since. -/
structure Machine.Carries (m m' : Machine I H) : Prop where
  later : m.Later m'
  recorded : ∀ top' ∈ m'.frames.head?, ∀ chain, top'.exception = some chain →
    (∃ top ∈ m.frames.head?, top.exception = some chain) ∨ m.next ≤ chain.latest.id

namespace Machine.Carries

variable {m middle m' : Machine I H}

theorem refl (m : Machine I H) : m.Carries m :=
  ⟨.refl m, fun top member _ carries => .inl ⟨top, member, carries⟩⟩

theorem trans (first : m.Carries middle) (second : middle.Carries m') : m.Carries m' where
  later := first.later.trans second.later
  recorded top' member chain carries := by
    rcases second.recorded top' member chain carries with ⟨top, there, before⟩ | since
    · exact first.recorded top there chain before
    · exact .inr (Nat.le_trans first.later.next since)

end Machine.Carries

theorem Run.Enters.named {start inner after : Run I H} {command : Command} {entered : Context I H}
    (enters : start.Enters command entered inner) (carries : inner.machine.Carries after.machine)
    {top : Frame I H} {rest : List (Frame I H)} (frames : after.machine.frames = top :: rest)
    {chain : RaisedChain} (there : top.exception = some chain) :
    inner.machine.next ≤ chain.latest.id := by
  have here : top ∈ after.machine.frames.head? := by
    rw [frames]
    rfl
  rcases carries.recorded top here chain there with ⟨first, member, carried⟩ | since
  · obtain ⟨frame, bare, empty⟩ := enters.bare
    rw [bare] at member
    cases member
    rw [empty] at carried
    cases carried
  · exact since

namespace CallTree

open Program

/-- How the invocation of a command with a tree as its body goes: how it ends, the machine that it
leaves, and the raises that it comes to. -/
inductive Invocation (body : CallTree) (command : Command) (run : Run I H) :
    Except Fault Unit → Machine I H → List (Raise I H) → Prop where
  | refused {fault : Fault}
    (deep : run.machine.settings.maxDepth ≤ run.machine.frames.length) :
    Invocation body command run (.error fault) run.machine []
  | passed {outcome entered inner after last} (enters : run.Enters command entered inner)
    (ran : body.left entered inner = (.ok (), after))
    (frames : last.frames = run.machine.frames) (later : after.machine.Later last) :
    Invocation body command run outcome last (body.raises entered inner)
  | raised {fault entered inner after recorded top parent rest last}
    (enters : run.Enters command entered inner)
    (ran : body.left entered inner = (.error fault, after))
    (frames : after.machine.frames = top :: parent :: rest) (own : top.isFor command = true)
    (records : recorded.machine = after.machine.thrown fault top parent rest)
    (left : last.frames = { parent with exception := some (after.machine.recording top fault) } ::
      rest) (later : after.machine.Later last) :
    Invocation body command run (.error fault) last
      (body.raises entered inner ++ [⟨command, fault, after, recorded⟩])

variable {body : CallTree} {command : Command} {ctx entered : Context I H} {run inner : Run I H}

theorem restores (tree : CallTree) (fits : run.Fits ctx) :
    run.Restores (tree.left ctx run).2 := by
  have ends := tree.nested.restoring ctx run fits run () rfl
  unfold left Program.left
  cases ran : tree.nested.run ctx (run, ()) with
  | ok a left =>
    rw [ran] at ends
    exact ends
  | error fault left =>
    rw [ran] at ends
    exact ends

theorem invoked_restores (plain : command.isFilter = false) (body : CallTree)
    (fits : run.Fits ctx) : run.Restores (body.invoked command ctx run).2 := by
  have restores := (CallTree.invoke command plain body fun _ => .pass).restores fits
  rw [left_invoke] at restores
  exact restores

theorem invocation (fits : run.Fits ctx) (based : run.machine.frames ≠ []) (body : CallTree)
    (command : Command) : ∃ here,
      Invocation body command run (body.invoked command ctx run).1
        (body.invoked command ctx run).2.machine here ∧
      ∀ plain next, (CallTree.invoke command plain body next).raises ctx run =
        here ++ (next (body.invoked command ctx run).1).raises ctx
          (body.invoked command ctx run).2 := by
  rcases Run.enters_or_refused fits command with ⟨entered, inner, starts, enters⟩ |
    ⟨⟨error, starts⟩, deep⟩
  · have restores := body.restores enters.fits
    cases ran : body.left entered inner with
    | mk outcome after =>
      rw [ran] at restores
      dsimp only at restores
      -- The body has put back what it found, so its command can still end.
      have entered_still := Run.stays_entered _ _ _ _ _ enters.entered restores
      have goes := invoked_entered starts ran
      cases outcome with
      | ok =>
        obtain ⟨concluded, world, -, left⟩ :=
          left_conclude (.ok ()) (Machine.endCommand command entered) after
        obtain ⟨frames, later⟩ := entered_still.ended
        refine ⟨body.raises entered inner, ?_, fun plain next => ?_⟩
        · rw [goes.trans left]
          refine .passed enters ran ?_ later
          obtain ⟨frame, bare, -⟩ := enters.bare
          rw [frames, restores.machine.frames_tail, bare, List.tail_cons]
        · simp [CallTree.raises, starts, raise?, ran]
      | error fault =>
        obtain ⟨recorded, top, parent, rest, records, frames, own, threw, later, still⟩ :=
          entered_still.records based fault
        obtain ⟨concluded, world, raises, left⟩ :=
          left_conclude (.error fault) (Machine.endCommand command entered) recorded
        rw [raises fault rfl] at left
        obtain ⟨ended, later'⟩ := still.ended
        change _ = Program.left (record command (Machine.exceptionThrown command fault) >>= _)
          after at goes
        rw [left_bind, left_record records] at goes
        refine ⟨body.raises entered inner ++ [⟨command, fault, after, recorded⟩], ?_,
          fun plain next => ?_⟩
        · rw [goes.trans left]
          refine .raised enters ran frames own threw ?_ (later.trans later')
          rw [ended, threw]
          rfl
        · simp [CallTree.raises, starts, raise?, ran, records]
  · obtain ⟨fault, world, invoked⟩ : ∃ fault world,
        body.invoked command ctx run = (.error fault, ⟨run.machine, world⟩) :=
      invoked_refused starts
    refine ⟨[], ?_, fun plain next => ?_⟩
    · rw [invoked]
      exact .refused deep
    · rw [CallTree.raises, starts]

/-- An invocation marks nothing, and what it writes on the frame on top was named while it ran. -/
theorem Invocation.carries {outcome : Except Fault Unit} {last : Machine I H}
    {here : List (Raise I H)} (invocation : Invocation body command run outcome last here)
    (within : ∀ entered inner, run.Enters command entered inner →
      inner.machine.Carries (body.left entered inner).2.machine) : run.machine.Carries last := by
  cases invocation with
  | refused => exact .refl _
  | passed enters ran frames later =>
    have carries := within _ _ enters
    rw [ran] at carries
    refine ⟨(enters.later.trans carries.later).trans later, ?_⟩
    intro top member chain recorded
    rw [frames] at member
    exact .inl ⟨top, member, recorded⟩
  | raised enters ran frames own records left later =>
    rename_i fault entered inner after recorded top parent rest
    have carries := within _ _ enters
    rw [ran] at carries
    refine ⟨(enters.later.trans carries.later).trans later, ?_⟩
    intro top' member chain recorded
    rw [left] at member
    cases member
    cases recorded
    right
    rcases after.machine.recording_cases top fault with ⟨carried, there, -, -, same⟩ | ⟨-, -, same⟩
    · rw [same]
      exact Nat.le_trans enters.later.next (enters.named carries frames there)
    · rw [same]
      exact Nat.le_trans enters.later.next carries.later.next

theorem carries (tree : CallTree) (fits : run.Fits ctx) (based : run.machine.frames ≠ []) :
    run.machine.Carries (tree.left ctx run).2.machine := by
  induction tree generalizing ctx run with
  | pass => exact .refl _
  | raise fault => exact .refl _
  | mint cause next ih =>
    obtain ⟨fault, world, restores, left, -⟩ := left_mint cause next ctx run
    rw [left]
    exact ih fault (fits.later restores) based
  | invoke command plain body next ih_body ih_next =>
    have restores := invoked_restores plain body fits
    obtain ⟨here, invocation, -⟩ := invocation fits based body command
    rw [left_invoke]
    exact .trans (invocation.carries fun entered inner enters => ih_body enters.fits enters.based)
      (ih_next _ (fits.later restores) (restores.based based))

end CallTree

/-! ### The law of raises -/

/-- Whether a name is that of nothing that was recorded or marked. -/
def Machine.Unnamed (m : Machine I H) (id : Nat) : Prop :=
  id ∉ m.handled ∧ ∀ chain ∈ m.chains, ∀ raised ∈ chain.all, raised.id ≠ id

/-- Whether a raise writes on the frame below what its own frame carries, if it is for that very
fault, and else a new exception with the trace as it stands that interrupts what its frame
carries. -/
def Raise.Lawful (raise : Raise I H) : Prop :=
  ∃ top parent rest chain, raise.before.machine.frames = top :: parent :: rest ∧
    top.isFor raise.command = true ∧
    raise.after.machine.frames = top :: { parent with exception := some chain } :: rest ∧
    ((∃ carried, top.exception = some carried ∧
      carried.latest.fault.same raise.fault = true ∧ chain = carried) ∨
    (∀ carried, top.exception = some carried →
        carried.latest.fault.same raise.fault = false) ∧
      ∃ id, raise.before.machine.Unnamed id ∧
        chain = ⟨⟨id, raise.fault, raise.before.machine.executionTrace⟩,
          top.exception.elim [] RaisedChain.all⟩)

theorem Machine.Numbered.unnamed {m : Machine I H} (numbered : m.Numbered) : m.Unnamed m.next :=
  ⟨fun marked => Nat.lt_irrefl _ (numbered.handled _ marked),
    fun chain member raised among => Nat.ne_of_lt (numbered.chains chain member raised among)⟩

theorem Run.Enters.unmarked {start inner after : Run I H} {command : Command}
    {entered : Context I H} (enters : start.Enters command entered inner)
    (numbered : start.machine.Numbered) (carries : inner.machine.Carries after.machine)
    {top : Frame I H} {rest : List (Frame I H)} (frames : after.machine.frames = top :: rest)
    {chain : RaisedChain} (there : top.exception = some chain) :
    after.machine.isHandled chain.latest = false := by
  have since := enters.named carries frames there
  rw [Machine.isHandled, carries.later.handled, Bool.eq_false_iff, ne_eq, List.contains_iff_mem]
  intro marked
  have before := (enters.later.numbered numbered).handled _ marked
  exact Nat.lt_irrefl _ (Nat.lt_of_lt_of_le before since)

theorem Run.Enters.recording {start inner after : Run I H} {command : Command}
    {entered : Context I H} (enters : start.Enters command entered inner)
    (numbered : start.machine.Numbered) (carries : inner.machine.Carries after.machine)
    {top : Frame I H} {rest : List (Frame I H)} (frames : after.machine.frames = top :: rest)
    (fault : Fault) :
    (∃ carried, top.exception = some carried ∧ carried.latest.fault.same fault = true ∧
      after.machine.recording top fault = carried) ∨
    (∀ carried, top.exception = some carried → carried.latest.fault.same fault = false) ∧
      after.machine.recording top fault =
        ⟨⟨after.machine.next, fault, after.machine.executionTrace⟩,
          top.exception.elim [] RaisedChain.all⟩ := by
  rcases after.machine.recording_cases top fault with ⟨carried, there, same, -, is⟩ |
    ⟨other, -, is⟩
  · exact .inl ⟨carried, there, same, is⟩
  · refine .inr ⟨other, is.trans ?_⟩
    cases there : top.exception with
    | none => rfl
    | some carried =>
      simp only [Option.elim, enters.unmarked numbered carries frames there]
      rfl

namespace CallTree

variable {body : CallTree} {command : Command} {ctx entered : Context I H} {run inner : Run I H}

theorem Invocation.lawful {outcome : Except Fault Unit} {last : Machine I H}
    {here : List (Raise I H)} (invocation : Invocation body command run outcome last here)
    (numbered : run.machine.Numbered)
    (within : ∀ entered inner, run.Enters command entered inner →
      ∀ raise ∈ body.raises entered inner, raise.Lawful) : ∀ raise ∈ here, raise.Lawful := by
  cases invocation with
  | refused => exact fun raise member => absurd member List.not_mem_nil
  | passed enters => exact within _ _ enters
  | raised enters ran frames own records =>
    rename_i fault entered inner after recorded top parent rest left later
    have carries := body.carries enters.fits enters.based
    rw [ran] at carries
    intro raise member
    rcases List.mem_append.mp member with deeper | same
    · exact within _ _ enters raise deeper
    · cases List.mem_singleton.mp same
      refine ⟨top, parent, rest, _, frames, own, by rw [records]; rfl, ?_⟩
      have named := carries.later.numbered (enters.later.numbered numbered)
      rcases enters.recording numbered carries frames fault with ⟨carried, there, same, is⟩ |
        ⟨other, is⟩
      · exact .inl ⟨carried, there, same, is⟩
      · exact .inr ⟨other, _, named.unnamed, is⟩

theorem lawful (tree : CallTree) (fits : run.Fits ctx) (based : run.machine.frames ≠ [])
    (numbered : run.machine.Numbered) : ∀ raise ∈ tree.raises ctx run, raise.Lawful := by
  induction tree generalizing ctx run with
  | pass => exact fun raise member => absurd member List.not_mem_nil
  | raise fault => exact fun raise member => absurd member List.not_mem_nil
  | mint cause next ih =>
    obtain ⟨fault, world, restores, -, raises⟩ := left_mint cause next ctx run
    rw [raises]
    exact ih fault (fits.later restores) based numbered
  | invoke command plain body next ih_body ih_next =>
    have restores := invoked_restores plain body fits
    obtain ⟨here, invocation, raises⟩ := invocation fits based body command
    have carries := invocation.carries fun entered inner enters =>
      body.carries enters.fits enters.based
    rw [raises]
    intro raise member
    rcases List.mem_append.mp member with inside | later
    · exact invocation.lawful numbered (fun entered inner enters =>
        ih_body enters.fits enters.based (enters.later.numbered numbered)) raise inside
    · exact ih_next _ (fits.later restores) (restores.based based)
        (carries.later.numbered numbered) raise later

end CallTree
end CommandChain
