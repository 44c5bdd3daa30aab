import CommandChain.Proofs.Machine.Program
import CommandChain.Proofs.Machine.Restoration

/-!
Well-nested programs leave the stacks of the machine as they found them, whatever fails in them. A
program is put together from invocations, from filters with what is downstream of them and with
their post-processing, and from views; `Nested.restoring` goes by induction on how. What an
operation is called with is what the restored stacks show again.
-/
namespace CommandChain

variable {I H S ε α : Type}

/-- Whether what holds of a run still holds once the run is restored. -/
def Run.Stays (P : Run I H → Prop) : Prop := ∀ run run', P run → run.Restores run' → P run'

namespace Run

variable {start : Run I H} {command : Command} {ctx entered view : Context I H}

theorem Restores.refl (run : Run I H) : run.Restores run :=
  ⟨.refl _, World.settles_of_same rfl rfl⟩

theorem restores_of_same {world : World I H} (layers : world.layers = start.world.layers)
    (tables : world.tables = start.world.tables) : start.Restores ⟨start.machine, world⟩ :=
  ⟨.refl _, World.settles_of_same layers tables⟩

theorem stays_restores (start : Run I H) : Stays start.Restores := fun _ _ => Restores.trans

/-- As `Within`, whatever is the command's own. -/
def Entered (start : Run I H) (command : Command) (entered : Context I H) (now : Run I H) : Prop :=
  ∃ mine, Within start command entered mine now

/-- As `Aside`, whatever is the command's own. -/
def Suspended (start : Run I H) (command : Command) (now : Run I H) : Prop :=
  ∃ mine, Aside start command mine now

theorem stays_entered (start : Run I H) (command : Command) (entered : Context I H) :
    Stays (Entered start command entered) := by
  rintro now next ⟨mine, within⟩ restores
  exact ⟨mine, within.later restores⟩

theorem stays_suspended (start : Run I H) (command : Command) :
    Stays (Suspended start command) := by
  rintro now next ⟨mine, aside⟩ restores
  exact ⟨mine, aside.later restores⟩

/-- Whether the start of a command would enter it. -/
def canEnter (run : Run I H) (command : Command) (ctx : Context I H) : Bool :=
  (outcomeOf (Machine.startCommand command ctx run)).1.isOk

end Run

/-! ### Programs -/

namespace Program

/-- Runs a body on a view of its own. -/
def viewing (ctx : Context I H) (subject : Value)
    (body : Context I H → Program I H S Fault Unit) : Program I H S Fault Unit := do
  let view ← raising (Machine.startPointer ctx subject)
  conclude (← attempt (body view)) (Machine.stopPointer view)

end Program

/-- A program in which every command that is entered is left, every filter that is suspended is
resumed and every view is stopped, on the context that each was begun on. What was raised before it
goes on decides how it goes on, and so do the run and the state of its own wherever it looks. -/
inductive Nested (I H S : Type) where
  | pass
  | raise (fault : Fault)
  | mint (cause : FaultCause) (next : Fault → Nested I H S)
  | look (next : Run I H × S → Nested I H S)
  | update (change : S → S) (next : Nested I H S)
  | invoke (command : Command) (plain : command.isFilter = false) (body : Nested I H S)
    (next : Except Fault Unit → Nested I H S)
  /-- The downstream and the post-processing only come if the filter was entered. -/
  | filter (command : Command) (filters : command.isFilter = true) (body : Nested I H S)
    (downstream : Except Fault Unit → Nested I H S) (pending : Except Fault Unit → Option Fault)
    (post : Nested I H S) (disposition : Run I H × S → Disposition)
    (next : Except Fault Unit → Nested I H S)
  | view (subject : Value) (proper : subject.isNull = false) (body : Nested I H S)
    (next : Except Fault Unit → Nested I H S)

def Nested.run : Nested I H S → Context I H → Program I H S Fault Unit
  | .pass, _ => pure ()
  | .raise fault, _ => throw fault
  | .mint cause next, ctx => do (next (← Program.mintFault cause)).run ctx
  | .look next, ctx => do (next (← get)).run ctx
  | .update change next, ctx => do
    modify fun (run, s) => (run, change s)
    next.run ctx
  | .invoke command _ body next, ctx => do
    (next (← attempt (Program.invoke command ctx body.run))).run ctx
  | .filter command _ body downstream pending post disposition next, ctx => do
    let entering := (← get).1.canEnter command ctx
    let outcome ← attempt (Program.invoke command ctx body.run)
    if entering then
      let outcome ← attempt ((downstream outcome).run ctx)
      let outcome ← attempt (Program.postProcess command ctx (pending outcome) fun entered => do
        post.run entered
        return disposition (← get))
      (next outcome).run ctx
    else (next outcome).run ctx
  | .view subject _ body next, ctx => do
    (next (← attempt (Program.viewing ctx subject body.run))).run ctx

/-! ### What programs restore -/

namespace Program

open Run

/-- Whether a program on a context restores every run in which the context is the current one. -/
def Restoring (ctx : Context I H) (x : Program I H S ε α) : Prop :=
  ∀ start, Fits start ctx → Ends (· = start) x (fun _ => start.Restores) start.Restores

variable {start : Run I H} {command : Command} {ctx : Context I H}

theorem Restoring.ends {x : Program I H S ε α} {P : Run I H → Prop} (restoring : Restoring ctx x)
    (stays : Stays P) (fits : ∀ run, P run → run.Fits ctx) : Ends P x (fun _ => P) P := by
  intro run s holds
  have left (run' : Run I H) (restores : run.Restores run') : P run' :=
    stays run run' holds restores
  exact (restoring run (fits run holds)).mono (fun _ same => same) (fun _ => left) left run s rfl

theorem Restoring.again {x : Program I H S ε α} (restoring : Restoring ctx x)
    (fits : start.Fits ctx) : Ends start.Restores x (fun _ => start.Restores) start.Restores :=
  restoring.ends (stays_restores start) fun _ => fits.later

theorem Restoring.of_ends {x : Program I H S ε α} (ends : ∀ start : Run I H, start.Fits ctx →
    Ends start.Restores x (fun _ => start.Restores) start.Restores) : Restoring ctx x := by
  intro start fits
  apply (ends start fits).mono
  · intro run same
    rw [same]
    exact .refl start
  · exact fun _ _ left => left
  · exact fun _ left => left

theorem Restoring.then_look {x : Program I H S ε Unit} (restoring : Restoring ctx x)
    (look : Run I H × S → α) : Restoring ctx do
      x
      return look (← get) := by
  apply Restoring.of_ends
  intro start fits
  apply Ends.bind (restoring.again fits)
  intro _
  apply Ends.bind (R := fun _ => start.Restores) (.of_get fun _ _ restores => restores)
  exact fun _ => .of_pure fun _ restores => restores

section

variable {P E E' : Run I H → Prop} {Q : α → Run I H → Prop}

theorem ends_mintFault (stays : Stays P) (cause : FaultCause) :
    Ends P (mintFault cause : Program I H S ε Fault) (fun _ => P) E :=
  fun run _ holds => stays run _ holds (restores_of_same rfl rfl)

theorem ends_note (stays : Stays P) (level : LogLevel) (text : String) :
    Ends P (note level text : Program I H S ε Unit) (fun _ => P) E :=
  .of_modify fun run _ holds => stays run _ holds (restores_of_same rfl rfl)

theorem ends_raising {operation : MachineM I H α} (stays : Stays E)
    (ends : Ends P (ofMachine operation : Program I H S ExecutionError α) Q E) :
    Ends P (raising operation : Program I H S Fault α) Q E := by
  apply Ends.bind ends.attempt
  intro outcome
  cases outcome with
  | error error =>
    apply Ends.bind (ends_mintFault stays _)
    exact fun fault => .of_throw fun _ holds => holds
  | ok a => exact .of_pure fun _ holds => holds

theorem ends_record {operation : MachineM I H Unit} (stays : Stays P)
    (ends : Ends P (ofMachine operation : Program I H S ExecutionError Unit) (fun _ => P) P) :
    Ends P (record command operation : Program I H S Fault Unit) (fun _ => P) E := by
  apply Ends.bind ends.attempt_either
  intro outcome
  cases outcome with
  | error error => exact ends_note stays _ _
  | ok => exact .of_pure fun _ holds => holds

theorem ends_conclude {ending : MachineM I H (Context I H)} (stays : Stays E)
    (ends : Ends P (ofMachine ending : Program I H S ExecutionError _) (fun _ => E) E)
    (outcome : Except Fault Unit) :
    Ends P (conclude outcome ending : Program I H S Fault Unit) (fun _ => E) E := by
  apply Ends.bind ends.attempt_either
  intro ended
  cases outcome with
  | error fault =>
    cases ended with
    | error error =>
      apply Ends.bind (ends_note stays _ _)
      exact fun _ => .of_throw fun _ holds => holds
    | ok told => exact .of_throw fun _ holds => holds
  | ok =>
    cases ended with
    | error error =>
      apply Ends.bind (ends_mintFault stays _)
      exact fun _ => .of_throw fun _ holds => holds
    | ok told => exact .of_pure fun _ holds => holds

end

/-! ### Invocations -/

/-- What an invocation leaves: the run that it found, or one with the filter suspended that it
entered. -/
def Invoked (start : Run I H) (command : Command) (ctx : Context I H) (now : Run I H) : Prop :=
  if command.isFilter = true ∧ start.canEnter command ctx = true then Suspended start command now
  else start.Restores now

theorem stays_invoked (start : Run I H) (command : Command) (ctx : Context I H) :
    Stays (Invoked start command ctx) := by
  unfold Invoked
  split
  · exact stays_suspended start command
  · exact stays_restores start

theorem ends_startCommand (command : Command) (fits : start.Fits ctx) :
    Ends (· = start) (ofMachine (Machine.startCommand command ctx) : Program I H S _ _)
      (fun entered now => start.canEnter command ctx = true ∧ Entered start command entered now)
      (fun now => start.canEnter command ctx = false ∧ start.Restores now) := by
  refine .of_effect (.startCommand command ctx) rfl ?_
  rintro run now outcome rfl told effect
  have canEnter : run.canEnter command ctx = outcome.isOk := by rw [Run.canEnter, told]
  rcases Run.enters effect fits with ⟨rfl, error, failed⟩ | ⟨entered, mine, succeeded, within⟩
  · cases outcome with
    | ok told => cases failed
    | error error => exact ⟨canEnter, .refl _⟩
  · cases outcome with
    | ok told =>
      cases succeeded
      exact ⟨canEnter, mine, within⟩
    | error error => cases succeeded

theorem ends_startPostProcess (fits : start.Fits ctx) :
    Ends (Suspended start command)
      (ofMachine (Machine.startPostProcess command ctx) : Program I H S _ _)
      (fun entered => Entered start command entered) start.Restores := by
  refine .of_effect (.startPostProcess command ctx) rfl ?_
  rintro run now outcome ⟨mine, aside⟩ - effect
  obtain ⟨entered, succeeded, within⟩ := aside.resumes fits effect
  cases outcome with
  | ok told =>
    cases succeeded
    exact ⟨mine, within⟩
  | error error => cases succeeded

theorem ends_departure {entered : Context I H} (call : Call I H) {keeps : Bool}
    {operation : MachineM I H (Context I H)} {E : Run I H → Prop}
    (acts : call.act = some <$> operation)
    (departure : call.departure = some (command, entered, keeps))
    (gone : keeps = false → ∀ now, start.Restores now → E now)
    (kept : keeps = true → ∀ now, Suspended start command now → E now) :
    Ends (Entered start command entered) (ofMachine operation : Program I H S _ _) (fun _ => E)
      E := by
  refine .of_effect call acts ?_
  rintro run now outcome ⟨mine, within⟩ - effect
  have holds : E now := by
    rcases within.leaves effect departure with ⟨released, restores⟩ | ⟨keeps, aside⟩
    · exact gone released now restores
    · exact kept keeps now aside
  cases outcome <;> exact holds

theorem ends_exceptionThrown (start : Run I H) (command : Command) (entered : Context I H)
    (fault : Fault) :
    Ends (Entered start command entered)
      (ofMachine (Machine.exceptionThrown command fault) : Program I H S _ _)
      (fun _ => Entered start command entered) (Entered start command entered) := by
  refine .of_effect (.exceptionThrown command fault) rfl ?_
  rintro run now outcome ⟨mine, within⟩ - effect
  cases outcome <;> exact ⟨mine, within.recorded effect⟩

theorem ends_exceptionHandled {P : Run I H → Prop} (stays : Stays P) (command : Command)
    (fault : Fault) :
    Ends P (ofMachine (Machine.exceptionHandled command fault) : Program I H S _ _) (fun _ => P)
      P := by
  refine .of_effect (.exceptionHandled command fault) rfl ?_
  intro run now outcome holds _ effect
  cases outcome <;> exact stays run now holds (restores_handled effect)

theorem ends_body {entered : Context I H} {body : Context I H → Program I H S Fault α}
    {E : Run I H → Prop}
    (restoring : ∀ entered, Restoring entered (body entered)) :
    Ends (Entered start command entered)
      (attempt (body entered) : Program I H S Fault (Except Fault α))
      (fun _ => Entered start command entered) E := by
  refine ((restoring entered).ends (stays_entered start command entered) ?_).attempt_either
  rintro now ⟨mine, within⟩
  exact within.fits

theorem ends_invoke {body : Context I H → Program I H S Fault Unit} (fits : start.Fits ctx)
    (restoring : ∀ entered, Restoring entered (body entered)) :
    Ends (· = start) (invoke command ctx body) (fun _ => Invoked start command ctx)
      (Invoked start command ctx) := by
  have stays := stays_invoked start command ctx
  have refused : ∀ now, start.canEnter command ctx = false ∧ start.Restores now →
      Invoked start command ctx now := by
    rintro now ⟨closed, restores⟩
    rw [Invoked, if_neg (by simp [closed])]
    exact restores
  have starts := (ends_startCommand (S := S) command fits).mono (fun _ same => same)
    (fun _ _ opens => opens) refused
  apply Ends.bind (ends_raising stays starts)
  intro entered
  apply Ends.assuming
  intro opens
  have ending : Ends (Entered start command entered)
      (ofMachine (Machine.endCommand command entered) : Program I H S _ _)
      (fun _ => Invoked start command ctx) (Invoked start command ctx) := by
    refine ends_departure (.endCommand command entered) rfl rfl ?_ ?_
    · intro plain now restores
      rw [Invoked, if_neg (by simp [plain])]
      exact restores
    · intro filters now suspended
      rw [Invoked, if_pos ⟨filters, opens⟩]
      exact suspended
  apply Ends.bind (ends_body restoring)
  intro outcome
  cases outcome with
  | error fault =>
    apply Ends.bind (ends_record (stays_entered _ _ _) (ends_exceptionThrown _ _ _ fault))
    exact fun _ => ends_conclude stays ending _
  | ok => exact ends_conclude stays ending _

theorem restoring_invoke (plain : command.isFilter = false)
    {body : Context I H → Program I H S Fault Unit}
    (restoring : ∀ entered, Restoring entered (body entered)) :
    Restoring ctx (invoke command ctx body) := by
  intro start fits
  have left : ∀ now, Invoked start command ctx now → start.Restores now := by
    intro now invoked
    rw [Invoked, if_neg (by simp [plain])] at invoked
    exact invoked
  exact (ends_invoke fits restoring).mono (fun _ same => same) (fun _ => left) left

theorem ends_postProcess {body : Context I H → Program I H S Fault Disposition}
    (fits : start.Fits ctx) (restoring : ∀ entered, Restoring entered (body entered))
    (pending : Option Fault) :
    Ends (Suspended start command) (postProcess command ctx pending body)
      (fun _ => start.Restores) start.Restores := by
  have stays := stays_restores start
  apply Ends.bind (ends_raising stays (ends_startPostProcess fits))
  intro entered
  have ending : Ends (Entered start command entered)
      (ofMachine (Machine.endPostProcess command entered) : Program I H S _ _)
      (fun _ => start.Restores) start.Restores :=
    ends_departure (.endPostProcess command entered) rfl rfl
      (fun _ _ restores => restores) nofun
  have entered_stays := stays_entered start command entered
  apply Ends.bind (ends_body restoring)
  intro outcome
  cases outcome with
  | error fault =>
    apply Ends.bind (ends_record entered_stays (ends_exceptionThrown _ _ _ fault))
    exact fun _ => ends_conclude stays ending _
  | ok disposition =>
    cases disposition with
    | propagate => exact ends_conclude stays ending _
    | handled =>
      cases pending with
      | none => exact ends_conclude stays ending _
      | some fault =>
        apply Ends.bind (ends_record entered_stays (ends_exceptionHandled entered_stays _ fault))
        exact fun _ => ends_conclude stays ending _

/-! ### Views -/

theorem restoring_viewing {subject : Value} (proper : subject.isNull = false)
    {body : Context I H → Program I H S Fault Unit}
    (restoring : ∀ view, Restoring view (body view)) :
    Restoring ctx (viewing ctx subject body) := by
  intro start fits
  have stays := stays_restores start
  let shows (view : Context I H) (now : Run I H) : Prop :=
    view.isPointer = true ∧ now.Fits view ∧
      Run.Restores ⟨{ start.machine with contexts := view :: start.machine.contexts }, start.world⟩
        now
  have starts : Ends (· = start) (ofMachine (Machine.startPointer ctx subject) : Program I H S _ _)
      shows start.Restores := by
    refine .of_effect (.startPointer ctx subject) rfl ?_
    rintro run now outcome rfl - effect
    obtain ⟨view, succeeded, shown⟩ := Run.viewing fits proper effect
    cases outcome with
    | ok told =>
      cases succeeded
      exact shown
    | error error => cases succeeded
  apply Ends.bind (ends_raising stays starts)
  intro view
  have ending : Ends (shows view) (ofMachine (Machine.stopPointer view) : Program I H S _ _)
      (fun _ => start.Restores) start.Restores := by
    refine .of_effect (.stopPointer view) rfl ?_
    rintro run now outcome ⟨pointer, -, shown⟩ - effect
    cases outcome <;> exact unviewing pointer shown effect
  have shows_stays : Stays (shows view) := by
    rintro run run' ⟨pointer, fits, shown⟩ restores
    exact ⟨pointer, fits.later restores, shown.trans restores⟩
  apply Ends.bind ((restoring view).ends shows_stays fun _ shown => shown.2.1).attempt_either
  exact fun outcome => ends_conclude stays ending outcome

end Program

open Program Run

theorem Nested.restoring (program : Nested I H S) (ctx : Context I H) :
    Restoring ctx (program.run ctx) := by
  induction program generalizing ctx with
  | pass => exact .of_ends fun start _ => .of_pure fun _ restores => restores
  | raise fault => exact .of_ends fun start _ => .of_throw fun _ restores => restores
  | mint cause next ih =>
    apply Restoring.of_ends
    intro start fits
    apply Ends.bind (ends_mintFault (stays_restores start) cause)
    exact fun fault => (ih fault ctx).again fits
  | look next ih =>
    apply Restoring.of_ends
    intro start fits
    apply Ends.bind (R := fun _ => start.Restores) (.of_get fun _ _ restores => restores)
    exact fun found => (ih found ctx).again fits
  | update change next ih =>
    apply Restoring.of_ends
    intro start fits
    apply Ends.bind (.of_modify fun _ _ restores => restores)
    exact fun _ => (ih ctx).again fits
  | invoke command plain body next ih_body ih_next =>
    apply Restoring.of_ends
    intro start fits
    apply Ends.bind ((restoring_invoke plain ih_body).again fits).attempt_either
    exact fun outcome => (ih_next outcome ctx).again fits
  | filter command filters body downstream pending post disposition next ih_body ih_downstream
      ih_post ih_next =>
    intro start fits
    -- What is found here decides below whether the filter was entered.
    apply Ends.bind (R := fun found now => found.1 = start ∧ now = start)
      (.of_get fun _ _ same => ⟨same, same⟩)
    intro found
    apply Ends.assuming
    rintro rfl
    apply Ends.bind (ends_invoke fits ih_body).attempt_either
    intro outcome
    cases opens : found.1.canEnter command ctx with
    | false =>
      have invoked : Invoked found.1 command ctx = found.1.Restores := by
        funext now
        rw [Invoked, if_neg (by simp [opens])]
      rw [invoked]
      exact (ih_next outcome ctx).again fits
    | true =>
      have invoked : Invoked found.1 command ctx = Suspended found.1 command := by
        funext now
        rw [Invoked, if_pos ⟨filters, opens⟩]
      rw [invoked]
      have here (now : Run I H) (suspended : Suspended found.1 command now) : now.Fits ctx := by
        obtain ⟨mine, aside⟩ := suspended
        exact aside.fits fits
      apply Ends.bind ((ih_downstream outcome ctx).ends (stays_suspended _ _) here).attempt_either
      intro outcome
      have disposing := fun entered => (ih_post entered).then_look disposition
      apply Ends.bind (ends_postProcess fits disposing (pending outcome)).attempt_either
      exact fun outcome => (ih_next outcome ctx).again fits
  | view subject proper body next ih_body ih_next =>
    apply Restoring.of_ends
    intro start fits
    apply Ends.bind ((restoring_viewing proper ih_body).again fits).attempt_either
    exact fun outcome => (ih_next outcome ctx).again fits

/-! ### Sessions -/

namespace Session

/-- A well-nested program on the current context of a run leaves every stack with what was on it, in
the same order, and every table and layer that was there; the tables that were handed out for it are
released. -/
theorem nested_restores {s : Session I H} (reached : Reached Knows s)
    (running : s.run.machine.isRunning = true) :
    ∃ ctx, s.run.machine.current = .ok ctx ∧ ∀ (program : Nested I H S) (state : S),
      s.run.Restores (outcomeOf (program.run ctx (s.run, state))).2.1 := by
  have housed := reached.housed fun _ _ knows => knows
  obtain ⟨ctx, now⟩ : ∃ ctx, s.run.machine.current = .ok ctx := by
    obtain ⟨global, started⟩ := Option.isSome_iff_exists.mp running
    unfold Machine.current
    cases s.run.machine.contexts with
    | nil => exact ⟨global, by simp only [started]⟩
    | cons top rest => exact ⟨top, rfl⟩
  refine ⟨ctx, now, fun program state => ?_⟩
  have known := housed.stacked ctx (Machine.current_working now)
  have fits : s.run.Fits ctx := ⟨now, (housed.handles.houses ctx known).layer⟩
  have ends := program.restoring ctx s.run fits s.run state rfl
  cases ran : program.run ctx (s.run, state) with
  | ok a left =>
    rw [ran] at ends
    exact ends
  | error fault left =>
    rw [ran] at ends
    exact ends

/-- A filter that binds a prefix and is a unit of its own. -/
def bindingFilter : Command :=
  ⟨0, "f", .filter, some ⟨"f.xml", ⟨"urn:sample", "f"⟩⟩, none, some [("p", "urn:p")]⟩

/-- Downstream of a filter, a command within a view raises what the post-processing handles. -/
def handlingRun : Nested Unit Unit Unit :=
  .mint (.failure (.ofMessage "boom")) fun fault =>
    .filter bindingFilter rfl .pass
      (fun _ => .view (.int 2) rfl
        (.invoke (.bind (.named 1 "a") "p" "urn:q") rfl (.raise fault) fun _ => .raise fault)
        fun _ => .raise fault)
      (fun _ => some fault) .pass (fun _ => .handled) fun _ => .pass

def startedRun : Session Unit Unit :=
  (fresh .empty .standard ()).after (.calls (.start (.int 1)))

theorem handling_run_restores :
    Reached Knows startedRun ∧ startedRun.run.machine.isRunning = true ∧
      ∃ ctx, startedRun.run.machine.current = .ok ctx ∧
        startedRun.run.Restores (outcomeOf (handlingRun.run ctx (startedRun.run, ()))).2.1 := by
  have reached : Reached Knows startedRun := ⟨_, _, _, Leads.refl.step nofun⟩
  obtain ⟨ctx, now, restores⟩ := nested_restores (S := Unit) reached rfl
  exact ⟨reached, rfl, ctx, now, restores handlingRun ()⟩

end Session
end CommandChain
