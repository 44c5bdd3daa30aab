import CommandChain.Proofs.Machine.Perform

/-!
Sessions: a machine, the world it works on, and an embedder that does with both whatever the library
offers, in any order and with any arguments. The embedder knows the contexts that it was told. Calls
on the machine are kept as events, so that what was done can be told from what is on the stacks.
-/
namespace CommandChain

variable {I H : Type}

/-- What an embedder can ask for beside the calls on its machine. -/
inductive Request (I H : Type) where
  | openRoot (registry : Registry I H) (subject : Value)
  | openContext (scope : Scope) (registry : Registry I H) (subject : Value)
    (parent? : Option (Context I H))
  | openChild (ctx : Context I H) (scope : Scope) (subject : Value)
  | openView (ctx : Context I H) (subject : Value)
  | setWarns (ctx : Context I H) (warns : Bool)
  | bind (ctx : Context I H) (name : String) (uri : Option String)
  | get (ctx : Context I H) (name : VariableName) (scope : Option Scope)
  | component (ctx : Context I H) (name : QName)
  | evaluate (ctx : Context I H) (selector : String)
  | declare (ctx : Context I H) (name : VariableName) (value : Value) (scope : Option Scope)
  | undeclare (ctx : Context I H) (name : VariableName) (scope : Option Scope)
  | release (ctx : Context I H)
  | hold (ref : ComponentRef) (exclusively : Bool)
  | letGo (ref : ComponentRef)

namespace Request

def perform (w : World I H) : Request I H → Option (Context I H) × World I H
  | .openRoot registry subject => (w.openRoot registry subject).map some id
  | .openContext scope registry subject parent? =>
    (w.openContext scope registry subject parent?).map some id
  | .openChild ctx scope subject => (w.openChildIn ctx scope subject).map some id
  | .openView ctx subject => (w.openView ctx subject).map Except.toOption id
  | .setWarns ctx warns => (none, w.setWarns ctx warns)
  | .bind ctx name uri => (none, w.registerNamespace ctx name uri)
  | .get ctx name scope => (none, (outcomeOf (ctx.get name scope w)).2)
  | .component ctx name => (none, (outcomeOf (ctx.component? name w)).2)
  | .evaluate ctx selector => (none, (outcomeOf (ctx.evaluate selector w)).2)
  | .declare ctx name value scope => (none, (outcomeOf (ctx.declare name value scope w)).2)
  | .undeclare ctx name scope => (none, (outcomeOf (ctx.undeclare name scope w)).2)
  | .release ctx => (none, w.releaseComponents ctx)
  | .hold ref exclusively => (none, (w.hold? ref exclusively).getD w)
  | .letGo ref => (none, w.letGo ref)

def context? : Request I H → Option (Context I H)
  | .openChild ctx _ _ | .openView ctx _ | .setWarns ctx _ | .bind ctx _ _ | .get ctx _ _
  | .component ctx _ | .evaluate ctx _ | .declare ctx _ _ _ | .undeclare ctx _ _
  | .release ctx => some ctx
  | .openContext _ _ _ parent? => parent?
  | .openRoot _ _ | .hold _ _ | .letGo _ => none

/-- Whether a context that is opened below another one is given the registry of that one. -/
def Inherits : Request I H → Prop
  | .openContext _ registry _ parent? => ∀ parent ∈ parent?, parent.registry = registry
  | _ => True

end Request

namespace Call

def context? : Call I H → Option (Context I H)
  | .startWithin ctx | .startCommand _ ctx | .endCommand _ ctx | .startPostProcess _ ctx
  | .endPostProcess _ ctx | .startPointer ctx _ | .stopPointer ctx | .suspendPointer ctx
  | .resumePointer ctx => some ctx
  | .start _ | .finish | .exceptionThrown _ _ | .exceptionHandled _ _ => none

def command? : Call I H → Option Command
  | .startCommand command _ | .endCommand command _ | .startPostProcess command _
  | .endPostProcess command _ | .exceptionThrown command _ | .exceptionHandled command _ =>
    some command
  | .start _ | .startWithin _ | .finish | .startPointer _ _ | .stopPointer _ | .suspendPointer _
  | .resumePointer _ => none

/-- The contexts whose components a call may release. -/
def releasing (run : Run I H) : Call I H → List (Context I H)
  | .finish => run.machine.contexts ++ run.machine.suspendedContexts ++ run.machine.global.toList
  | .endCommand command _ =>
    if command.isBoundary && !command.isFilter then run.machine.contexts.take 1 else []
  | .endPostProcess command _ => if command.isBoundary then run.machine.contexts.take 1 else []
  | _ => []

end Call

inductive Interaction (I H : Type) where
  | calls (call : Call I H)
  | asks (request : Request I H)

/-- One call that was made, how it ended, and the run before and after it. -/
structure Event (I H : Type) where
  before : Run I H
  call : Call I H
  outcome : Except ExecutionError (Option (Context I H))
  after : Run I H

structure Session (I H : Type) where
  run : Run I H
  /-- The contexts that the embedder was told. -/
  known : List (Context I H)
  /-- Newest first. -/
  history : List (Event I H)

namespace Interaction

def context? : Interaction I H → Option (Context I H)
  | .calls call => call.context?
  | .asks request => request.context?

def Inherits : Interaction I H → Prop
  | .calls _ => True
  | .asks request => request.Inherits

def command? : Interaction I H → Option Command
  | .calls call => call.command?
  | .asks _ => none

def releasing (run : Run I H) : Interaction I H → List (Context I H)
  | .calls call => call.releasing run
  | .asks (.release ctx) => [ctx]
  | .asks _ => []

end Interaction

namespace Session

def fresh (registry : Registry I H) (settings : EngineSettings) (host : H) : Session I H :=
  ⟨⟨.withSettings registry settings, .start host⟩, [], []⟩

def called (s : Session I H) (call : Call I H) : Session I H :=
  let (outcome, run) := call.perform s.run
  ⟨run, outcome.toOption.join.toList ++ s.known, ⟨s.run, call, outcome, run⟩ :: s.history⟩

def requested (s : Session I H) (request : Request I H) : Session I H :=
  let (told, world) := request.perform s.run.world
  ⟨⟨s.run.machine, world⟩, told.toList ++ s.known, s.history⟩

def after (s : Session I H) : Interaction I H → Session I H
  | .calls call => s.called call
  | .asks request => s.requested request

/-- Whether an interaction is about nothing but what the embedder knows. -/
def Knows (s : Session I H) (interaction : Interaction I H) : Prop :=
  ∀ ctx ∈ interaction.context?, ctx ∈ s.known

/-- The sessions that one leads to by interactions of which each is allowed where it happens. -/
inductive Leads (allowed : Session I H → Interaction I H → Prop) (s : Session I H) :
    Session I H → Prop where
  | refl : Leads allowed s s
  | step {middle : Session I H} {interaction : Interaction I H} (before : Leads allowed s middle)
    (allows : allowed middle interaction) : Leads allowed s (middle.after interaction)

def Reached (allowed : Session I H → Interaction I H → Prop) (s : Session I H) : Prop :=
  ∃ registry settings host, Leads allowed (fresh registry settings host) s

variable {allowed : Session I H → Interaction I H → Prop}

theorem Leads.trans {s middle last : Session I H} (first : Leads allowed s middle)
    (second : Leads allowed middle last) : Leads allowed s last := by
  induction second with
  | refl => exact first
  | step _ allows ih => exact ih.step allows

theorem Leads.mono {weaker : Session I H → Interaction I H → Prop}
    (weakens : ∀ s interaction, allowed s interaction → weaker s interaction) {s last : Session I H}
    (leads : Leads allowed s last) : Leads weaker s last := by
  induction leads with
  | refl => exact .refl
  | step _ allows ih => exact ih.step (weakens _ _ allows)

theorem Reached.leads {s last : Session I H} (reached : Reached allowed s)
    (leads : Leads allowed s last) : Reached allowed last := by
  obtain ⟨registry, settings, host, first⟩ := reached
  exact ⟨registry, settings, host, first.trans leads⟩

theorem told_known {s : Session I H} {call : Call I H} {ctx : Context I H}
    (told : (call.perform s.run).1 = .ok (some ctx)) : ctx ∈ (s.called call).known := by
  simp only [called, told]
  exact List.mem_cons_self

theorem known_after {s : Session I H} {ctx : Context I H} (among : ctx ∈ s.known)
    (interaction : Interaction I H) : ctx ∈ (s.after interaction).known := by
  cases interaction <;> exact List.mem_append_right _ among

theorem Leads.known {s last : Session I H} (leads : Leads allowed s last) {ctx : Context I H}
    (among : ctx ∈ s.known) : ctx ∈ last.known := by
  induction leads with
  | refl => exact among
  | step _ _ ih => exact known_after ih _

/-- What holds of a fresh session and is preserved by what is allowed holds of all that are reached.
-/
theorem Reached.induct {motive : Session I H → Prop}
    (fresh : ∀ registry settings host, motive (fresh registry settings host))
    (step : ∀ s interaction, Reached allowed s → motive s → allowed s interaction →
      motive (s.after interaction))
    {s : Session I H} (reached : Reached allowed s) : motive s := by
  obtain ⟨registry, settings, host, leads⟩ := reached
  induction leads with
  | refl => exact fresh registry settings host
  | step before allows ih => exact step _ _ ⟨registry, settings, host, before⟩ ih allows

def play (s : Session I H) (interactions : List (Interaction I H)) : Session I H :=
  interactions.foldl after s

/-- Whether interactions are allowed, each where it happens, one after the other. -/
def Permits (allowed : Session I H → Interaction I H → Prop) :
    Session I H → List (Interaction I H) → Prop
  | _, [] => True
  | s, first :: rest => allowed s first ∧ Permits allowed (s.after first) rest

theorem Permits.leads {s : Session I H} {interactions : List (Interaction I H)}
    (permits : Permits allowed s interactions) : Leads allowed s (s.play interactions) := by
  induction interactions generalizing s with
  | nil => exact .refl
  | cons first rest ih => exact (Leads.refl.step permits.1).trans (ih permits.2)

theorem Permits.and {interactions : List (Interaction I H)} {s : Session I H}
    {holds : Interaction I H → Prop} (permits : Permits allowed s interactions)
    (each : ∀ interaction ∈ interactions, holds interaction) :
    Permits (fun s interaction => allowed s interaction ∧ holds interaction) s interactions := by
  induction interactions generalizing s with
  | nil => trivial
  | cons first rest ih =>
    obtain ⟨here, others⟩ := List.forall_mem_cons.mp each
    exact ⟨⟨permits.1, here⟩, ih permits.2 others⟩

theorem reached_play (registry : Registry I H) (settings : EngineSettings) (host : H)
    (interactions : List (Interaction I H)) :
    Reached (fun _ _ => True) ((fresh registry settings host).play interactions) := by
  have permits (s : Session I H) : Permits (fun _ _ => True) s interactions := by
    induction interactions generalizing s with
    | nil => trivial
    | cons first rest ih => exact ⟨trivial, ih _⟩
  exact ⟨registry, settings, host, (permits _).leads⟩

end Session

/-! ### Machines without a run -/

/-- Whether nothing is on the stacks of a machine while there is no run. -/
def Machine.Quiet (m : Machine I H) : Prop := m.global = none → m.cleared = m

namespace Machine.Quiet

variable {m m' : Machine I H}

theorem running_of_current (quiet : m.Quiet) {current : Context I H}
    (now : m.current = .ok current) : m.global ≠ none := by
  intro stopped
  rw [← quiet stopped] at now
  cases now

theorem running_of_frames (quiet : m.Quiet) {frame : Frame I H} {rest : List (Frame I H)}
    (frames : m.frames = frame :: rest) : m.global ≠ none := by
  intro stopped
  rw [← quiet stopped] at frames
  cases frames

theorem of_running (running : m.global ≠ none) (same : m'.global = m.global) : m'.Quiet :=
  fun stopped => absurd (same ▸ stopped) running

end Machine.Quiet

theorem Effect.quiet {run run' : Run I H} {call : Call I H}
    {outcome : Except ExecutionError (Option (Context I H))} (effect : Effect run call outcome run')
    (quiet : run.machine.Quiet) : run'.machine.Quiet := by
  have running_here {ctx : Context I H} (here : run.At ctx) : run.machine.global ≠ none := by
    obtain ⟨current, now, -⟩ := here
    exact quiet.running_of_current now
  have departing {command : Command} {ctx : Context I H} {keeps : Bool} {undone : Run I H}
      {frame : Frame I H} {rest : List (Frame I H)}
      (departs : Departs run call command ctx keeps undone frame rest)
      (same : run'.machine.global = undone.machine.global) : run'.machine.Quiet := by
    obtain ⟨prefixes, undoing⟩ := departs.machine
    rw [undoing] at same
    exact .of_running (running_here departs.here) same
  cases effect with
  | rejected | unused => exact quiet
  | begun => exact fun stopped => by cases stopped
  | ended => exact fun _ => rfl
  | enteredUnit _ now | entered _ now =>
    exact .of_running (quiet.running_of_current now) (by simp)
  | left departs | leftUnit departs => exact departing departs (by simp)
  | tornContext departs | tornTrace departs => exact departing departs rfl
  | resumed resumes | resumedUnit resumes =>
    exact .of_running (running_here resumes.here) (by simp)
  | viewed here | viewLeft _ here | viewResumed here =>
    exact .of_running (running_here here) rfl
  | thrown frames | handled frames => exact .of_running (quiet.running_of_frames frames) rfl

theorem Session.Reached.quiet {allowed : Session I H → Interaction I H → Prop} {s : Session I H}
    (reached : Reached allowed s) : s.run.machine.Quiet := by
  refine Reached.induct (motive := fun s => s.run.machine.Quiet) ?_ ?_ reached
  · exact fun _ _ _ _ => rfl
  · intro s interaction _ quiet _
    cases interaction with
    | calls call => exact (Machine.perform_effect s.run call).quiet quiet
    | asks request => exact quiet

end CommandChain
