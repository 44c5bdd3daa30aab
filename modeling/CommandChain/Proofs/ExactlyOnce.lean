import CommandChain.Proofs.World.Sparing

/-!
What the end of a run releases. A context that a run opened stays on one of the stacks until it is
released, so when all that is on the stacks is released, it is too; and an instance in a table stays
there until its end hooks have run. Nobody may hold an instance while it is released: its end hooks
are not run then.
-/
namespace CommandChain

variable {I H : Type}

/-- Whether a call opens a context for a run: the global one, or that of a registered command. -/
def Call.opensContext : Call I H → Bool
  | .start _ | .startWithin _ => true
  | .startCommand command _ => command.isBoundary
  | _ => false

def Event.opened? (event : Event I H) : Option (Context I H) :=
  if event.call.opensContext then event.outcome.toOption.join else none

theorem Event.opened?_eq_some {event : Event I H} {ctx : Context I H} :
    event.opened? = some ctx ↔ event.call.opensContext = true ∧ event.outcome = .ok (some ctx) := by
  obtain ⟨before, call, outcome, after⟩ := event
  cases outcome <;> simp [opened?, Except.toOption]

section

variable {run run' : Run I H} {call : Call I H}
  {outcome : Except ExecutionError (Option (Context I H))}

/-- A context that owns its table comes off the stacks by its release alone. -/
theorem Effect.owner_stays (effect : Effect run call outcome run') {ctx : Context I H}
    (member : ctx ∈ run.machine.working) (owner : ctx.isPointer = false) :
    ctx ∈ run'.machine.working ∨ run'.world.isReleased ctx = true := by
  cases effect with
  | rejected | unused | thrown | handled => exact .inl member
  | begun opens idle =>
    rw [Machine.isRunning, Option.isSome_eq_false_iff, Option.isNone_iff_eq_none] at idle
    rw [Machine.mem_working] at member ⊢
    rcases member with active | suspended | global
    · exact .inl (.inl active)
    · exact .inl (.inr (.inl suspended))
    · rw [idle] at global
      cases global
  | ended running =>
    have ended : (run.world.endContexts run.machine.working).isReleased ctx = true :=
      World.released_endContexts (.inr ⟨member, owner⟩)
    rw [Machine.endContexts_working running] at ended
    exact .inr ended
  | enteredUnit =>
    rw [Run.bound_working, Machine.located_working]
    exact .inl (List.mem_cons_of_mem _ member)
  | viewed => exact .inl (List.mem_cons_of_mem _ member)
  | entered =>
    rw [Run.bound_working, Machine.located_working]
    exact .inl member
  | resumed =>
    rw [Run.bound_working, Machine.marked_working, Machine.located_working]
    exact .inl member
  | resumedUnit resumes unit contexts =>
    rw [Run.bound_working, Machine.marked_working, Machine.located_working]
    exact .inl ((Machine.mem_working_resumed contexts).mpr member)
  | viewResumed here pointer contexts =>
    exact .inl ((Machine.mem_working_resumed contexts).mpr member)
  | left departs =>
    obtain ⟨prefixes, same⟩ := departs.machine
    rw [Machine.located_working, same]
    exact .inl member
  | tornContext departs =>
    obtain ⟨prefixes, same⟩ := departs.machine
    rw [same]
    exact .inl member
  | leftUnit departs unit contexts trace =>
    rename_i keeps undone frame rest top outer entry entries log
    obtain ⟨prefixes, same⟩ := departs.machine
    rw [Machine.located_working, same]
    rcases (Machine.mem_working_dropped contexts keeps).mp member with there | ⟨rfl, rfl⟩
    · exact .inl there
    · exact .inr (World.released_endContext owner)
  | tornTrace departs unit contexts trace =>
    rename_i keeps undone frame rest top outer
    obtain ⟨prefixes, same⟩ := departs.machine
    rw [same]
    rcases (Machine.mem_working_dropped contexts keeps).mp member with there | ⟨rfl, rfl⟩
    · exact .inl there
    · exact .inr (World.released_endContext owner)
  | viewLeft unviews here pointer contexts =>
    rename_i view keeps top outer
    rcases (Machine.mem_working_dropped contexts keeps).mp member with there | ⟨rfl, rfl⟩
    · exact .inl there
    · exact .inr (World.released_endContext owner)

theorem Effect.opened (effect : Effect run call outcome run') (sound : run.world.Sound)
    (around : ∀ ctx ∈ call.context?, run.world.Houses ctx)
    (inside : ∀ ctx ∈ run.machine.working, run.world.Houses ctx) {ctx : Context I H}
    (opens : call.opensContext = true) (told : outcome = .ok (some ctx)) :
    ctx ∈ run'.machine.working ∧ ctx.isPointer = false := by
  have departing {departure : Command × Context I H × Bool}
      (departs : call.departure = some departure) : ¬ call.opensContext = true := by
    rcases Call.of_departure departs with ⟨rfl, -⟩ | ⟨rfl, -⟩ <;> exact Bool.false_ne_true
  cases effect with
  | rejected | unused | tornContext | tornTrace => cases told
  | begun opening =>
    cases told
    refine ⟨?_, (opening_opens sound around opening).2.1⟩
    rw [Machine.mem_working]
    exact .inr (.inr rfl)
  | ended | resumed | resumedUnit | viewed | viewResumed | thrown | handled => cases opens
  | enteredUnit unit now shallow opening =>
    cases told
    refine ⟨?_, (openChild_opens sound (inside _ (Machine.current_working now)) opening).2.1⟩
    rw [Machine.mem_working]
    simp
  | entered plain =>
    simp [Call.opensContext, Command.isBoundary, plain] at opens
  | left departs | leftUnit departs => exact absurd opens (departing departs.departure)
  | viewLeft unviews =>
    rcases Call.of_unviewing unviews with ⟨rfl, -⟩ | ⟨rfl, -⟩ <;> cases opens

end

namespace Session

/-- The contexts that the calls of a session opened for its runs. -/
def opened (s : Session I H) : List (Context I H) := s.history.filterMap Event.opened?

/-- Whether an interaction is about nothing but what the embedder knows, and releases no instance
that somebody holds. -/
def Careful (s : Session I H) (interaction : Interaction I H) : Prop :=
  s.Knows interaction ∧ s.run.world.Unheld (interaction.releasing s.run)

variable {s t last : Session I H} {interaction : Interaction I H}

theorem Reached.careful (reached : Reached Careful s) : s.Housed :=
  reached.housed fun _ _ careful => careful.1

theorem Leads.tended (reached : Reached Careful s) (leads : Leads Careful s last) :
    s.run.world.Tended last.run.world := by
  induction leads with
  | refl => exact (World.Calm.refl _).tended
  | step before careful ih =>
    have turn := (reached.leads before).careful.turn careful.1
    exact ih.trans reached.careful.sound (turn.tended careful.2)

/-- Whether every opened context owns its table and is on the stacks or released. -/
def Retains (s : Session I H) : Prop :=
  ∀ ctx ∈ s.opened, ctx.isPointer = false ∧
    (ctx ∈ s.run.machine.working ∨ s.run.world.isReleased ctx = true)

theorem Reached.known_retains (reached : Reached Knows s) : s.Retains := by
  refine reached.induct (fun _ _ _ => nofun) fun s interaction reached ih knows => ?_
  have housed := reached.known_housed
  cases interaction with
  | asks request =>
    intro ctx member
    obtain ⟨owner, there⟩ := ih ctx member
    refine ⟨owner, there.imp_right fun was => ?_⟩
    exact (request.released s.run.world _ (housed.sound.released_below was)).trans was
  | calls call =>
    have effect := Machine.perform_effect s.run call
    intro ctx member
    rcases List.mem_filterMap.mp member with ⟨event, among, opens⟩
    rcases List.mem_cons.mp among with rfl | earlier
    · obtain ⟨opening, told⟩ := Event.opened?_eq_some.mp opens
      have houses : ∀ ctx ∈ s.known, s.run.world.Houses ctx := housed.handles.houses
      have settled := effect.opened housed.sound (fun _ named => houses _ (knows _ named))
        (fun _ stacked => houses _ (housed.stacked _ stacked)) opening told
      exact ⟨settled.2, .inl settled.1⟩
    · obtain ⟨owner, there⟩ := ih ctx (List.mem_filterMap.mpr ⟨event, earlier, opens⟩)
      refine ⟨owner, there.elim (fun working => effect.owner_stays working owner) fun was => ?_⟩
      exact .inr (effect.released (housed.sound.released_below was) was)

theorem Reached.retains (reached : Reached Careful s) : s.Retains := by
  obtain ⟨registry, settings, host, leads⟩ := reached
  exact Reached.known_retains ⟨registry, settings, host, leads.mono fun _ _ careful => careful.1⟩

/-- Once a run has ended, all that was opened is released and the stacks are empty; every instance
that was in a table of an opened context at any time has run each of its end hooks once, in order;
and nothing comes into these tables any more, whatever is done from then on. -/
theorem finish_releases (reached : Reached Careful s) (leads : Leads Careful s t)
    (running : t.run.machine.isRunning = true) (careful : t.Careful (.calls .finish))
    (later : Leads Careful (t.called .finish) last) :
    ((t.called .finish).run.machine.frames = [] ∧
      (t.called .finish).run.machine.suspendedFrames = [] ∧
      (t.called .finish).run.machine.trace = [] ∧
      (t.called .finish).run.machine.suspendedTrace = [] ∧
      (t.called .finish).run.machine.contexts = [] ∧
      (t.called .finish).run.machine.suspendedContexts = [] ∧
      (t.called .finish).run.machine.prefixes = []) ∧
    ∀ ctx ∈ t.opened, last.run.world.isReleased ctx = true ∧
      (last.run.world.tableOf ctx).components = [] ∧
      ∀ entry, s.run.world.Caches ctx.node.table entry →
        last.run.world.endRuns entry.2.ref.id = entry.2.descriptor.endHookNames := by
  have ending : Leads Careful t (t.called .finish) := Leads.refl.step careful
  have here := reached.leads leads
  have ended := here.leads ending
  obtain ⟨-, global, log, -, stopped⟩ :=
    (Machine.perform_effect t.run .finish).of_finish running
  have machine : (t.called .finish).run.machine = t.run.machine.cleared :=
    congrArg Run.machine stopped
  refine ⟨by simp [machine, Machine.cleared], fun ctx member => ?_⟩
  have opened : ctx ∈ (t.called .finish).opened := List.mem_filterMap.mpr <| by
    obtain ⟨event, among, opens⟩ := List.mem_filterMap.mp member
    exact ⟨event, List.mem_cons_of_mem _ among, opens⟩
  have released : (t.called .finish).run.world.isReleased ctx = true := by
    rcases (ended.retains ctx opened).2 with working | released
    · rw [machine] at working
      cases working
    · exact released
  have stays : last.run.world.isReleased ctx = true := (later.tended ended).released _ released
  have empty := (ended.leads later).careful.sound.vacant _ stays
  refine ⟨stays, empty, fun entry caches => ?_⟩
  have tended := ((leads.trans ending).trans later).tended reached
  rcases tended.stays _ entry caches with there | ran
  · rw [World.Caches, empty] at there
    cases there
  · exact ran.2

/-! ### A filter that is never resumed -/

/-- A component with two end hooks, of which the first fails. -/
def flaky : Descriptor Unit Unit :=
  (((Descriptor.of "Flaky" ⟨"urn:sample", "flaky"⟩ ()).inScope .chain).onEnd "first"
    (throw (.ofMessage "no"))).onEnd "second" (pure ())

def flakyRegistry : Registry Unit Unit := ⟨[(flaky.name, flaky)], .empty, []⟩

def flakyGlobal : Context Unit Unit :=
  ⟨⟨0, 0, .execution, flakyRegistry, .int 1, ⟨0, []⟩, true⟩, []⟩

def flakyOwn : Context Unit Unit :=
  ⟨⟨1, 1, .chain, flakyRegistry, .int 1, ⟨1, [0]⟩, true⟩, [flakyGlobal.node]⟩

def flakyFilter : Command := ⟨0, "f", .filter, some ⟨"f.xml", ⟨"urn:sample", "f"⟩⟩, none, none⟩

/-- A filter that makes the component in its context and is suspended. -/
def flakyRun : List (Interaction Unit Unit) :=
  [.calls (.start (.int 1)), .calls (.startCommand flakyFilter flakyGlobal),
    .asks (.component flakyOwn flaky.name), .calls (.endCommand flakyFilter flakyOwn)]

def suspended : Session Unit Unit := (fresh flakyRegistry .standard ()).play flakyRun

theorem suspended_filter_released :
    Reached Careful suspended ∧ suspended.run.machine.isRunning = true ∧
      suspended.Careful (.calls .finish) ∧ flakyOwn ∈ suspended.opened ∧
      suspended.run.world.Caches flakyOwn.node.table (flaky.name, ⟨⟨0, "Flaky"⟩, flaky⟩) ∧
      (suspended.called .finish).run.world.isReleased flakyOwn = true ∧
      (suspended.called .finish).run.world.endRuns 0 = ["first", "second"] := by
  have unheld : suspended.run.world.Unheld
      ((Interaction.calls .finish).releasing suspended.run) := by
    rintro ctx - entry - ⟨cell, there, held⟩
    have only : (if 0 = entry.2.ref.id then some (Cell.mk "Flaky" () .free) else none) =
      some cell := there
    split at only
    · cases only
      exact held rfl
    · cases only
  have permits : Permits Careful (fresh flakyRegistry .standard ()) flakyRun := by
    refine ⟨⟨nofun, nofun⟩, ⟨?_, nofun⟩, ⟨?_, nofun⟩, ⟨?_, nofun⟩, trivial⟩
    · rintro _ ⟨⟩
      exact List.mem_cons_self
    · rintro _ ⟨⟩
      exact List.mem_cons_self
    · rintro _ ⟨⟩
      exact List.mem_cons_self
  have reached : Reached Careful suspended := ⟨_, _, _, permits.leads⟩
  have careful : suspended.Careful (.calls .finish) := ⟨nofun, unheld⟩
  have opened : flakyOwn ∈ suspended.opened := List.mem_cons_self
  have caches : suspended.run.world.Caches flakyOwn.node.table
    (flaky.name, ⟨⟨0, "Flaky"⟩, flaky⟩) := List.mem_cons_self
  obtain ⟨released, -, ran⟩ := (finish_releases reached .refl rfl careful .refl).2 _ opened
  exact ⟨reached, rfl, careful, opened, caches, released, ran _ caches⟩

end Session
end CommandChain
