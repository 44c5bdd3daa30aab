import CommandChain.Proofs.World.Chains

/-!
A run and the context that it was started within. A machine without a run holds no context, and
every context that comes to it later lies over a table and in a layer that was handed out later, or
is a view of one that does. Bindings, releases and views go to the contexts that a machine holds. So
what was there when the run began, the context that it was started within among it, stays as it is
in every call on the machine, and changes only where the embedder itself asks for it.
-/
namespace CommandChain

variable {I H : Type}

/-- How many tables and layers were handed out by some moment. -/
structure Frontier where
  table : Nat
  layer : Nat

def World.frontier (w : World I H) : Frontier := ⟨w.tables.next, w.layers.next⟩

namespace Frontier

structure Passed (f : Frontier) (w : World I H) : Prop where
  table : f.table ≤ w.tables.next
  layer : f.layer ≤ w.layers.next

theorem Passed.mono {f : Frontier} {w w' : World I H} (passed : f.Passed w)
    (nextTable : w.tables.next ≤ w'.tables.next) (nextLayer : w.layers.next ≤ w'.layers.next) :
    f.Passed w' :=
  ⟨Nat.le_trans passed.table nextTable, Nat.le_trans passed.layer nextLayer⟩

/-- Whether the table and the layer of a context were handed out later. -/
structure Precedes (f : Frontier) (ctx : Context I H) : Prop where
  table : f.table ≤ ctx.node.table
  layer : f.layer ≤ ctx.namespaces.layer

/-- Whether the layers and tables that were handed out before are as they were, and so are the
instances in them. -/
structure Shields (f : Frontier) (w w' : World I H) : Prop where
  layers : Layers.Same f.layer w.layers w'.layers
  tables : ∀ id < f.table, w'.table id = w.table id
  unended : ∀ id < f.table, ∀ entry, w.Caches id entry →
    w'.endRuns entry.2.ref.id = w.endRuns entry.2.ref.id

variable {f : Frontier} {w middle w' : World I H} {ctx : Context I H}

namespace Shields

theorem of_same (layers : w'.layers = w.layers) (tables : w'.tables = w.tables)
    (hookRuns : w'.hookRuns = w.hookRuns) : f.Shields w w' where
  layers _ _ := by rw [layers]
  tables _ _ := by rw [World.table, tables, World.table]
  unended _ _ _ _ := by rw [World.endRuns, hookRuns, World.endRuns]

theorem refl (w : World I H) : f.Shields w w := of_same rfl rfl rfl

theorem trans (first : f.Shields w middle) (second : f.Shields middle w') : f.Shields w w' where
  layers := first.layers.trans second.layers (Nat.le_refl _)
  tables id below := (second.tables id below).trans (first.tables id below)
  unended id below entry caches := by
    have kept : middle.Caches id entry := by
      rw [World.Caches, first.tables id below]
      exact caches
    rw [second.unended id below entry kept, first.unended id below entry caches]

theorem changeTable (w : World I H) (precedes : f.Precedes ctx)
    (change : Table I H → Table I H) : f.Shields w (w.changeTable ctx change) where
  layers _ _ := rfl
  tables id below := by
    have differ : ctx.node.table ≠ id :=
      Nat.ne_of_gt (Nat.lt_of_lt_of_le below precedes.table)
    rw [World.table_changeTable, if_neg differ]
  unended _ _ _ _ := rfl

theorem setLayer (w : World I H) (precedes : f.Precedes ctx) (layer : Layer) :
    f.Shields w { w with layers := w.layers.set ctx.namespaces.layer layer } where
  layers id below := by
    have differ : ctx.namespaces.layer ≠ id :=
      Nat.ne_of_gt (Nat.lt_of_lt_of_le below precedes.layer)
    rw [get_set_layer, if_neg differ]
  tables _ _ := rfl
  unended _ _ _ _ := rfl

theorem newContext (passed : f.Passed w) (scope : Scope) (registry : Registry I H)
    (subject : Value) (parent? : Option (Context I H)) (warns : Bool) :
    f.Shields w (w.newContext scope registry subject parent? warns).2 := by
  obtain ⟨tables, -, hookRuns, -, -⟩ := World.newContext_adds w scope registry subject parent? warns
  constructor
  case layers =>
    intro id below
    have differ : w.layers.next ≠ id := Nat.ne_of_gt (Nat.lt_of_lt_of_le below passed.layer)
    cases parent? <;> exact Store.get_add_of_ne w.layers _ differ
  case tables =>
    intro id below
    have differ : w.tables.next ≠ id := Nat.ne_of_gt (Nat.lt_of_lt_of_le below passed.table)
    rw [World.table, tables]
    exact Store.get_add_of_ne w.tables _ differ
  case unended =>
    intro _ _ _ _
    rw [World.endRuns, hookRuns, World.endRuns]

theorem endContext (sound : w.Sound) (precedes : f.Precedes ctx) :
    f.Shields w (w.endContext ctx) := by
  have apart {id : Nat} (below : id < f.table) : ctx.node.table ≠ id :=
    Nat.ne_of_gt (Nat.lt_of_lt_of_le below precedes.table)
  have releases : f.Shields w (w.releaseTable ctx.node.table) := by
    have runs := World.runs_releaseTable w ctx.node.table
    constructor
    case layers =>
      intro _ _
      rw [runs.layers]
      rfl
    case tables =>
      intro id below
      rw [World.table_releaseTable, if_neg (apart below)]
    case unended =>
      intro id below entry caches
      exact runs.others _ (sound.other (apart below) caches)
  rw [World.endContext_eq]
  split
  · exact .refl w
  · have retires : f.Shields (w.releaseTable ctx.node.table)
        ((w.releaseTable ctx.node.table).retired ctx) := .changeTable _ precedes _
    exact (releases.trans retires).trans (.of_same rfl rfl rfl)

theorem endContexts {contexts : List (Context I H)} (sound : w.Sound)
    (inside : ∀ ctx ∈ contexts, ctx.node.table < w.tables.next)
    (precedes : ∀ ctx ∈ contexts, f.Precedes ctx) : f.Shields w (w.endContexts contexts) := by
  induction contexts generalizing w with
  | nil => exact .refl w
  | cons ctx rest ih =>
    have first := List.mem_cons_self (a := ctx) (l := rest)
    rw [World.endContexts_cons]
    refine (endContext sound (precedes ctx first)).trans ?_
    refine ih (sound.endContext (inside ctx first)) (fun other member => ?_)
      fun other member => precedes other (List.mem_cons_of_mem _ member)
    rw [(World.next_endContext w ctx).2]
    exact inside other (List.mem_cons_of_mem _ member)

end Shields

theorem Passed.opened (passed : f.Passed w) {scope : Scope} {registry : Registry I H}
    {subject : Value} {parent? : Option (Context I H)} {warns : Bool}
    (opens : w.newContext scope registry subject parent? warns = (ctx, w')) :
    f.Precedes ctx ∧ f.Shields w w' := by
  obtain ⟨table, layer, -⟩ := World.newContext_node opens
  have shields := Shields.newContext passed scope registry subject parent? warns
  rw [opens] at shields
  exact ⟨⟨table ▸ passed.table, layer ▸ passed.layer⟩, shields⟩

theorem Passed.opened_child (passed : f.Passed w) {parent : Context I H} {subject : Value}
    (opens : w.openChild parent subject = (ctx, w')) : f.Precedes ctx ∧ f.Shields w w' := by
  unfold World.openChild World.openChildIn at opens
  exact passed.opened opens

theorem Precedes.view {view : Context I H} {subject : Value} (precedes : f.Precedes ctx)
    (opens : w.openView ctx subject = (.ok view, w')) : f.Precedes view := by
  obtain ⟨table, namespaces, -⟩ := World.openView_node opens
  exact ⟨table ▸ precedes.table, namespaces ▸ precedes.layer⟩

end Frontier

/-! ### The contexts that a machine holds -/

namespace Machine

variable {m : Machine I H} {ctx : Context I H}

theorem mem_heldContexts : ctx ∈ m.heldContexts ↔
    ctx ∈ m.working ∨ ∃ frame ∈ m.prefixes, frame.context = ctx := by
  simp [heldContexts, mem_working, or_assoc, or_left_comm]

def Beyond (f : Frontier) (m : Machine I H) : Prop := ∀ ctx ∈ m.heldContexts, f.Precedes ctx

theorem Beyond.working {f : Frontier} (beyond : m.Beyond f) (member : ctx ∈ m.working) :
    f.Precedes ctx :=
  beyond ctx (mem_heldContexts.mpr (.inl member))

theorem Quiet.beyond (quiet : m.Quiet) (stopped : m.global = none) (f : Frontier) :
    m.Beyond f := by
  rw [← quiet stopped]
  exact nofun

end Machine

section

variable {run run' : Run I H} {f : Frontier}

theorem Run.bound_prefixes (run : Run I H) (ctx : Context I H) (command : Command) :
    ∀ frame ∈ (run.bound ctx command).machine.prefixes, frame.context = ctx ∨
      ∃ old ∈ run.machine.prefixes, old.context = frame.context := by
  rcases run.bound_cases ctx command with
    ⟨-, same⟩ | ⟨mappings, -, ⟨top, rest, stack, -, same⟩ | ⟨text, same⟩⟩
  · rw [same]
    exact fun frame member => .inr ⟨frame, member, rfl⟩
  · rw [same, stack]
    intro frame member
    rcases List.mem_cons.mp member with rfl | member
    · exact .inr ⟨top, List.mem_cons_self, rfl⟩
    · exact .inr ⟨frame, List.mem_cons_of_mem _ member, rfl⟩
  · rw [same]
    intro frame member
    rcases List.mem_cons.mp member with rfl | member
    · exact .inl rfl
    · exact .inr ⟨frame, member, rfl⟩

theorem Run.unbound_prefixes {undone : Run I H} {ctx : Context I H} {command : Command}
    (undoes : run.unbound ctx command = .ok undone) :
    ∀ frame ∈ undone.machine.prefixes, ∃ old ∈ run.machine.prefixes,
      old.context = frame.context := by
  rcases Run.unbound_cases undoes with
    ⟨-, rfl⟩ | ⟨mappings, top, rest, -, stack, ⟨again, -, rfl⟩ | ⟨-, rfl⟩⟩
  · exact fun frame member => ⟨frame, member, rfl⟩
  · rw [stack]
    intro frame member
    rcases List.mem_cons.mp member with rfl | member
    · exact ⟨top, List.mem_cons_self, rfl⟩
    · exact ⟨frame, List.mem_cons_of_mem _ member, rfl⟩
  · rw [stack]
    exact fun frame member => ⟨frame, List.mem_cons_of_mem _ member, rfl⟩

theorem Run.bound_shields (run : Run I H) {ctx : Context I H} (precedes : f.Precedes ctx)
    (command : Command) : f.Shields run.world (run.bound ctx command).world := by
  rcases run.bound_cases ctx command with
    ⟨-, same⟩ | ⟨mappings, -, ⟨top, rest, -, -, same⟩ | ⟨text, same⟩⟩
  · rw [same]
    exact .refl _
  · rw [same]
    exact .refl _
  · rw [same]
    have overridden : f.Shields run.world (run.world.overrideBindings ctx mappings).2 :=
      .setLayer run.world precedes _
    exact overridden.trans (.of_same rfl rfl rfl)

theorem Run.unbound_shields {undone : Run I H} {ctx : Context I H} {command : Command}
    (beyond : run.machine.Beyond f) (undoes : run.unbound ctx command = .ok undone) :
    f.Shields run.world undone.world := by
  rcases Run.unbound_cases undoes with
    ⟨-, rfl⟩ | ⟨mappings, top, rest, -, stack, ⟨again, -, rfl⟩ | ⟨-, rfl⟩⟩
  · exact .refl _
  · exact .refl _
  · have bound := beyond top.context
      (Machine.mem_heldContexts.mpr (.inr ⟨top, stack ▸ List.mem_cons_self, rfl⟩))
    exact .setLayer run.world bound _

/-! ### Calls -/

variable {call : Call I H} {outcome : Except ExecutionError (Option (Context I H))}

theorem Call.opening_precedes {global : Context I H} {world : World I H}
    (passed : f.Passed run.world) (opens : call.opening run = some (global, world)) :
    f.Precedes global ∧ f.Shields run.world world := by
  cases call with
  | start subject => exact passed.opened (Option.some.inj opens)
  | startWithin parent => exact passed.opened_child (Option.some.inj opens)
  | _ => cases opens

theorem Effect.prefixes (effect : Effect run call outcome run') :
    ∀ frame ∈ run'.machine.prefixes, outcome = .ok (some frame.context) ∨
      ∃ old ∈ run.machine.prefixes, old.context = frame.context := by
  intro frame member
  have bound {m : Machine I H} {w : World I H} {told : Context I H} {command : Command}
      (prefixes : m.prefixes = run.machine.prefixes) (tells : outcome = .ok (some told))
      (member : frame ∈ (Run.bound ⟨m, w⟩ told command).machine.prefixes) :
      outcome = .ok (some frame.context) ∨
        ∃ old ∈ run.machine.prefixes, old.context = frame.context := by
    rcases Run.bound_prefixes _ told command frame member with same | ⟨old, there, same⟩
    · exact .inl (same ▸ tells)
    · exact .inr ⟨old, prefixes ▸ there, same⟩
  cases effect with
  | rejected | unused | begun | viewed | viewLeft | viewResumed | thrown | handled =>
    exact .inr ⟨frame, member, rfl⟩
  | ended => cases member
  | enteredUnit | entered | resumed | resumedUnit => exact bound (by simp) rfl member
  | left departs | leftUnit departs | tornContext departs | tornTrace departs =>
    exact .inr (Run.unbound_prefixes departs.undoes frame (by simpa using member))

theorem Effect.told_precedes (effect : Effect run call outcome run') {known : List (Context I H)}
    (handles : Handles run.world known) (stacked : ∀ ctx ∈ run.machine.working, ctx ∈ known)
    (named : ∀ ctx ∈ call.context?, ctx ∈ known) (passed : f.Passed run.world)
    (beyond : run.machine.Beyond f) {told : Context I H} (tells : outcome = .ok (some told)) :
    f.Precedes told := by
  have held {m : Machine I H} (same : ∀ ctx ∈ m.working, ctx ∈ run.machine.working)
      (tells : m.current.map some = .ok (some told)) : f.Precedes told :=
    beyond.working (same told (Machine.current_working_some tells))
  cases effect with
  | rejected | unused | thrown | handled | tornContext | tornTrace => cases tells
  | begun opens =>
    cases tells
    exact (Call.opening_precedes passed opens).1
  | ended =>
    unfold Machine.verdict at tells
    split at tells <;> cases tells
  | enteredUnit unit now shallow opens =>
    cases tells
    exact (passed.opened_child opens).1
  | entered plain now | resumed resumes plain now =>
    cases tells
    exact beyond.working (Machine.current_working now)
  | left departs =>
    obtain ⟨prefixes, same⟩ := departs.machine
    refine held (fun ctx member => ?_) tells
    rw [Machine.located_working, same] at member
    exact member
  | leftUnit departs unit contexts =>
    obtain ⟨prefixes, same⟩ := departs.machine
    refine held (fun ctx member => ?_) tells
    rw [Machine.located_working, same] at member
    exact (Machine.mem_working_dropped contexts _).mpr (.inl member)
  | resumedUnit resumes unit contexts | viewResumed here pointer contexts =>
    cases tells
    exact beyond.working (by simp [Machine.working, contexts])
  | viewed here opens =>
    cases tells
    obtain ⟨current, now, same⟩ := here
    have there := Machine.current_working now
    -- the context that is viewed is the current one
    cases handles.unique _ (stacked _ there) _ (named _ rfl) same
    exact (beyond.working there).view opens
  | viewLeft unviews here pointer contexts =>
    exact held (fun ctx member => (Machine.mem_working_dropped contexts _).mpr (.inl member)) tells

/-- A call leaves alone what was there before the contexts that the machine holds. -/
theorem Effect.shields (effect : Effect run call outcome run') (sound : run.world.Sound)
    (inside : ∀ ctx ∈ run.machine.working, run.world.Houses ctx) (passed : f.Passed run.world)
    (beyond : run.machine.Beyond f) : f.Shields run.world run'.world := by
  have logged (w : World I H) (log : List LogEntry) : f.Shields w (w.logged log) :=
    .of_same rfl rfl rfl
  have bound (m : Machine I H) {w : World I H} (log : List LogEntry) {ctx : Context I H}
      (precedes : f.Precedes ctx) (command : Command) (shields : f.Shields run.world w) :
      f.Shields run.world (Run.bound ⟨m, w.logged log⟩ ctx command).world :=
    (shields.trans (logged w log)).trans (Run.bound_shields ⟨m, w.logged log⟩ precedes command)
  have departed {undone : Run I H} {command : Command} {ctx top : Context I H} {keeps : Bool}
      {frame : Frame I H} {rest : List (Frame I H)} {outer : List (Context I H)}
      (departs : Departs run call command ctx keeps undone frame rest)
      (contexts : run.machine.contexts = top :: outer) :
      f.Shields run.world (if keeps then undone.world else undone.world.endContext top) := by
    have undoing := Run.unbound_shields beyond departs.undoes
    split
    · exact undoing
    · have still := (unbound_alike departs.undoes).calm.sound sound
      exact undoing.trans (.endContext still
        (beyond.working (by simp [Machine.working, contexts])))
  cases effect with
  | rejected | viewResumed => exact .refl _
  | thrown | handled => exact logged _ _
  | unused opens => exact (Call.opening_precedes passed opens).2
  | begun opens =>
    obtain ⟨precedes, opened⟩ := Call.opening_precedes passed opens
    exact (opened.trans (.changeTable _ precedes _)).trans (logged _ _)
  | ended running =>
    have ended : f.Shields run.world (run.world.endContexts run.machine.working) :=
      .endContexts sound (fun ctx member => (inside ctx member).table)
        fun ctx member => beyond.working member
    rw [Machine.endContexts_working running] at ended
    exact ended.trans (logged _ _)
  | enteredUnit unit now shallow opens =>
    obtain ⟨precedes, opened⟩ := passed.opened_child opens
    exact bound _ _ precedes _ opened
  | entered plain now | resumed resumes plain now =>
    exact bound _ _ (beyond.working (Machine.current_working now)) _ (.refl _)
  | resumedUnit resumes unit contexts =>
    exact bound _ _ (beyond.working (by simp [Machine.working, contexts])) _ (.refl _)
  | left departs => exact (Run.unbound_shields beyond departs.undoes).trans (logged _ _)
  | leftUnit departs unit contexts => exact (departed departs contexts).trans (logged _ _)
  | tornContext departs => exact (Run.unbound_shields beyond departs.undoes :)
  | tornTrace departs unit contexts => exact departed departs contexts
  | viewed here opens =>
    unfold World.openView at opens
    split at opens <;> cases opens
    exact .of_same rfl rfl rfl
  | viewLeft unviews here pointer contexts =>
    split
    · exact .refl _
    · exact .endContext sound (beyond.working (by simp [Machine.working, contexts]))

theorem Effect.beyond (effect : Effect run call outcome run') {known : List (Context I H)}
    (handles : Handles run.world known) (stacked : ∀ ctx ∈ run.machine.working, ctx ∈ known)
    (named : ∀ ctx ∈ call.context?, ctx ∈ known) (passed : f.Passed run.world)
    (beyond : run.machine.Beyond f) : run'.machine.Beyond f := by
  have told {ctx : Context I H} (tells : outcome = .ok (some ctx)) : f.Precedes ctx :=
    effect.told_precedes handles stacked named passed beyond tells
  intro ctx member
  rcases Machine.mem_heldContexts.mp member with there | ⟨frame, there, rfl⟩
  · exact (effect.working ctx there).elim beyond.working told
  · rcases effect.prefixes frame there with tells | ⟨old, before, same⟩
    · exact told tells
    · exact same ▸ beyond old.context (Machine.mem_heldContexts.mpr (.inr ⟨old, before, rfl⟩))

end

/-! ### Runs -/

/-- Whether a call left a node as it was: the layer that the node lies in, and its table with the
variables declared, the components cached and whether it is released. No instance that was cached in
the table has had an end hook run. -/
structure Event.Leaves (event : Event I H) (node : Node I H) : Prop where
  layer : event.after.world.layers.get node.namespaces.layer =
    event.before.world.layers.get node.namespaces.layer
  table : event.after.world.table node.table = event.before.world.table node.table
  unended : ∀ entry, event.before.world.Caches node.table entry →
    event.after.world.endRuns entry.2.ref.id = event.before.world.endRuns entry.2.ref.id

namespace Session

/-- Whether the machine holds nothing that was there before a frontier. -/
structure Secluded (f : Frontier) (s : Session I H) : Prop where
  passed : f.Passed s.run.world
  beyond : s.run.machine.Beyond f

variable {s t : Session I H} {interaction : Interaction I H} {f : Frontier}

theorem Secluded.after (secluded : s.Secluded f) (housed : s.Housed)
    (knows : s.Knows interaction) : (s.after interaction).Secluded f where
  passed :=
    have later := housed.later knows
    secluded.passed.mono later.nextTable later.nextLayer
  beyond := by
    cases interaction with
    | calls call =>
      exact (Machine.perform_effect s.run call).beyond housed.handles housed.stacked knows
        secluded.passed secluded.beyond
    | asks request => exact secluded.beyond

/-- Whatever is called from a secluded session on leaves alone what was there before. -/
theorem Secluded.leads (secluded : s.Secluded f) (reached : Reached Knows s)
    (leads : Leads Knows s t) : t.Secluded f ∧ ∃ events, t.history = events ++ s.history ∧
      ∀ event ∈ events, f.Shields event.before.world event.after.world := by
  induction leads with
  | refl => exact ⟨secluded, [], rfl, by simp⟩
  | @step middle interaction before knows ih =>
    obtain ⟨here, events, history, shields⟩ := ih
    have housed := (reached.leads before).known_housed
    refine ⟨here.after housed knows, ?_⟩
    cases interaction with
    | calls call =>
      have effect := Machine.perform_effect middle.run call
      have shield := effect.shields housed.sound housed.working here.passed here.beyond
      have called : (middle.called call).history =
        ⟨middle.run, call, (call.perform middle.run).1, (call.perform middle.run).2⟩ ::
          middle.history := rfl
      refine ⟨_ :: events, called.trans (congrArg _ history), fun event member => ?_⟩
      rcases List.mem_cons.mp member with rfl | earlier
      · exact shield
      · exact shields event earlier
    | asks request => exact ⟨events, history, shields⟩

theorem Reached.secluded {allowed : Session I H → Interaction I H → Prop}
    (reached : Reached allowed s) (stopped : s.run.machine.global = none) :
    s.Secluded s.run.world.frontier where
  passed := ⟨Nat.le_refl _, Nat.le_refl _⟩
  beyond := reached.quiet.beyond stopped _

theorem stopped_of_started {request global : Context I H}
    (started : ((Call.startWithin request).perform s.run).1 = .ok (some global)) :
    s.run.machine.global = none := by
  have effect := Machine.perform_effect s.run (.startWithin request)
  generalize ((Call.startWithin request).perform s.run).1 = outcome at started effect
  generalize ((Call.startWithin request).perform s.run).2 = run' at effect
  cases effect with
  | begun opens idle =>
    rwa [Machine.isRunning, Option.isSome_eq_false_iff, Option.isNone_iff_eq_none] at idle
  | rejected | unused => cases started
  | left departs | leftUnit departs | tornContext departs | tornTrace departs =>
    cases departs.departure
  | viewLeft unviews => cases unviews

/-- No call of a run disturbs the context that the run was started within, nor those around it: not
the one that starts it, none within it, whatever it is given and however it ends, and not the one
that ends it, whatever is open by then. -/
theorem request_undisturbed {request global : Context I H} (reached : Reached Knows s)
    (among : request ∈ s.known)
    (started : ((Call.startWithin request).perform s.run).1 = .ok (some global))
    (leads : Leads Knows (s.called (.startWithin request)) t) :
    ∃ events, t.history = events ++ s.history ∧
      ∀ event ∈ events, ∀ node ∈ request.nodes, event.Leaves node := by
  have houses := reached.known_housed.handles.houses request among
  have chains := reached.known_chains request among
  have knows : s.Knows (.calls (.startWithin request)) := by
    rintro _ ⟨⟩
    exact among
  have starting : Leads Knows s (s.called (.startWithin request)) := Leads.refl.step knows
  obtain ⟨-, events, history, shields⟩ :=
    (reached.secluded (stopped_of_started started)).leads reached (starting.trans leads)
  refine ⟨events, history, fun event member node within => ?_⟩
  have shield := shields event member
  have before : node.table < s.run.world.frontier.table := houses.tables node within
  exact ⟨shield.layers _ (chains.layers node within), shield.tables _ before,
    shield.unended _ before⟩

/-! ### A run that is ended with all of it open -/

/-- A component of a request, with an end hook. -/
def visit : Descriptor Unit Unit :=
  ((Descriptor.of "Visit" ⟨"urn:sample", "visit"⟩ ()).inScope .request).onEnd "closed" (pure ())

def visitRegistry : Registry Unit Unit := ⟨[(visit.name, visit)], .empty, []⟩

def visitRequest : Context Unit Unit :=
  ⟨⟨0, 0, .request, visitRegistry, .int 1, ⟨0, []⟩, true⟩, []⟩

def visitGlobal : Context Unit Unit :=
  ⟨⟨1, 1, .execution, visitRegistry, .int 1, ⟨1, [0]⟩, true⟩, [visitRequest.node]⟩

def visitOwn : Context Unit Unit :=
  ⟨⟨2, 2, .chain, visitRegistry, .int 1, ⟨2, [1, 0]⟩, true⟩,
    [visitGlobal.node, visitRequest.node]⟩

def visitUnit : Command :=
  Command.bind ⟨0, "u", .plain, some ⟨"u.xml", ⟨"urn:sample", "u"⟩⟩, none, none⟩ "p" "urn:u"

/-- A request with a prefix, a variable and a component. -/
def visited : Session Unit Unit :=
  (fresh visitRegistry .standard ()).play
    [.asks (.openRoot visitRegistry (.int 1)), .asks (.bind visitRequest "p" (some "urn:request")),
      .asks (.declare visitRequest (.qualified ⟨"", "n"⟩) (.int 1) none),
      .asks (.component visitRequest visit.name)]

/-- A unit that binds the prefix anew is entered, its context is viewed, and the run is ended. -/
def visitRun : List (Interaction Unit Unit) :=
  [.calls (.startCommand visitUnit visitGlobal), .calls (.startPointer visitOwn (.int 2)),
    .calls .finish]

theorem request_undisturbed_all_open :
    Reached Knows visited ∧ visitRequest ∈ visited.known ∧
      ((Call.startWithin visitRequest).perform visited.run).1 = .ok (some visitGlobal) ∧
      Leads Knows (visited.called (.startWithin visitRequest))
        ((visited.called (.startWithin visitRequest)).play visitRun) ∧
      visited.run.world.Caches 0 (visit.name, ⟨⟨0, "Visit"⟩, visit⟩) ∧
      ∃ events, ((visited.called (.startWithin visitRequest)).play visitRun).history =
          events ++ visited.history ∧
        ∀ event ∈ events, ∀ node ∈ visitRequest.nodes, event.Leaves node := by
  have reached : Reached Knows visited := by
    refine ⟨_, _, _, Permits.leads ⟨nofun, ?_, ?_, ?_, trivial⟩⟩ <;>
      (rintro ctx ⟨⟩; exact List.mem_cons_self)
  have among : visitRequest ∈ visited.known := List.mem_cons_self
  have leads : Leads Knows (visited.called (.startWithin visitRequest))
      ((visited.called (.startWithin visitRequest)).play visitRun) := by
    refine Permits.leads ⟨?_, ?_, nofun, trivial⟩ <;> (rintro ctx ⟨⟩; exact List.mem_cons_self)
  have caches : visited.run.world.Caches 0 (visit.name, ⟨⟨0, "Visit"⟩, visit⟩) :=
    List.mem_cons_self
  exact ⟨reached, among, rfl, leads, caches, request_undisturbed reached among rfl leads⟩

end Session
end CommandChain
