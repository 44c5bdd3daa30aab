import CommandChain.Proofs.Machine.Handles
import CommandChain.Proofs.World.Overrides

/-!
What the calls of a command leave of a run, from before its start to after its end. `Within` says
that a run is the one before with the command's frame on top, and its context and trace entry if it
is registered; `Aside` says the same of a filter that was suspended. Both hold on through whatever
restores the run that it finds, and the end of the command gives back the run before.
-/
namespace CommandChain

variable {I H : Type}

def Frame.bare (frame : Frame I H) : Frame I H := { frame with exception := none }

def TraceEntry.bare (entry : TraceEntry) : TraceEntry := { entry with locator := none }

namespace Machine

/-- Whether the stacks of a machine are those of another again. Only the exception of the frame on
top and the place of the trace entry on top may have changed. -/
structure Restores (m m' : Machine I H) : Prop where
  global : m'.global = m.global
  frames : m'.frames.modifyHead Frame.bare = m.frames.modifyHead Frame.bare
  suspendedFrames : m'.suspendedFrames = m.suspendedFrames
  trace : m'.trace.modifyHead TraceEntry.bare = m.trace.modifyHead TraceEntry.bare
  suspendedTrace : m'.suspendedTrace = m.suspendedTrace
  contexts : m'.contexts = m.contexts
  suspendedContexts : m'.suspendedContexts = m.suspendedContexts
  prefixes : m'.prefixes = m.prefixes

namespace Restores

variable {m middle m' : Machine I H}

theorem refl (m : Machine I H) : m.Restores m := ⟨rfl, rfl, rfl, rfl, rfl, rfl, rfl, rfl⟩

theorem trans (first : m.Restores middle) (second : middle.Restores m') : m.Restores m' where
  global := second.global.trans first.global
  frames := second.frames.trans first.frames
  suspendedFrames := second.suspendedFrames.trans first.suspendedFrames
  trace := second.trace.trans first.trace
  suspendedTrace := second.suspendedTrace.trans first.suspendedTrace
  contexts := second.contexts.trans first.contexts
  suspendedContexts := second.suspendedContexts.trans first.suspendedContexts
  prefixes := second.prefixes.trans first.prefixes

theorem current (restores : m.Restores m') : m'.current = m.current := by
  unfold Machine.current
  rw [restores.contexts, restores.global]

theorem frames_length (restores : m.Restores m') : m'.frames.length = m.frames.length := by
  simpa using congrArg List.length restores.frames

theorem frames_tail (restores : m.Restores m') : m'.frames.tail = m.frames.tail := by
  simpa using congrArg List.tail restores.frames

end Restores

theorem of_modifyHead {α : Type} {bare : α → α} {stack rest : List α} {top : α}
    (same : stack.modifyHead bare = (top :: rest).modifyHead bare) :
    ∃ top', stack = top' :: rest ∧ bare top' = bare top := by
  cases stack with
  | nil => cases same
  | cons top' rest' =>
    obtain ⟨tops, rests⟩ := List.cons.inj same
    exact ⟨top', by rw [rests], tops⟩

theorem restores_located (m : Machine I H) : m.Restores m.located := by
  refine ⟨by simp, by simp, by simp, ?_, by simp, by simp, by simp, by simp⟩
  unfold located
  split
  · rename_i entry rest command trace frames
    rw [trace]
    rfl
  · rfl

theorem Restores.located {m m' : Machine I H} (restores : m.Restores m') :
    m.Restores m'.located :=
  restores.trans (restores_located m')

theorem isFor_of_bare {frame frame' : Frame I H} (same : frame'.bare = frame.bare)
    {command : Command} (own : frame.isFor command = true) : frame'.isFor command = true := by
  have kinds : frame'.bare.kind = frame.bare.kind := congrArg Frame.kind same
  change frame'.kind = frame.kind at kinds
  rw [Frame.isFor, kinds]
  exact own

/-- What is a command's own on the stacks, beside its frame: its context and its trace entry. -/
abbrev Mine (I H : Type) := Option (Context I H × TraceEntry)

/-- With a frame on top, and what is its own. -/
@[simp] def raised (m : Machine I H) (frame : Frame I H) (mine : Mine I H)
    (prefixes : PrefixStack I H) : Machine I H :=
  { m with
    frames := frame :: m.frames
    contexts := (mine.map Prod.fst).toList ++ m.contexts
    trace := (mine.map Prod.snd).toList ++ m.trace
    prefixes }

/-- With a frame on top of those that are suspended, and what is its own. -/
@[simp] def setAside (m : Machine I H) (frame : Frame I H) (mine : Mine I H) : Machine I H :=
  { m with
    suspendedFrames := frame :: m.suspendedFrames
    suspendedContexts := (mine.map Prod.fst).toList ++ m.suspendedContexts
    suspendedTrace := (mine.map Prod.snd).toList ++ m.suspendedTrace }

section

variable {base m : Machine I H} {frame top : Frame I H} {own ctx : Context I H}
  {entry entry' : TraceEntry} {mine : Mine I H} {prefixes : PrefixStack I H}

theorem raised_marked (raised : (base.raised frame mine prefixes).Restores m) (ctx : Context I H) :
    (base.raised { frame with context := ctx } mine prefixes).Restores (m.marked ctx) := by
  obtain ⟨top, frames, same⟩ := of_modifyHead raised.frames
  have marked : (m.marked ctx).frames = { top with context := ctx } :: base.frames := by
    simp only [Machine.marked, frames]
  constructor
  case frames =>
    rw [marked]
    exact congrArg (fun bare : Frame I H => { bare with context := ctx } :: base.frames) same
  case global => exact (marked_global _ _).trans raised.global
  case suspendedFrames => exact (marked_suspendedFrames _ _).trans raised.suspendedFrames
  case trace =>
    rw [marked_trace]
    exact raised.trace
  case suspendedTrace => exact (marked_suspendedTrace _ _).trans raised.suspendedTrace
  case contexts => exact (marked_contexts _ _).trans raised.contexts
  case suspendedContexts =>
    exact (marked_suspendedContexts _ _).trans raised.suspendedContexts
  case prefixes => exact (marked_prefixes _ _).trans raised.prefixes

/-! A departure takes what is on top, for good or to the stacks of what is suspended. -/

theorem restores_left (raised : (base.raised frame none prefixes).Restores m) (top : Frame I H) :
    base.Restores (({ m with prefixes := base.prefixes } : Machine I H).droppedFrame false top
      base.frames) :=
  { raised with frames := rfl, prefixes := rfl }

theorem restores_suspended (raised : (base.raised frame none prefixes).Restores m)
    (top : Frame I H) :
    (base.setAside top none).Restores (({ m with prefixes := base.prefixes } :
      Machine I H).droppedFrame true top base.frames) :=
  { raised with
    frames := rfl
    suspendedFrames := congrArg (top :: ·) raised.suspendedFrames
    prefixes := rfl }

theorem restores_leftUnit (raised : (base.raised frame (some (own, entry)) prefixes).Restores m)
    (top : Frame I H) (entry' : TraceEntry) :
    base.Restores (((({ m with prefixes := base.prefixes } : Machine I H).droppedFrame false top
      base.frames).droppedContext false own base.contexts).droppedTrace false entry' base.trace) :=
  { raised with frames := rfl, trace := rfl, contexts := rfl, prefixes := rfl }

theorem restores_suspendedUnit
    (raised : (base.raised frame (some (own, entry)) prefixes).Restores m) (top : Frame I H)
    (entry' : TraceEntry) :
    (base.setAside top (some (own, entry'))).Restores (((({ m with prefixes := base.prefixes } :
      Machine I H).droppedFrame true top base.frames).droppedContext true own
        base.contexts).droppedTrace true entry' base.trace) :=
  { raised with
    frames := rfl
    suspendedFrames := congrArg (top :: ·) raised.suspendedFrames
    trace := rfl
    suspendedTrace := congrArg (entry' :: ·) raised.suspendedTrace
    contexts := rfl
    suspendedContexts := congrArg (own :: ·) raised.suspendedContexts
    prefixes := rfl }

/-! A resumption brings it back. -/

theorem restores_resumed (set_aside : (base.setAside frame none).Restores m)
    (ctx : Context I H) :
    ∃ base', base.Restores base' ∧ (base'.raised { frame with context := ctx } none
      base.prefixes).Restores ((m.resumedFrame frame base.suspendedFrames).located.marked ctx) := by
  refine ⟨{ m with suspendedFrames := base.suspendedFrames },
    { set_aside with suspendedFrames := rfl }, raised_marked (.trans ?_ (restores_located _)) ctx⟩
  exact ⟨rfl, rfl, rfl, rfl, rfl, rfl, rfl, set_aside.prefixes⟩

theorem restores_resumedUnit (set_aside : (base.setAside frame (some (own, entry))).Restores m) :
    ∃ base', base.Restores base' ∧ (base'.raised { frame with context := own } (some (own, entry))
      base.prefixes).Restores ((((m.resumedFrame frame base.suspendedFrames).resumedContext own
        base.suspendedContexts).resumedTrace entry base.suspendedTrace).located.marked own) := by
  refine ⟨{ m with
    suspendedFrames := base.suspendedFrames
    suspendedContexts := base.suspendedContexts
    suspendedTrace := base.suspendedTrace }, { set_aside with
    suspendedFrames := rfl
    suspendedContexts := rfl
    suspendedTrace := rfl }, raised_marked (.trans ?_ (restores_located _)) own⟩
  exact ⟨rfl, rfl, rfl, rfl, rfl, rfl, rfl, set_aside.prefixes⟩

end

end Machine

/-! ### Tables and layers -/

namespace World

/-- Whether tables and layers are left as they were, and the tables that were handed out since are
released. -/
structure Settles (w w' : World I H) : Prop where
  nextLayer : w.layers.next ≤ w'.layers.next
  nextTable : w.tables.next ≤ w'.tables.next
  layers : Layers.Same w.layers.next w.layers w'.layers
  older : ∀ table < w.tables.next, w'.table table = w.table table
  released : ∀ table, w.tables.next ≤ table → table < w'.tables.next →
    (w'.table table).released = true

/-- The same, apart from the layers and from the table of what is a command's own. -/
structure Guards (w : World I H) (mine : Machine.Mine I H) (w' : World I H) : Prop where
  nextLayer : w.layers.next ≤ w'.layers.next
  nextTable : w.tables.next ≤ w'.tables.next
  older : ∀ table < w.tables.next, w'.table table = w.table table
  released : ∀ table, w.tables.next ≤ table → table < w'.tables.next →
    (w'.table table).released = true ∨ ∃ own ∈ mine, own.1.node.table = table
  own : ∀ own ∈ mine, own.1.isPointer = false ∧ w.tables.next ≤ own.1.node.table ∧
    own.1.node.table < w'.tables.next

variable {w w' last : World I H} {mine : Machine.Mine I H}

theorem settles_of_same (layers : w'.layers = w.layers) (tables : w'.tables = w.tables) :
    w.Settles w' where
  nextLayer := Nat.le_of_eq (by rw [layers])
  nextTable := Nat.le_of_eq (by rw [tables])
  layers := by
    rw [layers]
    exact fun _ _ => rfl
  older _ _ := by rw [table, tables, table]
  released _ beyond inside := by
    rw [tables] at inside
    omega

theorem Settles.guards (settles : w.Settles w') : w.Guards none w' :=
  ⟨settles.nextLayer, settles.nextTable, settles.older,
    fun table beyond inside => .inl (settles.released table beyond inside), by simp⟩

theorem Guards.later (guards : w.Guards mine w') (settles : w'.Settles last) :
    w.Guards mine last where
  nextLayer := Nat.le_trans guards.nextLayer settles.nextLayer
  nextTable := Nat.le_trans guards.nextTable settles.nextTable
  older table below :=
    (settles.older table (Nat.lt_of_lt_of_le below guards.nextTable)).trans
      (guards.older table below)
  released table beyond inside := by
    by_cases before : table < w'.tables.next
    · rw [settles.older table before]
      exact guards.released table beyond before
    · exact .inl (settles.released table (Nat.le_of_not_lt before) inside)
  own own member := by
    obtain ⟨owner, beyond, inside⟩ := guards.own own member
    exact ⟨owner, beyond, Nat.lt_of_lt_of_le inside settles.nextTable⟩

theorem Guards.bound (guards : w.Guards mine w') (tables : last.tables = w'.tables)
    (nextLayer : last.layers.next = w'.layers.next) : w.Guards mine last where
  nextLayer := nextLayer ▸ guards.nextLayer
  nextTable := tables ▸ guards.nextTable
  older := by
    unfold table
    rw [tables]
    exact guards.older
  released := by
    unfold table
    rw [tables]
    exact guards.released
  own := tables ▸ guards.own

theorem Guards.settles (guards : w.Guards none w')
    (layers : Layers.Same w.layers.next w.layers w'.layers) : w.Settles w' where
  nextLayer := guards.nextLayer
  nextTable := guards.nextTable
  layers := layers
  older := guards.older
  released table beyond inside := by
    rcases guards.released table beyond inside with released | ⟨own, none_own, -⟩
    · exact released
    · cases none_own

theorem Settles.logged (settles : w.Settles w') (log : List LogEntry) : w.Settles (w'.logged log) :=
  ⟨settles.nextLayer, settles.nextTable, settles.layers, settles.older, settles.released⟩

theorem Guards.logged (guards : w.Guards mine w') (log : List LogEntry) :
    w.Guards mine (w'.logged log) :=
  ⟨guards.nextLayer, guards.nextTable, guards.older, guards.released, guards.own⟩

theorem Settles.trans (first : w.Settles w') (second : w'.Settles last) : w.Settles last :=
  (first.guards.later second).settles (first.layers.trans second.layers first.nextLayer)

theorem table_endContext_of_ne {ctx : Context I H} {table : Nat} (differ : ctx.node.table ≠ table) :
    (w.endContext ctx).table table = w.table table := by
  rw [endContext_eq]
  split
  · rfl
  · change ((w.releaseTable ctx.node.table).retired ctx).table table = _
    rw [table_retired, if_neg differ, table_releaseTable, if_neg differ]

theorem Guards.ended {own : Context I H} {entry : TraceEntry}
    (guards : w.Guards (some (own, entry)) w') : w.Guards none (w'.endContext own) := by
  obtain ⟨owner, beyond_own, -⟩ := guards.own _ rfl
  have next : (w'.endContext own).tables.next = w'.tables.next := (next_endContext w' own).2
  constructor
  case nextLayer =>
    rw [layers_endContext]
    exact guards.nextLayer
  case nextTable =>
    rw [next]
    exact guards.nextTable
  case older =>
    intro table below
    have differ : own.node.table ≠ table := Nat.ne_of_gt (Nat.lt_of_lt_of_le below beyond_own)
    exact (table_endContext_of_ne differ).trans (guards.older table below)
  case released =>
    intro table beyond inside
    by_cases same : own.node.table = table
    · subst same
      exact .inl (released_endContext owner)
    · rw [next] at inside
      rw [table_endContext_of_ne same]
      rcases guards.released table beyond inside with released | ⟨other, ⟨⟩, there⟩
      · exact .inl released
      · exact absurd there same
  case own => simp

theorem openChild_adds {current own : Context I H} {subject : Value}
    (opens : w.openChild current subject = (own, w')) :
    w'.layers = (w.layers.add []).2 ∧ (∃ table, w'.tables = (w.tables.add table).2) ∧
      own.node.table = w.tables.next ∧ own.namespaces.layer = w.layers.next ∧
      own.isPointer = false := by
  cases opens
  exact ⟨rfl, ⟨_, rfl⟩, rfl, rfl, rfl⟩

theorem guards_openChild {current own : Context I H} {subject : Value}
    (opens : w.openChild current subject = (own, w')) (entry : TraceEntry) :
    w.Guards (some (own, entry)) w' := by
  obtain ⟨layers, ⟨table, tables⟩, place, -, owner⟩ := openChild_adds opens
  have next : w'.tables.next = w.tables.next + 1 := by rw [tables]; rfl
  constructor
  case nextLayer =>
    rw [layers]
    exact Nat.le_succ _
  case nextTable => omega
  case older =>
    intro other below
    rw [World.table, tables]
    exact Store.get_add_of_ne _ _ (by omega)
  case released =>
    intro other beyond inside
    exact .inr ⟨_, rfl, by dsimp only; omega⟩
  case own =>
    rintro _ ⟨⟩
    exact ⟨owner, by dsimp only; omega, by dsimp only; omega⟩

end World

/-! ### Runs -/

namespace Run

/-- Whether a run is left as another was found. -/
structure Restores (run run' : Run I H) : Prop where
  machine : run.machine.Restores run'.machine
  world : run.world.Settles run'.world

/-- Whether a context is current and its layer was handed out. -/
structure Fits (run : Run I H) (ctx : Context I H) : Prop where
  current : run.machine.current = .ok ctx
  layer : ctx.namespaces.layer < run.world.layers.next

/-- Whether a run is one from before with a command entered. -/
structure Within (start : Run I H) (command : Command) (entered : Context I H)
    (mine : Machine.Mine I H) (now : Run I H) : Prop where
  machine : ∃ base frame, start.machine.Restores base ∧ frame.isFor command = true ∧
    (base.raised frame mine now.machine.prefixes).Restores now.machine
  unit : mine.isSome = command.isBoundary
  fits : now.Fits entered
  own : ∀ own ∈ mine, own.1 = entered
  binds : Binds command entered start.world.layers.next start.machine.prefixes
    start.world.layers now.machine.prefixes now.world.layers
  world : start.world.Guards mine now.world

/-- Whether a run is one from before with a filter suspended. -/
structure Aside (start : Run I H) (command : Command) (mine : Machine.Mine I H) (now : Run I H) :
    Prop where
  machine : ∃ base frame, start.machine.Restores base ∧ frame.isFor command = true ∧
    (base.setAside frame mine).Restores now.machine
  unit : mine.isSome = command.isBoundary
  layers : Layers.Same start.world.layers.next start.world.layers now.world.layers
  own : ∀ own ∈ mine, own.1.namespaces.layer < now.world.layers.next
  world : start.world.Guards mine now.world

variable {start now next : Run I H} {command : Command} {entered ctx : Context I H}
  {mine : Machine.Mine I H}

theorem Restores.trans (first : start.Restores now) (second : now.Restores next) :
    start.Restores next :=
  ⟨first.machine.trans second.machine, first.world.trans second.world⟩

theorem Fits.later (fits : now.Fits ctx) (restores : now.Restores next) : next.Fits ctx where
  current := restores.machine.current.trans fits.current
  layer := Nat.lt_of_lt_of_le fits.layer restores.world.nextLayer

theorem Within.later (within : Within start command entered mine now)
    (restores : now.Restores next) : Within start command entered mine next where
  machine := by
    obtain ⟨base, frame, kept, own, raised⟩ := within.machine
    rw [← restores.machine.prefixes] at raised
    exact ⟨base, frame, kept, own, raised.trans restores.machine⟩
  unit := within.unit
  fits := within.fits.later restores
  own := within.own
  binds := by
    rw [restores.machine.prefixes]
    exact within.binds.later restores.world.layers within.world.nextLayer within.fits.layer
  world := within.world.later restores.world

theorem Aside.later (aside : Aside start command mine now) (restores : now.Restores next) :
    Aside start command mine next where
  machine := by
    obtain ⟨base, frame, kept, own, set_aside⟩ := aside.machine
    exact ⟨base, frame, kept, own, set_aside.trans restores.machine⟩
  unit := aside.unit
  layers := aside.layers.trans restores.world.layers aside.world.nextLayer
  own own member := Nat.lt_of_lt_of_le (aside.own own member) restores.world.nextLayer
  world := aside.world.later restores.world

/-! ### Entering -/

/-- A command is entered by what it puts on the stacks, and then its prefixes are bound. -/
theorem within_bound {m : Machine I H} {w : World I H}
    (machine : ∃ base frame, start.machine.Restores base ∧ frame.isFor command = true ∧
      (base.raised frame mine start.machine.prefixes).Restores m)
    (unit : mine.isSome = command.isBoundary) (current : m.current = .ok entered)
    (layer : entered.namespaces.layer < w.layers.next) (own : ∀ own ∈ mine, own.1 = entered)
    (layers : Layers.Same start.world.layers.next start.world.layers w.layers)
    (guards : start.world.Guards mine w) :
    Within start command entered mine (Run.bound ⟨m, w⟩ entered command) := by
  obtain ⟨base, frame, kept, is_own, raised⟩ := machine
  have same := bound_alike ⟨m, w⟩ entered command
  have binds := Binds.of_bound ⟨m, w⟩ entered command start.world.layers.next
  rw [show m.prefixes = start.machine.prefixes from raised.prefixes] at binds
  constructor
  case machine =>
    refine ⟨base, frame, kept, is_own, ?_⟩
    constructor
    case global => exact (bound_global _ _ _).trans raised.global
    case frames =>
      rw [bound_frames]
      exact raised.frames
    case suspendedFrames => exact (bound_suspendedFrames _ _ _).trans raised.suspendedFrames
    case trace =>
      rw [bound_trace]
      exact raised.trace
    case suspendedTrace => exact (bound_suspendedTrace _ _ _).trans raised.suspendedTrace
    case contexts => exact (bound_contexts _ _ _).trans raised.contexts
    case suspendedContexts => exact (bound_suspendedContexts _ _ _).trans raised.suspendedContexts
    case prefixes => rfl
  case unit => exact unit
  case fits =>
    refine ⟨?_, by rw [same.nextLayer]; exact layer⟩
    unfold Machine.current at current ⊢
    rw [bound_contexts, bound_global]
    exact current
  case own => exact own
  case binds => exact binds.earlier layers
  case world => exact guards.bound same.tables same.nextLayer

theorem enters {run' : Run I H} {outcome : Except ExecutionError (Option (Context I H))}
    {current : Context I H} (effect : Effect start (.startCommand command ctx) outcome run')
    (fits : start.Fits current) :
    run' = start ∧ (∃ error, outcome = .error error) ∨
      ∃ entered mine, outcome = .ok (some entered) ∧ Within start command entered mine run' := by
  cases effect with
  | rejected => exact .inl ⟨rfl, _, rfl⟩
  | unused opens | begun opens => cases opens
  | left departs | leftUnit departs | tornContext departs | tornTrace departs =>
    cases departs.departure
  | viewLeft unviews => cases unviews
  | enteredUnit unit now shallow opens =>
    rename_i registration found own world log
    obtain ⟨layers, -, -, layer, -⟩ := World.openChild_adds opens
    have guards := World.guards_openChild opens (.ofRegistration start.machine.next registration)
    refine .inr ⟨own, some (own, .ofRegistration start.machine.next registration), rfl, ?_⟩
    refine within_bound ⟨start.machine, ⟨.command command, own, some own, none⟩, .refl _, ?_, ?_⟩
      (congrArg Option.isSome unit).symm ?_ ?_ ?_ ?_ (guards.logged log)
    · simp [Frame.isFor, Command.same]
    · refine .trans ?_
        (Machine.restores_located (start.machine.pushedUnit command registration own))
      exact ⟨rfl, rfl, rfl, rfl, rfl, rfl, rfl, rfl⟩
    · rw [Machine.located_current]
      rfl
    · rw [layer]
      change _ < world.layers.next
      rw [layers]
      exact Nat.lt_succ_self _
    · rintro _ ⟨⟩
      rfl
    · intro id below
      change world.layers.get id = _
      rw [layers]
      exact Store.get_add_of_ne _ _ (by omega)
  | entered plain now shallow same =>
    rename_i found log
    rw [fits.current] at now
    cases now
    have guards : start.world.Guards none start.world := (World.settles_of_same rfl rfl).guards
    refine .inr ⟨current, none, rfl, ?_⟩
    refine within_bound ⟨start.machine, ⟨.command command, current, none, none⟩, .refl _, ?_, ?_⟩
      (congrArg Option.isSome plain).symm ?_ fits.layer (by simp) (fun _ _ => rfl)
      (guards.logged log)
    · simp [Frame.isFor, Command.same]
    · refine .trans ?_ (Machine.restores_located (start.machine.pushed command current))
      exact ⟨rfl, rfl, rfl, rfl, rfl, rfl, rfl, rfl⟩
    · rw [Machine.located_current]
      exact fits.current

/-! ### Faults -/

theorem Within.recorded {run' : Run I H} {outcome : Except ExecutionError (Option (Context I H))}
    {fault : Fault} (within : Within start command entered mine now)
    (effect : Effect now (.exceptionThrown command fault) outcome run') :
    Within start command entered mine run' := by
  cases effect with
  | rejected => exact within
  | unused opens | begun opens => cases opens
  | left departs | leftUnit departs | tornContext departs | tornTrace departs =>
    cases departs.departure
  | viewLeft unviews => cases unviews
  | thrown frames own =>
    rename_i top parent rest log
    obtain ⟨base, frame, kept, own, raised⟩ := within.machine
    obtain ⟨frame', stack, same⟩ := Machine.of_modifyHead raised.frames
    rw [frames] at stack
    obtain ⟨rfl, below⟩ := List.cons.inj stack
    have recorded : start.machine.Restores { base with
        frames := { parent with
          exception := some (now.machine.recording top fault) } :: rest } := by
      refine { kept with frames := ?_ }
      rw [← kept.frames, ← below]
      rfl
    have settles : now.world.Settles (now.world.logged log) := World.settles_of_same rfl rfl
    refine ⟨⟨_, frame, recorded, own, ?_⟩, within.unit, ⟨within.fits.current, within.fits.layer⟩,
      within.own, within.binds, within.world.later settles⟩
    refine { raised with frames := ?_ }
    change top.bare :: _ = frame.bare :: _
    rw [same]

theorem restores_handled {run' : Run I H} {outcome : Except ExecutionError (Option (Context I H))}
    {fault : Fault} (effect : Effect now (.exceptionHandled command fault) outcome run') :
    now.Restores run' := by
  have same : now.Restores now := ⟨.refl _, World.settles_of_same rfl rfl⟩
  cases effect with
  | rejected => exact same
  | unused opens | begun opens => cases opens
  | left departs | leftUnit departs | tornContext departs | tornTrace departs =>
    cases departs.departure
  | viewLeft unviews => cases unviews
  | handled frames =>
    exact ⟨⟨rfl, rfl, rfl, rfl, rfl, rfl, rfl, rfl⟩, World.settles_of_same rfl rfl⟩

/-! ### Leaving -/

/-- The prefixes come off as they were bound, so nothing refuses a departure. -/
theorem Within.admits {call : Call I H} {keeps : Bool}
    (within : Within start command entered mine now)
    (departure : call.departure = some (command, entered, keeps)) : now.Admits call := by
  obtain ⟨base, frame, kept, own, raised⟩ := within.machine
  obtain ⟨top, frames, same⟩ := Machine.of_modifyHead raised.frames
  obtain ⟨layers, undoes, -⟩ := within.binds.undoes
  exact (admits_departure departure).mpr ⟨⟨entered, within.fits.current, by simp [Context.same]⟩,
    ⟨top, base.frames, frames, Machine.isFor_of_bare same own⟩, _, undoes⟩

theorem Within.leaves {run' : Run I H} {call : Call I H}
    {outcome : Except ExecutionError (Option (Context I H))} {keeps : Bool}
    (within : Within start command entered mine now) (effect : Effect now call outcome run')
    (departure : call.departure = some (command, entered, keeps)) :
    (keeps = false ∧ start.Restores run') ∨
      (keeps = true ∧ ∃ mine, Aside start command mine run') := by
  obtain ⟨base, frame, kept, own, raised⟩ := within.machine
  obtain ⟨top, frames, same⟩ := Machine.of_modifyHead raised.frames
  have own := Machine.isFor_of_bare same own
  obtain ⟨layers, undoes, settled, next⟩ := within.binds.undoes
  rw [← kept.prefixes] at undoes
  obtain ⟨undone, frame', rest, departs, goes⟩ :=
    effect.of_departure departure (within.admits departure)
  have stack := departs.frames
  rw [frames] at stack
  obtain ⟨rfl, rfl⟩ := List.cons.inj stack
  have undoing := departs.undoes
  rw [undoes] at undoing
  cases undoing
  have world : start.world.Guards mine { now.world with layers := layers } :=
    within.world.bound rfl next
  rcases goes with ⟨plain, log, rfl⟩ | ⟨unit, goes⟩
  · have alone : mine = none := by simpa [plain] using within.unit
    subst alone
    cases keeps with
    | false =>
      exact .inl ⟨rfl, kept.trans (Machine.restores_left raised top).located,
        (world.settles settled).logged log⟩
    | true =>
      have aside := (Machine.restores_suspended raised top).located
      exact .inr ⟨rfl, none, ⟨base, top, kept, own, aside⟩, within.unit, settled, by simp,
        world.logged log⟩
  · obtain ⟨⟨context, entry⟩, rfl⟩ := Option.isSome_iff_exists.mp (within.unit.trans unit)
    have contexts : now.machine.contexts = context :: base.contexts := raised.contexts
    obtain ⟨entry', trace, -⟩ := Machine.of_modifyHead raised.trace
    rcases goes with none_left | none_left | ⟨_, _, _, _, log, contexts', trace', rfl⟩
    · rw [contexts] at none_left
      cases none_left
    · rw [trace] at none_left
      cases none_left
    rw [contexts] at contexts'
    rw [trace] at trace'
    cases contexts'
    cases trace'
    cases keeps with
    | false =>
      have settles : start.world.Settles
          (({ now.world with layers := layers } : World I H).endContext context) := by
        refine world.ended.settles ?_
        rw [World.layers_endContext]
        exact settled
      exact .inl ⟨rfl, kept.trans (Machine.restores_leftUnit raised top entry').located,
        settles.logged log⟩
    | true =>
      have owned : context = entered := within.own _ rfl
      refine .inr ⟨rfl, some (context, entry'), ⟨base, top, kept, own,
        (Machine.restores_suspendedUnit raised top entry').located⟩, within.unit, settled, ?_, ?_⟩
      · rintro _ ⟨⟩
        change context.namespaces.layer < layers.next
        rw [next, owned]
        exact within.fits.layer
      · refine World.Guards.logged { world with released := ?_, own := ?_ } log
        · intro table beyond inside
          rcases world.released table beyond inside with released | ⟨_, ⟨⟩, there⟩
          · exact .inl released
          · exact .inr ⟨_, rfl, there⟩
        · rintro _ ⟨⟩
          exact world.own (context, entry) rfl

/-! ### Resuming -/

theorem Aside.fits (aside : Aside start command mine now) (fits : start.Fits ctx) :
    now.Fits ctx := by
  obtain ⟨base, frame, kept, own, set_aside⟩ := aside.machine
  refine ⟨?_, Nat.lt_of_lt_of_le fits.layer aside.world.nextLayer⟩
  exact set_aside.current.trans (kept.current.trans fits.current)

theorem Aside.resumes {run' : Run I H} {outcome : Except ExecutionError (Option (Context I H))}
    (aside : Aside start command mine now) (fits : start.Fits ctx)
    (effect : Effect now (.startPostProcess command ctx) outcome run') :
    ∃ entered, outcome = .ok (some entered) ∧ Within start command entered mine run' := by
  have here := aside.fits fits
  obtain ⟨base, frame, kept, own, set_aside⟩ := aside.machine
  have frames : now.machine.suspendedFrames = frame :: base.suspendedFrames :=
    set_aside.suspendedFrames
  have admits : now.Admits (.startPostProcess command ctx) := by
    refine ⟨⟨ctx, here.current, by simp [Context.same]⟩, ⟨frame, _, frames, own⟩, fun unit => ?_⟩
    obtain ⟨⟨context, entry⟩, rfl⟩ := Option.isSome_iff_exists.mp (aside.unit.trans unit)
    rw [set_aside.suspendedContexts, set_aside.suspendedTrace]
    exact ⟨List.cons_ne_nil _ _, List.cons_ne_nil _ _⟩
  cases effect with
  | rejected refused => exact absurd admits refused
  | unused opens | begun opens => cases opens
  | left departs | leftUnit departs | tornContext departs | tornTrace departs =>
    cases departs.departure
  | viewLeft unviews => cases unviews
  | resumed resumes plain current =>
    rename_i frame' rest current' log
    have alone : mine = none := by simpa [plain] using aside.unit
    subst alone
    have stack := resumes.frames
    rw [frames] at stack
    cases stack
    rw [here.current] at current
    cases current
    obtain ⟨base', kept', raised⟩ := Machine.restores_resumed set_aside ctx
    rw [kept.prefixes] at raised
    refine ⟨ctx, rfl, within_bound ⟨base', { frame with context := ctx }, kept.trans kept', own,
      raised⟩ aside.unit ?_ here.layer (by simp) aside.layers (aside.world.logged log)⟩
    have current := here.current
    unfold Machine.current at current ⊢
    simpa using current
  | resumedUnit resumes unit contexts trace =>
    rename_i frame' rest top outer entry entries log
    obtain ⟨⟨context, entry'⟩, rfl⟩ := Option.isSome_iff_exists.mp (aside.unit.trans unit)
    have stack := resumes.frames
    rw [frames] at stack
    cases stack
    have stack : context :: base.suspendedContexts = top :: outer :=
      set_aside.suspendedContexts.symm.trans contexts
    cases stack
    have stack : entry' :: base.suspendedTrace = entry :: entries :=
      set_aside.suspendedTrace.symm.trans trace
    cases stack
    obtain ⟨base', kept', raised⟩ := Machine.restores_resumedUnit set_aside
    rw [kept.prefixes] at raised
    refine ⟨top, rfl, within_bound ⟨base', { frame with context := top }, kept.trans kept', own,
      raised⟩ aside.unit ?_ (aside.own _ rfl) ?_ aside.layers (aside.world.logged log)⟩
    · simp [Machine.current]
    · rintro _ ⟨⟩
      rfl

/-! ### Views -/

theorem viewing {run' : Run I H} {outcome : Except ExecutionError (Option (Context I H))}
    {subject : Value} (fits : start.Fits ctx) (proper : subject.isNull = false)
    (effect : Effect start (.startPointer ctx subject) outcome run') :
    ∃ view, outcome = .ok (some view) ∧ view.isPointer = true ∧ run'.Fits view ∧
      Run.Restores ⟨{ start.machine with contexts := view :: start.machine.contexts }, start.world⟩
        run' := by
  have admits : start.Admits (.startPointer ctx subject) :=
    ⟨⟨ctx, fits.current, by simp [Context.same]⟩, proper⟩
  cases effect with
  | rejected refused => exact absurd admits refused
  | unused opens | begun opens => cases opens
  | left departs | leftUnit departs | tornContext departs | tornTrace departs =>
    cases departs.departure
  | viewLeft unviews => cases unviews
  | viewed here opens =>
    rename_i view world
    unfold World.openView at opens
    rw [if_neg (by simp [proper])] at opens
    cases opens
    exact ⟨_, rfl, rfl, ⟨rfl, fits.layer⟩, .refl _, World.settles_of_same rfl rfl⟩

theorem unviewing {run' : Run I H} {outcome : Except ExecutionError (Option (Context I H))}
    {view : Context I H} (pointer : view.isPointer = true)
    (viewing : Run.Restores ⟨{ start.machine with
      contexts := view :: start.machine.contexts }, start.world⟩ now)
    (effect : Effect now (.stopPointer view) outcome run') : start.Restores run' := by
  have contexts : now.machine.contexts = view :: start.machine.contexts := viewing.machine.contexts
  have admits : now.Admits (.stopPointer view) := by
    refine ⟨⟨view, Machine.current_of_top contexts, by simp [Context.same]⟩, pointer, ?_⟩
    rw [contexts]
    exact List.cons_ne_nil _ _
  cases effect with
  | rejected refused => exact absurd admits refused
  | unused opens | begun opens => cases opens
  | left departs | leftUnit departs | tornContext departs | tornTrace departs =>
    cases departs.departure
  | viewLeft unviews here _ stack =>
    rw [contexts] at stack
    cases stack
    cases unviews
    refine ⟨{ viewing.machine with contexts := rfl }, ?_⟩
    change start.world.Settles (now.world.endContext view)
    rw [World.endContext_eq, if_pos (.inl pointer)]
    exact viewing.world

end Run
end CommandChain
