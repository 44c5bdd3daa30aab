import CommandChain.Proofs.Machine.Handles
import CommandChain.Proofs.World.Bindings

/-!
What leaves the layers and tables of a world as they are. A lookup binds prefixes only for as long
as a selector is evaluated, and releases nothing. New nodes come with a layer and a table of their
own, or with none. So of all that an embedder can ask for, a binding alone changes a layer that is
there, and nothing releases a table.
-/
namespace CommandChain

variable {I H : Type}

namespace World

/-- Whether the layers are what they were, and the same tables are released. -/
structure Untouched (w w' : World I H) : Prop where
  nextLayer : w'.layers.next = w.layers.next
  nextTable : w'.tables.next = w.tables.next
  layers : ∀ id, w'.layers.get id = w.layers.get id
  released : ∀ table, (w'.table table).released = (w.table table).released

namespace Untouched

variable {w middle w' : World I H}

theorem of_same (layers : w'.layers = w.layers) (tables : w'.tables = w.tables) :
    w.Untouched w' where
  nextLayer := by rw [layers]
  nextTable := by rw [tables]
  layers _ := by rw [layers]
  released _ := by rw [table, tables, table]

theorem trans (first : w.Untouched middle) (second : middle.Untouched w') : w.Untouched w' where
  nextLayer := second.nextLayer.trans first.nextLayer
  nextTable := second.nextTable.trans first.nextTable
  layers id := (second.layers id).trans (first.layers id)
  released table := (second.released table).trans (first.released table)

theorem changeTable (w : World I H) (ctx : Context I H) {change : Table I H → Table I H}
    (released : ∀ table, (change table).released = table.released) :
    w.Untouched (w.changeTable ctx change) where
  nextLayer := rfl
  nextTable := rfl
  layers _ := rfl
  released table := by
    rw [table_changeTable]
    split
    · exact released _
    · rfl

theorem bracket {ctx : Context I H} {mappings : List (String × String)}
    (inner : (w.overrideBindings ctx mappings).2.Untouched w') :
    w.Untouched (w'.restoreBindings ctx (w.overrideBindings ctx mappings).1) where
  nextLayer := inner.nextLayer
  nextTable := inner.nextTable
  layers id := by
    simp only [restoreBindings, Namespaces.restore, get_set_layer, inner.layers,
      overrideBindings, Namespaces.applyOverride]
    split
    · rename_i same
      rw [if_pos trivial, Namespaces.restore_overrideLayer, same]
    · rfl
  released := inner.released

theorem runs {ids : List Nat} (ran : Runs ids w w') : w.Untouched w' :=
  of_same ran.layers ran.tables

end Untouched

theorem untouched_addCell (w : World I H) (typeName : String) (content : I) :
    w.Untouched (w.addCell typeName content).2 :=
  .of_same rfl rfl

theorem untouched_beginMaking (w : World I H) (ctx : Context I H) (name : QName) :
    w.Untouched (w.beginMaking ctx name) :=
  .changeTable w ctx fun _ => rfl

theorem untouched_endMaking (w : World I H) (ctx : Context I H) (name : QName)
    (made : Option ComponentRef) : w.Untouched (w.endMaking ctx name made) := by
  have changed : w.Untouched (w.changeTable ctx (·.endMaking name)) :=
    .changeTable w ctx fun _ => rfl
  exact changed.trans (.of_same rfl rfl)

theorem untouched_rules :
    DeclaringRules (I := I) (H := H) (fun _ => True) (fun _ _ _ => True) fun _ => Untouched where
  steady _ := ⟨fun _ => .of_same rfl rfl, fun first second => first.trans second⟩
  own _ _ _ := trivial
  twin same := .of_same same.layers same.tables
  bracket _ inner := .bracket inner
  construct w typeName content := untouched_addCell w typeName content
  run w ref action := .runs (runs_runOn [] w ref action)
  hook w ref hook := .of_same (runHook_same w ref .begin hook).1 (runHook_same w ref .begin hook).2
  declare _ w _ := .changeTable w _ fun _ => rfl
  fail _ _ _ marked := (untouched_beginMaking _ _ _).trans
    (marked.trans (untouched_endMaking _ _ _ _))
  cache _ _ _ _ _ _ same marked := by
    have placed := ((untouched_beginMaking _ _ _).trans
      (Untouched.of_same same.layers same.tables)).trans ((untouched_addCell _ _ _).trans marked)
    exact (placed.trans (untouched_endMaking _ _ _ _)).trans (.changeTable _ _ fun _ => rfl)

/-- Whether the layers and tables that were there are left alone, whatever came beside them. -/
structure Spares (w w' : World I H) : Prop where
  layers : w.layers.Grows w'.layers
  nextTable : w.tables.next ≤ w'.tables.next
  released : ∀ table < w.tables.next, (w'.table table).released = (w.table table).released

namespace Spares

variable {w w' : World I H}

theorem refl (w : World I H) : w.Spares w := ⟨.refl _, Nat.le_refl _, fun _ _ => rfl⟩

theorem of_untouched (same : w.Untouched w') : w.Spares w' where
  layers := .of_get same.nextLayer same.layers
  nextTable := Nat.le_of_eq same.nextTable.symm
  released table _ := same.released table

theorem newContext (w : World I H) (scope : Scope) (registry : Registry I H) (subject : Value)
    (parent? : Option (Context I H)) (warns : Bool) :
    w.Spares (w.newContext scope registry subject parent? warns).2 := by
  have tables := (newContext_adds w scope registry subject parent? warns).1
  constructor
  case layers =>
    cases parent? with
    | none => exact .add w.layers (OrderedMap.nodup_ofPairs _)
    | some parent => exact .add w.layers List.nodup_nil
  case nextTable =>
    rw [tables]
    exact Nat.le_succ _
  case released =>
    intro table below
    rw [World.table, tables, Store.get_add_of_ne _ _ (Nat.ne_of_gt below)]
    rfl

theorem openChild {current own : Context I H} {subject : Value}
    (opens : w.openChild current subject = (own, w')) : w.Spares w' := by
  have opened := newContext w current.scope.child current.registry subject (some current)
    (w.tableOf current).warns
  unfold World.openChild openChildIn at opens
  rw [opens] at opened
  exact opened

theorem openView (w : World I H) (ctx : Context I H) (subject : Value) :
    w.Spares (w.openView ctx subject).2 := by
  unfold World.openView
  split <;> exact of_untouched (.of_same rfl rfl)

end Spares

theorem newContext_live {w w' : World I H} {scope : Scope} {registry : Registry I H}
    {subject : Value} {parent? : Option (Context I H)} {warns : Bool} {ctx : Context I H}
    (opens : w.newContext scope registry subject parent? warns = (ctx, w')) :
    w'.isReleased ctx = false := by
  have place : ctx.node.table = w.tables.next := by
    cases parent? <;> cases opens <;> rfl
  have tables := (newContext_adds w scope registry subject parent? warns).1
  rw [opens] at tables
  rw [isReleased, tableOf, place, table, tables]
  exact congrArg Table.released (Store.get_add_self w.tables _)

theorem openChild_live {w w' : World I H} {current own : Context I H} {subject : Value}
    (opens : w.openChild current subject = (own, w')) : w'.isReleased own = false := by
  unfold openChild openChildIn at opens
  exact newContext_live opens

end World

open World

theorem Call.opening_spares {run : Run I H} {call : Call I H} {global : Context I H}
    {world : World I H} (opens : call.opening run = some (global, world)) :
    run.world.Spares world := by
  cases call with
  | start subject =>
    have opened := Spares.newContext run.world .execution run.machine.registry subject none true
    have same : run.world.openContext .execution run.machine.registry subject none =
      (global, world) := Option.some.inj opens
    unfold World.openContext at same
    rw [same] at opened
    exact opened
  | startWithin parent => exact .openChild (Option.some.inj opens)
  | _ => cases opens

theorem Call.opening_live {run : Run I H} {call : Call I H} {global : Context I H}
    {world : World I H} (opens : call.opening run = some (global, world)) :
    world.isReleased global = false := by
  cases call with
  | start subject => exact newContext_live (Option.some.inj opens)
  | startWithin parent => exact openChild_live (Option.some.inj opens)
  | _ => cases opens

theorem Effect.released {run run' : Run I H} {call : Call I H}
    {outcome : Except ExecutionError (Option (Context I H))} (effect : Effect run call outcome run')
    {table : Nat} (below : table < run.world.tables.next)
    (released : (run.world.table table).released = true) :
    (run'.world.table table).released = true := by
  have bound {w : World I H} (m : Machine I H) (log : List LogEntry) (ctx : Context I H)
      (command : Command) (still : (w.table table).released = true) :
      ((Run.bound ⟨m, w.logged log⟩ ctx command).world.table table).released = true := by
    rw [World.table, (bound_alike ⟨m, w.logged log⟩ ctx command).tables]
    exact still
  have unbound {undone : Run I H} {ctx : Context I H} {command : Command}
      (undoes : run.unbound ctx command = .ok undone) :
      (undone.world.table table).released = true := by
    rw [World.table, (unbound_alike undoes).tables]
    exact released
  have dropped {w : World I H} (keeps : Bool) (top : Context I H)
      (still : (w.table table).released = true) :
      ((if keeps then w else w.endContext top).table table).released = true := by
    cases keeps with
    | true => exact still
    | false => exact released_mono w top still
  cases effect with
  | rejected | viewResumed | thrown | handled => exact released
  | unused opens => exact ((Call.opening_spares opens).released table below).trans released
  | begun opens =>
    rename_i global world log idle
    have warned : world.Untouched (world.setWarns global run.machine.settings.warnUnreleased) :=
      .changeTable world global fun _ => rfl
    have opened := (Call.opening_spares opens).released table below
    exact (warned.released table).trans (opened.trans released)
  | ended => exact released_mono _ _ (released_mono_all _ _ released)
  | enteredUnit unit now shallow opens =>
    exact bound _ _ _ _ (((Spares.openChild opens).released table below).trans released)
  | entered | resumed | resumedUnit => exact bound _ _ _ _ released
  | left departs | tornContext departs =>
    have still := unbound departs.undoes
    exact still
  | leftUnit departs | tornTrace departs => exact dropped _ _ (unbound departs.undoes)
  | viewed here opens =>
    rename_i ctx subject view world
    have spares := Spares.openView run.world ctx subject
    rw [opens] at spares
    exact (spares.released table below).trans released
  | viewLeft => exact dropped _ _ released

/-- Nothing that an embedder can ask for changes a layer that was there or releases a table, apart
from a binding. -/
theorem Request.spares (request : Request I H) (w : World I H)
    (binds_none : ∀ ctx name uri, request ≠ .bind ctx name uri) :
    w.Spares (request.perform w).2 := by
  have rules := untouched_rules (I := I) (H := H)
  have anywhere (ctx : Context I H) : ∀ node ∈ ctx.nodes, True := fun _ _ => trivial
  cases request with
  | openRoot registry subject => exact .newContext w .request registry subject none true
  | openContext scope registry subject parent? =>
    exact .newContext w scope registry subject parent? true
  | openChild ctx scope subject =>
    exact .newContext w scope ctx.registry subject (some ctx) (w.tableOf ctx).warns
  | openView ctx subject => exact .openView w ctx subject
  | setWarns ctx warns =>
    have same : w.Untouched (w.setWarns ctx warns) := .changeTable w ctx fun _ => rfl
    exact .of_untouched same
  | bind ctx name uri => exact absurd rfl (binds_none ctx name uri)
  | get ctx name scope =>
    exact .of_untouched (Context.get_keeps rules.toRules ctx (anywhere ctx) name scope w)
  | component ctx name =>
    exact .of_untouched
      (Context.component?_keeps rules.toRules ctx name (anywhere ctx) (fun _ _ => trivial) w)
  | evaluate ctx selector =>
    exact .of_untouched (Context.evaluate_keeps rules.toRules ctx (anywhere ctx) selector w)
  | declare ctx name value scope =>
    exact .of_untouched (Context.declare_keeps rules ctx (anywhere ctx) name value scope w)
  | undeclare ctx name scope =>
    exact .of_untouched (Context.undeclare_keeps rules ctx (anywhere ctx) name scope w)
  | release ctx =>
    have runs := runs_releaseTable w ctx.node.table
    have next : (w.releaseTable ctx.node.table).tables.next = w.tables.next := by
      rw [runs.tables]
      rfl
    have same : w.Untouched (w.releaseTable ctx.node.table) :=
      ⟨congrArg Store.next runs.layers, next, fun id => congrArg (Store.get · id) runs.layers,
        released_releaseTable⟩
    exact .of_untouched same
  | hold ref exclusively =>
    simp only [perform, World.hold?]
    split
    · split <;> exact .of_untouched (.of_same rfl rfl)
    · exact .refl w
  | letGo ref =>
    simp only [perform, World.letGo]
    split <;> exact .of_untouched (.of_same rfl rfl)

theorem Request.released (request : Request I H) (w : World I H) :
    ∀ table < w.tables.next,
      ((request.perform w).2.table table).released = (w.table table).released := by
  by_cases binds : ∃ ctx name uri, request = .bind ctx name uri
  · obtain ⟨ctx, name, uri, rfl⟩ := binds
    exact fun _ _ => rfl
  · exact (request.spares w fun ctx name uri same => binds ⟨ctx, name, uri, same⟩).released

end CommandChain
