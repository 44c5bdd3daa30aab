import CommandChain.Proofs.Machine.Tables

/-!
Nothing is being made between interactions. A lookup marks what it makes and takes the mark away,
whatever came of it, and neither calls nor anything else that an embedder asks for leaves a mark.
`CallRules` says what a relation between worlds must allow for calls to keep it.
-/
namespace CommandChain

variable {I H : Type}

structure CallRules (R : World I H → World I H → Prop) : Prop where
  steady : IsSteady R
  alike {w w' : World I H} (same : w.Alike w') : R w w'
  opens (w : World I H) (scope : Scope) (registry : Registry I H) (subject : Value)
    (parent? : Option (Context I H)) (warns : Bool) :
    R w (w.newContext scope registry subject parent? warns).2
  views (w : World I H) (ctx : Context I H) (subject : Value) : R w (w.openView ctx subject).2
  warns (w : World I H) (ctx : Context I H) (warns : Bool) : R w (w.setWarns ctx warns)
  ends (w : World I H) (ctx : Context I H) : R w (w.endContext ctx)

namespace CallRules

variable {R : World I H → World I H → Prop} (rules : CallRules R)

include rules

theorem endContexts (w : World I H) (contexts : List (Context I H)) :
    R w (w.endContexts contexts) := by
  induction contexts generalizing w with
  | nil => exact rules.steady.refl w
  | cons ctx rest ih => exact rules.steady.trans (rules.ends w ctx) (ih _)

theorem openChild {w w' : World I H} {current opened : Context I H} {subject : Value}
    (opens : w.openChild current subject = (opened, w')) : R w w' := by
  have kept := rules.opens w current.scope.child current.registry subject (some current)
    (w.tableOf current).warns
  unfold World.openChild World.openChildIn at opens
  rwa [opens] at kept

theorem opening {run : Run I H} {call : Call I H} {global : Context I H} {world : World I H}
    (opens : call.opening run = some (global, world)) : R run.world world := by
  cases call with
  | start subject =>
    have kept := rules.opens run.world .execution run.machine.registry subject none true
    have same : run.world.openContext .execution run.machine.registry subject none =
      (global, world) := Option.some.inj opens
    unfold World.openContext at same
    rwa [same] at kept
  | startWithin parent => exact rules.openChild (Option.some.inj opens)
  | _ => cases opens

end CallRules

theorem Effect.keeps {R : World I H → World I H → Prop} (rules : CallRules R) {run run' : Run I H}
    {call : Call I H} {outcome : Except ExecutionError (Option (Context I H))}
    (effect : Effect run call outcome run') : R run.world run'.world := by
  have steady := rules.steady
  have logged (w : World I H) (log : List LogEntry) : R w (w.logged log) :=
    rules.alike ⟨rfl, rfl, rfl, rfl, rfl⟩
  have bound (m : Machine I H) {w : World I H} (log : List LogEntry) (ctx : Context I H)
      (command : Command) (kept : R run.world w) :
      R run.world (Run.bound ⟨m, w.logged log⟩ ctx command).world :=
    steady.trans kept (steady.trans (logged w log)
      (rules.alike (bound_alike ⟨m, w.logged log⟩ ctx command)))
  have departed {undone : Run I H} {command : Command} {ctx : Context I H} {keeps : Bool}
      {frame : Frame I H} {rest : List (Frame I H)} (top : Context I H)
      (departs : Departs run call command ctx keeps undone frame rest) :
      R run.world (if keeps then undone.world else undone.world.endContext top) := by
    have undoing := rules.alike (unbound_alike departs.undoes)
    split
    · exact undoing
    · exact steady.trans undoing (rules.ends _ top)
  cases effect with
  | rejected | viewResumed => exact steady.refl _
  | thrown | handled => exact logged _ _
  | unused opens => exact rules.opening opens
  | begun opens =>
    exact steady.trans (rules.opening opens) (steady.trans (rules.warns _ _ _) (logged _ _))
  | ended =>
    exact steady.trans (rules.endContexts _ _) (steady.trans (rules.ends _ _) (logged _ _))
  | enteredUnit unit now shallow opens => exact bound _ _ _ _ (rules.openChild opens)
  | entered | resumed | resumedUnit => exact bound _ _ _ _ (steady.refl _)
  | left departs =>
    exact steady.trans (rules.alike (unbound_alike departs.undoes)) (logged _ _)
  | leftUnit departs => exact steady.trans (departed _ departs) (logged _ _)
  | tornContext departs => exact (rules.alike (unbound_alike departs.undoes) :)
  | tornTrace departs => exact departed _ departs
  | viewed here opens =>
    rename_i ctx subject view world
    have kept := rules.views run.world ctx subject
    rwa [opens] at kept
  | viewLeft =>
    split
    · exact steady.refl _
    · exact rules.ends _ _

namespace World

def Unmarked (w : World I H) : Prop := ∀ table, (w.table table).creating = []

variable {w w' : World I H}

theorem Unmarked.of_tables (unmarked : w.Unmarked) (same : w'.tables = w.tables) : w'.Unmarked := by
  intro table
  rw [World.table, same]
  exact unmarked table

theorem Unmarked.changeTable (unmarked : w.Unmarked) (ctx : Context I H)
    {change : Table I H → Table I H}
    (creating : ∀ table, (change table).creating = table.creating) :
    (w.changeTable ctx change).Unmarked := by
  intro table
  rw [table_changeTable]
  split
  · rw [creating]
    exact unmarked table
  · exact unmarked table

theorem Unmarked.releaseTable (unmarked : w.Unmarked) (id : Nat) :
    (w.releaseTable id).Unmarked := by
  intro table
  rw [table_releaseTable]
  split <;> exact unmarked _

theorem Unmarked.resolves (unmarked : w.Unmarked) (resolves : w.Resolves w') : w'.Unmarked :=
  fun table => (resolves.creating table).trans (unmarked table)

theorem unmarked_calls : CallRules (I := I) (H := H) fun w w' => w.Unmarked → w'.Unmarked where
  steady := ⟨fun _ unmarked => unmarked, fun first second unmarked => second (first unmarked)⟩
  alike same unmarked := unmarked.of_tables same.tables
  opens w scope registry subject parent? warns unmarked table := by
    have tables := (newContext_adds w scope registry subject parent? warns).1
    rw [World.table, tables]
    by_cases new : w.tables.next = table
    · rw [← new]
      exact congrArg Table.creating (Store.get_add_self w.tables (.empty scope warns))
    · rw [Store.get_add_of_ne w.tables _ new]
      exact unmarked table
  views w ctx subject unmarked := by
    unfold openView
    split <;> exact unmarked
  warns w ctx warns unmarked := unmarked.changeTable ctx fun _ => rfl
  ends w ctx unmarked := by
    rw [endContext_eq]
    split
    · exact unmarked
    · have retired : ((w.releaseTable ctx.node.table).retired ctx).Unmarked :=
        (unmarked.releaseTable ctx.node.table).changeTable ctx fun _ => rfl
      exact retired.of_tables rfl

end World

open World

namespace Context

theorem declare_changes (ctx : Context I H) (name : VariableName) (value : Value)
    (scope : Option Scope) (w : World I H) :
    (outcomeOf (ctx.declare name value scope w)).2 = w ∨ ∃ place change,
      (outcomeOf (ctx.declare name value scope w)).2 = w.changeVariables place change := by
  rw [declare_eq, bind_place]
  split
  · rw [declareHere_apply]
    split
    · exact .inl rfl
    · split
      · exact .inl rfl
      · exact .inr ⟨_, (OrderedMap.insert · _ value), rfl⟩
  · exact .inl rfl

theorem undeclare_changes (ctx : Context I H) (name : VariableName) (scope : Option Scope)
    (w : World I H) :
    (outcomeOf (ctx.undeclare name scope w)).2 = w ∨ ∃ place change,
      (outcomeOf (ctx.undeclare name scope w)).2 = w.changeVariables place change := by
  rw [undeclare_eq, bind_place]
  split
  · rw [undeclareHere_apply]
    split
    · exact .inl rfl
    · exact .inr ⟨_, (OrderedMap.erase · _), rfl⟩
  · exact .inl rfl

end Context

theorem Request.unmarked (request : Request I H) {w : World I H} (unmarked : w.Unmarked) :
    (request.perform w).2.Unmarked := by
  have kept {w' : World I H}
      (changes : w' = w ∨ ∃ place change, w' = w.changeVariables place change) :
      w'.Unmarked := by
    rcases changes with rfl | ⟨place, change, rfl⟩
    · exact unmarked
    · exact unmarked.changeTable place fun _ => rfl
  cases request with
  | openRoot registry subject =>
    exact unmarked_calls.opens w .request registry subject none true unmarked
  | openContext scope registry subject parent? =>
    exact unmarked_calls.opens w scope registry subject parent? true unmarked
  | openChild ctx scope subject =>
    exact unmarked_calls.opens w scope ctx.registry subject (some ctx) _ unmarked
  | openView ctx subject => exact unmarked_calls.views w ctx subject unmarked
  | setWarns ctx warns => exact unmarked_calls.warns w ctx warns unmarked
  | bind ctx name uri => exact unmarked.of_tables rfl
  | get ctx name scope => exact unmarked.resolves (get_resolves w ctx name scope)
  | component ctx name => exact unmarked.resolves (component?_resolves w ctx name)
  | evaluate ctx selector => exact unmarked.resolves (evaluate_resolves w ctx selector)
  | declare ctx name value scope => exact kept (ctx.declare_changes name value scope w)
  | undeclare ctx name scope => exact kept (ctx.undeclare_changes name scope w)
  | release ctx => exact unmarked.releaseTable ctx.node.table
  | hold ref exclusively =>
    simp only [perform, World.hold?]
    split
    · split <;> exact unmarked
    · exact unmarked
  | letGo ref =>
    simp only [perform, World.letGo]
    split <;> exact unmarked

theorem Session.Reached.unmarked {allowed : Session I H → Interaction I H → Prop}
    {s : Session I H} (reached : Reached allowed s) : s.run.world.Unmarked := by
  refine reached.induct (motive := fun s => s.run.world.Unmarked) ?_ ?_
  · exact fun _ _ _ _ => rfl
  · intro s interaction _ unmarked _
    cases interaction with
    | calls call => exact (Machine.perform_effect s.run call).keeps unmarked_calls unmarked
    | asks request => exact request.unmarked unmarked

end CommandChain
