import CommandChain.Proofs.Resolution

/-!
What becomes of the tables of a world. Calls on a machine, and all that an embedder asks for but
lookups and declarations, leave every table its scope and its variables, and its components unless
the table is released; the tables that come with them are empty.
-/
namespace CommandChain

variable {I H : Type}

namespace World

/-- Whether tables keep their scopes and variables, and their components unless they are emptied.
New tables have neither components nor variables. -/
structure Thins (emptied : Nat → Prop) (w w' : World I H) : Prop where
  nextTable : w.tables.next ≤ w'.tables.next
  scope : ∀ table < w.tables.next, (w'.table table).scope = (w.table table).scope
  declared : ∀ table, (w'.table table).declared = (w.table table).declared ∨
    w.tables.next ≤ table ∧ (w'.table table).declared = []
  components : ∀ table, (w'.table table).components = (w.table table).components ∨
    (emptied table ∨ w.tables.next ≤ table) ∧ (w'.table table).components = []

namespace Thins

variable {emptied : Nat → Prop} {w middle w' : World I H}

theorem of_tables (same : w'.tables = w.tables) : Thins emptied w w' where
  nextTable := Nat.le_of_eq (congrArg Store.next same.symm)
  scope _ _ := by rw [table, same, table]
  declared _ := .inl (by rw [table, same, table])
  components _ := .inl (by rw [table, same, table])

theorem trans (first : Thins emptied w middle) (second : Thins emptied middle w') :
    Thins emptied w w' where
  nextTable := Nat.le_trans first.nextTable second.nextTable
  scope table below := (second.scope table (Nat.lt_of_lt_of_le below first.nextTable)).trans
    (first.scope table below)
  declared table := by
    rcases second.declared table with same | ⟨beyond, none⟩
    · rw [same]
      exact first.declared table
    · exact .inr ⟨Nat.le_trans first.nextTable beyond, none⟩
  components table := by
    rcases second.components table with same | ⟨emptied | beyond, none⟩
    · rw [same]
      exact first.components table
    · exact .inr ⟨.inl emptied, none⟩
    · exact .inr ⟨.inr (Nat.le_trans first.nextTable beyond), none⟩

theorem changeTable (w : World I H) (ctx : Context I H) {change : Table I H → Table I H}
    (scope : ∀ table, (change table).scope = table.scope)
    (declared : ∀ table, (change table).declared = table.declared)
    (components : ∀ table, (change table).components = table.components) :
    Thins emptied w (w.changeTable ctx change) where
  nextTable := Nat.le_refl _
  scope table _ := by
    rw [table_changeTable]
    split
    · exact scope _
    · rfl
  declared table := by
    rw [table_changeTable]
    split
    · exact .inl (declared _)
    · exact .inl rfl
  components table := by
    rw [table_changeTable]
    split
    · exact .inl (components _)
    · exact .inl rfl

theorem newContext (w : World I H) (scope : Scope) (registry : Registry I H) (subject : Value)
    (parent? : Option (Context I H)) (warns : Bool) :
    Thins emptied w (w.newContext scope registry subject parent? warns).2 := by
  have tables := (newContext_adds w scope registry subject parent? warns).1
  generalize (w.newContext scope registry subject parent? warns).2 = w' at tables
  have added : w'.table w.tables.next = .empty scope warns := by
    rw [World.table, tables]
    exact Store.get_add_self w.tables _
  have other {table : Nat} (differ : w.tables.next ≠ table) : w'.table table = w.table table := by
    rw [World.table, tables]
    exact Store.get_add_of_ne w.tables _ differ
  constructor
  case nextTable =>
    rw [tables]
    exact Nat.le_succ _
  case scope =>
    intro table below
    rw [other (Nat.ne_of_gt below)]
  case declared =>
    intro table
    by_cases new : w.tables.next = table
    · exact .inr ⟨Nat.le_of_eq new, by rw [← new, added]; rfl⟩
    · exact .inl (by rw [other new])
  case components =>
    intro table
    by_cases new : w.tables.next = table
    · exact .inr ⟨.inr (Nat.le_of_eq new), by rw [← new, added]; rfl⟩
    · exact .inl (by rw [other new])

theorem openChild {current own : Context I H} {subject : Value}
    (opens : w.openChild current subject = (own, w')) : Thins emptied w w' := by
  have opened : Thins emptied w (w.openChild current subject).2 := newContext _ _ _ _ _ _
  rwa [opens] at opened

theorem openView {ctx : Context I H} {subject : Value}
    {outcome : Except SelectorError (Context I H)}
    (opens : w.openView ctx subject = (outcome, w')) : Thins emptied w w' := by
  unfold World.openView at opens
  split at opens <;> cases opens <;> exact of_tables rfl

theorem releaseTable (w : World I H) {id : Nat} (empties : emptied id) :
    Thins emptied w (w.releaseTable id) where
  nextTable := Nat.le_of_eq (congrArg Store.next (runs_releaseTable w id).tables).symm
  scope table _ := by
    rw [table_releaseTable]
    split
    · rename_i same
      rw [← same]
    · rfl
  declared table := by
    rw [table_releaseTable]
    split
    · rename_i same
      exact .inl (by rw [← same])
    · exact .inl rfl
  components table := by
    rw [table_releaseTable]
    split
    · rename_i same
      exact .inr ⟨.inl (same ▸ empties), rfl⟩
    · exact .inl rfl

theorem endContext (w : World I H) {ctx : Context I H}
    (empties : ctx.isPointer = false → emptied ctx.node.table) :
    Thins emptied w (w.endContext ctx) := by
  rw [endContext_eq]
  split
  · exact of_tables rfl
  · rename_i ends
    have owner : ctx.isPointer = false := by simpa using fun pointer => ends (.inl pointer)
    have retires : Thins emptied (w.releaseTable ctx.node.table)
        ((w.releaseTable ctx.node.table).retired ctx) :=
      changeTable _ ctx (fun _ => rfl) (fun _ => rfl) fun _ => rfl
    exact ((releaseTable w (empties owner)).trans retires).trans (of_tables rfl)

theorem endContexts (w : World I H) {contexts : List (Context I H)}
    (empties : ∀ ctx ∈ contexts, ctx.isPointer = false → emptied ctx.node.table) :
    Thins emptied w (w.endContexts contexts) := by
  induction contexts generalizing w with
  | nil => exact of_tables rfl
  | cons ctx rest ih =>
    exact (endContext w (empties ctx List.mem_cons_self)).trans
      (ih _ fun other member => empties other (List.mem_cons_of_mem _ member))

end Thins
end World

open World

/-! ### Calls -/

theorem Call.opening_thins {run : Run I H} {call : Call I H} {global : Context I H}
    {world : World I H} {emptied : Nat → Prop} (opens : call.opening run = some (global, world)) :
    Thins emptied run.world world := by
  cases call with
  | start subject =>
    have opened : Thins emptied run.world
        (run.world.openContext .execution run.machine.registry subject none).2 :=
      .newContext _ _ _ _ _ _
    rwa [Option.some.inj opens] at opened
  | startWithin parent => exact .openChild (Option.some.inj opens)
  | _ => cases opens

def Interaction.empties (run : Run I H) (interaction : Interaction I H) (table : Nat) : Prop :=
  ∃ ctx ∈ interaction.releasing run, ctx.node.table = table

theorem Effect.thins {run run' : Run I H} {call : Call I H}
    {outcome : Except ExecutionError (Option (Context I H))}
    (effect : Effect run call outcome run') {known : List (Context I H)}
    (handles : Handles run.world known) (stacked : ∀ ctx ∈ run.machine.working, ctx ∈ known)
    (named : ∀ ctx ∈ call.context?, ctx ∈ known) :
    Thins ((Interaction.calls call).empties run) run.world run'.world := by
  have unbound {undone : Run I H} {ctx : Context I H} {command : Command}
      (undoes : run.unbound ctx command = .ok undone) :
      Thins ((Interaction.calls call).empties run) run.world undone.world :=
    .of_tables (unbound_alike undoes).tables
  have bound {w : World I H} (m : Machine I H) (log : List LogEntry) (ctx : Context I H)
      (command : Command) (thins : Thins ((Interaction.calls call).empties run) run.world w) :
      Thins ((Interaction.calls call).empties run) run.world
        (Run.bound ⟨m, w.logged log⟩ ctx command).world :=
    thins.trans (.of_tables (bound_alike ⟨m, w.logged log⟩ ctx command).tables)
  have departed {undone : Run I H} {command : Command} {ctx top : Context I H} {keeps : Bool}
      {frame : Frame I H} {rest : List (Frame I H)} {outer : List (Context I H)}
      (departs : Departs run call command ctx keeps undone frame rest)
      (unit : command.isBoundary = true) (contexts : run.machine.contexts = top :: outer) :
      Thins ((Interaction.calls call).empties run) run.world
        (if keeps then undone.world else undone.world.endContext top) := by
    refine (unbound departs.undoes).trans ?_
    cases keeps with
    | true => exact .of_tables rfl
    | false =>
      refine .endContext _ fun _ => ⟨top, ?_, rfl⟩
      have releases : (Interaction.calls call).releasing run = [top] :=
        departs.releasing unit contexts
      rw [releases]
      exact List.mem_singleton_self top
  cases effect with
  | rejected | viewResumed | thrown | handled => exact .of_tables rfl
  | entered | resumed | resumedUnit => exact bound _ _ _ _ (.of_tables rfl)
  | unused opens => exact Call.opening_thins opens
  | begun opens =>
    rename_i global world log idle
    have warned : Thins ((Interaction.calls call).empties run) world
        (world.setWarns global run.machine.settings.warnUnreleased) :=
      .changeTable world global (fun _ => rfl) (fun _ => rfl) fun _ => rfl
    exact ((Call.opening_thins opens).trans warned).trans (.of_tables rfl)
  | ended running =>
    rename_i global log
    have ended : Thins ((Interaction.calls .finish).empties run) run.world
        (run.world.endContexts run.machine.working) := by
      exact .endContexts _ fun ctx member _ => ⟨ctx, member, rfl⟩
    rw [Machine.endContexts_working running] at ended
    exact ended.trans (.of_tables rfl)
  | enteredUnit unit now shallow opens =>
    exact bound _ _ _ _ (.openChild opens)
  | left departs => exact (unbound departs.undoes).trans (.of_tables rfl)
  | leftUnit departs unit contexts =>
    exact (departed departs unit contexts).trans (.of_tables rfl)
  | tornContext departs => exact (unbound departs.undoes :)
  | tornTrace departs unit contexts => exact departed departs unit contexts
  | viewed here opens => exact .openView opens
  | viewLeft unviews here pointer contexts =>
    rename_i ctx keeps top outer
    obtain ⟨current, now, same⟩ := here
    rw [Machine.current_of_top contexts] at now
    cases now
    have named : ctx ∈ known := named ctx (by
      rcases Call.of_unviewing unviews with ⟨rfl, -⟩ | ⟨rfl, -⟩ <;> rfl)
    have view := handles.unique _ (stacked _ (by simp [Machine.working, contexts])) _ named same
    split
    · exact .of_tables rfl
    · refine .endContext _ fun owner => ?_
      rw [view, pointer] at owner
      cases owner

/-! ### Requests -/

namespace Context

variable (ctx : Context I H) (name : VariableName) (scope : Option Scope)

def place : WorldM I H ResolveError (Context I H × QName) := do
  let name ← ctx.resolveName name
  pure (← ctx.target scope, name)

theorem place_world (w : World I H) : (outcomeOf (ctx.place name scope w)).2 = w := by
  have steady : IsSteady fun w w' : World I H => w' = w :=
    ⟨fun _ => rfl, fun first second => second.trans first⟩
  have reads : Keeps (fun w w' : World I H => w' = w) (ctx.resolveName name) := by
    cases name with
    | text text =>
      exact (@Resolve.readName_keeps I H (fun _ w w' => w' = w) [] steady ctx text).adaptExcept _
    | qualified name => exact .of_pure steady _
  have aims : Keeps (fun w w' : World I H => w' = w) (ctx.target scope) := by
    cases scope with
    | none => exact .of_pure steady _
    | some scope =>
      simp only [target, atScope]
      split
      · exact .of_pure steady _
      · exact .of_throw steady _
  exact Keeps.bind steady reads (fun _ => .bind steady aims fun _ => .of_pure steady _) w

theorem bind_place {α : Type} (next : Context I H × QName → WorldM I H ResolveError α)
    (w : World I H) : (ctx.place name scope >>= next) w =
      match (outcomeOf (ctx.place name scope w)).1 with
      | .ok place => next place w
      | .error error => .error error w := by
  have same := ctx.place_world name scope w
  rw [bind_apply]
  cases placed : ctx.place name scope w <;> rw [placed] at same <;> cases same <;> rfl

/-- The table and the name of the variable that is asked for. -/
def placed? (w : World I H) : Option (Nat × QName) :=
  (outcomeOf (ctx.place name scope w)).1.toOption.map fun place => (place.1.node.table, place.2)

theorem declare_eq (value : Value) : ctx.declare name value scope =
    ctx.place name scope >>= fun place => place.1.declareHere place.2 value := by
  simp [declare, place]

theorem undeclare_eq : ctx.undeclare name scope =
    ctx.place name scope >>= fun place => place.1.undeclareHere place.2 := by
  simp [undeclare, place]

end Context

def World.changeVariables (w : World I H) (ctx : Context I H)
    (change : OrderedMap QName Value → OrderedMap QName Value) : World I H :=
  w.changeTable ctx fun table => { table with declared := change table.declared }

namespace Context

theorem declareHere_apply (ctx : Context I H) (name : QName) (value : Value) (w : World I H) :
    ctx.declareHere name value w =
      if w.isReleased ctx then .error (.released ctx.scope) w
      else if (ctx.registry.descriptorIn? name ctx.scope).isSome then
        .error (.shadowsComponent name) w
      else .ok () (w.changeVariables ctx (OrderedMap.insert · name value)) := by
  unfold declareHere
  rw [bind_apply, Resolve.ensureLive_apply]
  cases w.isReleased ctx with
  | true => rfl
  | false =>
    simp only [Bool.false_eq_true, if_false]
    split <;> rfl

theorem undeclareHere_apply (ctx : Context I H) (name : QName) (w : World I H) :
    ctx.undeclareHere name w =
      if w.isReleased ctx then .error (.released ctx.scope) w
      else .ok (OrderedMap.find? (w.tableOf ctx).declared name)
        (w.changeVariables ctx (OrderedMap.erase · name)) := by
  unfold undeclareHere
  rw [bind_apply, Resolve.ensureLive_apply]
  cases w.isReleased ctx <;> rfl

end Context

/-- What becomes of a world: tables are emptied and added, names are looked up, or one variable is
written. -/
inductive World.Course (looks : Prop) (emptied : Nat → Prop) (written : Option (Nat × QName))
    (w : World I H) : World I H → Prop where
  | thins {w' : World I H} (thins : Thins emptied w w') : Course looks emptied written w w'
  | resolves {w' : World I H} (looking : looks) (resolves : w.Resolves w') :
    Course looks emptied written w w'
  | writes {ctx : Context I H} {name : QName}
    {change : OrderedMap QName Value → OrderedMap QName Value}
    (wrote : written = some (ctx.node.table, name))
    (others : ∀ entries other, name ≠ other →
      OrderedMap.find? (change entries) other = OrderedMap.find? entries other)
    (once : ∀ entries, (OrderedMap.keys entries).Nodup →
      (OrderedMap.keys (change entries)).Nodup) :
    Course looks emptied written w (w.changeVariables ctx change)

def Request.looksUp : Request I H → Prop
  | .get _ _ _ | .component _ _ | .evaluate _ _ => True
  | _ => False

/-- The table and the name of the variable that a request declares or removes, if it is not
refused. -/
def Request.written? (w : World I H) : Request I H → Option (Nat × QName)
  | .declare ctx name value scope =>
    (outcomeOf (ctx.declare name value scope w)).1.toOption.bind fun _ => ctx.placed? name scope w
  | .undeclare ctx name scope =>
    (outcomeOf (ctx.undeclare name scope w)).1.toOption.bind fun _ => ctx.placed? name scope w
  | _ => none

theorem Request.course (request : Request I H) (m : Machine I H) (w : World I H) :
    w.Course request.looksUp ((Interaction.asks request).empties ⟨m, w⟩) (request.written? w)
      (request.perform w).2 := by
  cases request with
  | openRoot registry subject => exact .thins (.newContext w .request registry subject none true)
  | openContext scope registry subject parent? =>
    exact .thins (.newContext w scope registry subject parent? true)
  | openChild ctx scope subject =>
    exact .thins (.newContext w scope ctx.registry subject (some ctx) (w.tableOf ctx).warns)
  | openView ctx subject => exact .thins (.openView rfl)
  | setWarns ctx warns =>
    have warned : Thins ((Interaction.asks (.setWarns ctx warns)).empties ⟨m, w⟩) w
        (w.setWarns ctx warns) := .changeTable w ctx (fun _ => rfl) (fun _ => rfl) fun _ => rfl
    exact .thins warned
  | bind ctx name uri => exact .thins (.of_tables rfl)
  | get ctx name scope => exact .resolves trivial (get_resolves w ctx name scope)
  | component ctx name => exact .resolves trivial (component?_resolves w ctx name)
  | evaluate ctx selector => exact .resolves trivial (evaluate_resolves w ctx selector)
  | declare ctx name value scope =>
    have declares := Context.bind_place ctx name scope
      (fun place => place.1.declareHere place.2 value) w
    rw [← Context.declare_eq] at declares
    cases placed : (outcomeOf (ctx.place name scope w)).1 with
    | error error =>
      rw [perform, declares, placed]
      exact .thins (.of_tables rfl)
    | ok place =>
      simp only [placed, Context.declareHere_apply] at declares
      split at declares
      · rw [perform, declares]
        exact .thins (.of_tables rfl)
      · split at declares
        · rw [perform, declares]
          exact .thins (.of_tables rfl)
        · have wrote : (Request.declare ctx name value scope).written? w =
              some (place.1.node.table, place.2) := by
            rw [written?, declares, Context.placed?, placed]
            rfl
          rw [perform, declares]
          exact (World.Course.writes wrote
            (fun entries _ differ => OrderedMap.find?_insert_of_ne entries value differ)
            (fun _ once => OrderedMap.nodup_insert once place.2 value) :)
  | undeclare ctx name scope =>
    have undeclares := Context.bind_place ctx name scope
      (fun place => place.1.undeclareHere place.2) w
    rw [← Context.undeclare_eq] at undeclares
    cases placed : (outcomeOf (ctx.place name scope w)).1 with
    | error error =>
      rw [perform, undeclares, placed]
      exact .thins (.of_tables rfl)
    | ok place =>
      simp only [placed, Context.undeclareHere_apply] at undeclares
      split at undeclares
      · rw [perform, undeclares]
        exact .thins (.of_tables rfl)
      · have wrote : (Request.undeclare ctx name scope).written? w =
            some (place.1.node.table, place.2) := by
          rw [written?, undeclares, Context.placed?, placed]
          rfl
        rw [perform, undeclares]
        exact (World.Course.writes wrote
          (fun entries _ differ => OrderedMap.find?_erase_of_ne entries differ)
          (fun entries once => once.sublist (OrderedMap.keys_erase_sublist entries place.2)) :)
  | release ctx => exact .thins (.releaseTable w ⟨ctx, List.mem_singleton_self ctx, rfl⟩)
  | hold ref exclusively =>
    simp only [perform, World.hold?]
    split
    · split <;> exact .thins (.of_tables rfl)
    · exact .thins (.of_tables rfl)
  | letGo ref =>
    simp only [perform, World.letGo]
    split <;> exact .thins (.of_tables rfl)

namespace World.Course

variable {looks : Prop} {emptied : Nat → Prop} {written : Option (Nat × QName)} {w w' : World I H}

theorem nextTable (course : w.Course looks emptied written w') :
    w.tables.next ≤ w'.tables.next := by
  cases course with
  | thins thins => exact thins.nextTable
  | resolves _ resolves => exact Nat.le_of_eq resolves.nextTable.symm
  | writes => exact Nat.le_refl _

theorem scope (course : w.Course looks emptied written w') {table : Nat}
    (below : table < w.tables.next) : (w'.table table).scope = (w.table table).scope := by
  cases course with
  | thins thins => exact thins.scope table below
  | resolves _ resolves => exact resolves.scope table
  | writes =>
    rw [changeVariables, table_changeTable]
    split <;> rfl

theorem declared (course : w.Course looks emptied written w') {table : Nat} {name : QName}
    (below : table < w.tables.next) (unwritten : written ≠ some (table, name)) :
    OrderedMap.find? (w'.table table).declared name =
      OrderedMap.find? (w.table table).declared name := by
  cases course with
  | thins thins =>
    rcases thins.declared table with same | ⟨beyond, -⟩
    · rw [same]
    · exact absurd below (Nat.not_lt.mpr beyond)
  | resolves _ resolves => rw [resolves.declared]
  | writes wrote others once =>
    rw [changeVariables, table_changeTable]
    split
    · rename_i here
      refine others _ name fun same => unwritten ?_
      rw [wrote, here, same]
    · rfl

theorem once (course : w.Course looks emptied written w')
    (each : ∀ table, (OrderedMap.keys (w.table table).declared).Nodup) (table : Nat) :
    (OrderedMap.keys (w'.table table).declared).Nodup := by
  cases course with
  | thins thins =>
    rcases thins.declared table with same | ⟨-, none⟩
    · rw [same]
      exact each table
    · rw [none]
      exact List.nodup_nil
  | resolves _ resolves =>
    rw [resolves.declared]
    exact each table
  | writes wrote others once =>
    rw [changeVariables, table_changeTable]
    split
    · exact once _ (each table)
    · exact each table

theorem gains (course : w.Course looks emptied written w') {table : Nat}
    (below : table < w.tables.next) (spared : ¬ emptied table) : ∃ gained,
      (w'.table table).components = (w.table table).components ++ gained := by
  cases course with
  | thins thins =>
    rcases thins.components table with same | ⟨emptied | beyond, -⟩
    · exact ⟨[], by rw [same, List.append_nil]⟩
    · exact absurd emptied spared
    · exact absurd below (Nat.not_lt.mpr beyond)
  | resolves _ resolves => exact resolves.gains table
  | writes =>
    refine ⟨[], ?_⟩
    rw [changeVariables, table_changeTable, List.append_nil]
    split <;> rfl

/-- No component comes into a table but by a lookup. -/
theorem loses (course : w.Course looks emptied written w') (idle : ¬ looks) {table : Nat}
    {entry : QName × Cached I H} (caches : w'.Caches table entry) : w.Caches table entry := by
  cases course with
  | thins thins =>
    rcases thins.components table with same | ⟨-, none⟩
    · rwa [Caches, same] at caches
    · rw [Caches, none] at caches
      cases caches
  | resolves looking => exact absurd looking idle
  | writes =>
    rw [Caches, changeVariables, table_changeTable] at caches
    split at caches <;> exact caches

end World.Course

/-! ### Sessions -/

namespace Interaction

def looksUp : Interaction I H → Prop
  | .calls _ => False
  | .asks request => request.looksUp

def written? (w : World I H) : Interaction I H → Option (Nat × QName)
  | .calls _ => none
  | .asks request => request.written? w

end Interaction

namespace Session

variable {s : Session I H} {interaction : Interaction I H}

theorem Housed.course (housed : s.Housed) (knows : s.Knows interaction) :
    s.run.world.Course interaction.looksUp (interaction.empties s.run)
      (interaction.written? s.run.world) (s.after interaction).run.world := by
  cases interaction with
  | calls call =>
    exact .thins ((Machine.perform_effect s.run call).thins housed.handles housed.stacked knows)
  | asks request => exact request.course s.run.machine s.run.world

theorem Housed.later (housed : s.Housed) (knows : s.Knows interaction) :
    s.run.world.Later (s.after interaction).run.world :=
  have turn := housed.turn knows
  ⟨turn.nextLayer, turn.nextNode, turn.nextTable, fun _ below => (housed.course knows).scope below⟩

theorem Reached.known_fits (reached : Reached Knows s) : ∀ ctx ∈ s.known, s.run.world.Fits ctx := by
  refine reached.induct (motive := fun s => ∀ ctx ∈ s.known, s.run.world.Fits ctx) ?_ ?_
  · exact fun _ _ _ => nofun
  · intro s interaction reached fits knows ctx member
    have housed := reached.known_housed
    have houses := housed.handles.houses
    have later := housed.later knows
    have older (among : ctx ∈ s.known) := (fits ctx among).later (houses ctx among) later
    obtain ⟨told, known, origin⟩ := housed.origin knows
    rw [known] at member
    rcases List.mem_append.mp member with new | old
    · rcases origin ctx (Option.mem_toList.mp new) with among | ⟨world, origin, later⟩
      · exact older among
      · exact (origin.fits houses fits).later (origin.opens houses).houses later
    · exact older old

/-- Where every context that is opened below another one is given its registry, each context has one
registry throughout. -/
theorem Reached.known_uniform
    (reached : Reached (fun s interaction => s.Knows interaction ∧ interaction.Inherits) s) :
    ∀ ctx ∈ s.known, ctx.Uniform := by
  refine reached.induct (motive := fun s => ∀ ctx ∈ s.known, ctx.Uniform) ?_ ?_
  · exact fun _ _ _ => nofun
  · intro s interaction reached uniform ⟨knows, inherits⟩ ctx member
    have housed := reached.housed fun _ _ allowed => allowed.1
    obtain ⟨told, known, origin⟩ := housed.origin knows
    rw [known] at member
    rcases List.mem_append.mp member with new | old
    · rcases origin ctx (Option.mem_toList.mp new) with among | ⟨world, origin, -⟩
      · exact uniform ctx among
      · exact origin.uniform inherits uniform
    · exact uniform ctx old

theorem Reached.once (reached : Reached Knows s) :
    ∀ table, (OrderedMap.keys (s.run.world.table table).declared).Nodup := by
  refine reached.induct (motive := fun s =>
    ∀ table, (OrderedMap.keys (s.run.world.table table).declared).Nodup) ?_ ?_
  · exact fun _ _ _ _ => List.nodup_nil
  · exact fun s interaction reached ih knows =>
      (reached.known_housed.course knows).once ih

end Session
end CommandChain
