import CommandChain.Machine.PrefixStack
import CommandChain.Proofs.World.Release

/-!
Turns: what a world may become by whatever is done with it. It stays sound, nodes and tables keep
their numbers, and if no instance is held while it is released, every instance is tended to. New
nodes get new numbers.
-/
namespace CommandChain

variable {I H : Type}

namespace World

/-- What a world became; `careful` says that nothing was held while it was released. -/
structure Turn (careful : Prop) (w w' : World I H) : Prop where
  sound : w'.Sound
  nextLayer : w.layers.next ≤ w'.layers.next
  nextNode : w.nextNode ≤ w'.nextNode
  nextTable : w.tables.next ≤ w'.tables.next
  tended : careful → w.Tended w'

section

variable {careful : Prop} {w w' last : World I H}

theorem Turn.refl (careful : Prop) (sound : w.Sound) : Turn careful w w :=
  ⟨sound, Nat.le_refl _, Nat.le_refl _, Nat.le_refl _, fun _ => (Calm.refl w).tended⟩

theorem Turn.trans (sound : w.Sound) (first : Turn careful w w') (second : Turn careful w' last) :
    Turn careful w last :=
  ⟨second.sound, Nat.le_trans first.nextLayer second.nextLayer,
    Nat.le_trans first.nextNode second.nextNode,
    Nat.le_trans first.nextTable second.nextTable,
    fun cares => (first.tended cares).trans sound (second.tended cares)⟩

theorem Calm.turn (calm : w.Calm w') (sound : w.Sound) (careful : Prop) : Turn careful w w' :=
  ⟨calm.sound sound, calm.nextLayer, calm.nextNode, calm.nextTable, fun _ => calm.tended⟩

theorem Alike.turn (same : w.Alike w') (sound : w.Sound) (careful : Prop) : Turn careful w w' :=
  same.calm.turn sound careful

end

/-- Whether all tables of a context were handed out, and its layer. -/
structure Houses (w : World I H) (ctx : Context I H) : Prop where
  tables : ∀ node ∈ ctx.nodes, node.table < w.tables.next
  layer : ctx.namespaces.layer < w.layers.next

theorem Houses.table {w : World I H} {ctx : Context I H} (houses : w.Houses ctx) :
    ctx.node.table < w.tables.next :=
  houses.tables ctx.node (List.mem_cons_self ..)

theorem Houses.mono {w w' : World I H} {ctx : Context I H} (houses : w.Houses ctx)
    (nextLayer : w.layers.next ≤ w'.layers.next) (nextTable : w.tables.next ≤ w'.tables.next) :
    w'.Houses ctx where
  tables node member := Nat.lt_of_lt_of_le (houses.tables node member) nextTable
  layer := Nat.lt_of_lt_of_le houses.layer nextLayer

/-- Whether nobody holds an instance in the tables of some contexts. -/
def Unheld (w : World I H) (contexts : List (Context I H)) : Prop :=
  ∀ ctx ∈ contexts, ∀ entry, w.Caches ctx.node.table entry → ¬ w.Held entry.2.ref.id

theorem Unheld.alike {w w' : World I H} {contexts : List (Context I H)}
    (unheld : w.Unheld contexts) (same : w.Alike w') : w'.Unheld contexts := by
  obtain ⟨-, tables, cells, -, -⟩ := same
  intro ctx member entry caches held
  refine unheld ctx member entry ?_ ?_
  · rw [Caches, World.table, ← tables]
    exact caches
  · rw [Held, ← cells]
    exact held

theorem Unheld.free {w : World I H} {contexts : List (Context I H)} (sound : w.Sound)
    (unheld : w.Unheld contexts) {ctx : Context I H} (member : ctx ∈ contexts) :
    ∀ entry, w.Caches ctx.node.table entry → w.Free entry.2.ref.id :=
  fun entry caches => sound.free caches (unheld ctx member entry caches)

theorem turn_endContexts {w : World I H} {contexts : List (Context I H)} (sound : w.Sound)
    (inside : ∀ ctx ∈ contexts, w.Houses ctx) :
    Turn (w.Unheld contexts) w (w.endContexts contexts) where
  sound := sound.endContexts fun ctx member => (inside ctx member).table
  nextLayer := Nat.le_of_eq (congrArg Store.next (layers_endContexts w contexts).symm)
  nextNode := Nat.le_of_eq (next_endContexts w contexts).1.symm
  nextTable := Nat.le_of_eq (next_endContexts w contexts).2.symm
  tended unheld := tended_endContexts sound (fun ctx member => (inside ctx member).table)
    fun _ member => unheld.free sound member

/-! ### New nodes -/

/-- A node with a number of its own, and with a table of its own unless it is a view. -/
structure Opens (w : World I H) (ctx : Context I H) (w' : World I H) : Prop where
  id : ctx.id = w.nextNode
  below : ctx.id < w'.nextNode
  houses : w'.Houses ctx
  apart : ctx.isPointer = false → w.tables.next ≤ ctx.node.table

theorem Opens.later {w w' last : World I H} {ctx : Context I H} (opens : w.Opens ctx w')
    (nextLayer : w'.layers.next ≤ last.layers.next) (nextNode : w'.nextNode ≤ last.nextNode)
    (nextTable : w'.tables.next ≤ last.tables.next) : w.Opens ctx last :=
  ⟨opens.id, Nat.lt_of_lt_of_le opens.below nextNode, opens.houses.mono nextLayer nextTable,
    opens.apart⟩

section

variable (w : World I H) (scope : Scope) (registry : Registry I H) (subject : Value)
  (parent? : Option (Context I H)) (warns : Bool)

theorem newContext_adds :
    (w.newContext scope registry subject parent? warns).2.tables =
      (w.tables.add (.empty scope warns)).2 ∧
    (w.newContext scope registry subject parent? warns).2.cells = w.cells ∧
    (w.newContext scope registry subject parent? warns).2.hookRuns = w.hookRuns ∧
    (w.newContext scope registry subject parent? warns).2.nextNode = w.nextNode + 1 ∧
    (w.newContext scope registry subject parent? warns).2.layers.next = w.layers.next + 1 := by
  cases parent? <;> exact ⟨rfl, rfl, rfl, rfl, rfl⟩

theorem calm_newContext (sound : w.Sound) :
    w.Calm (w.newContext scope registry subject parent? warns).2 := by
  obtain ⟨tables, cells, hookRuns, nextNode, nextLayer⟩ := newContext_adds w scope registry subject
    parent? warns
  have empty : w.table w.tables.next = default := by
    rw [World.table, Store.get, sound.unborn _ (Nat.le_refl _)]
    rfl
  generalize (w.newContext scope registry subject parent? warns).2 = w' at *
  have table : ∀ other, w'.table other =
      if w.tables.next = other then .empty scope warns else w.table other := by
    intro other
    rw [World.table, tables]
    split
    · rename_i same
      subst same
      exact Store.get_add_self w.tables _
    · rename_i differ
      exact Store.get_add_of_ne w.tables _ differ
  constructor
  case nextLayer => omega
  case nextNode => omega
  case nextTable =>
    rw [tables]
    exact Nat.le_succ _
  case unborn =>
    intro other outside absent
    rw [tables] at outside ⊢
    have differ : w.tables.next ≠ other := by
      have beyond : w.tables.next + 1 ≤ other := outside
      omega
    exact (Store.get?_add_of_ne _ _ differ).trans absent
  case components =>
    intro other
    rw [table]
    split
    · rename_i same
      rw [← same, empty]
      rfl
    · rfl
  case released =>
    intro other
    rw [table]
    split
    · rename_i same
      rw [← same, empty]
      rfl
    · rfl
  case nextCell => exact Nat.le_of_eq (by rw [cells])
  case kept => simp [cells]
  case endRuns => simp [endRuns, hookRuns]

theorem opens_newContext (around : ∀ parent ∈ parent?, w.Houses parent) :
    w.Opens (w.newContext scope registry subject parent? warns).1
      (w.newContext scope registry subject parent? warns).2 := by
  obtain ⟨tables, -, -, nextNode, nextLayer⟩ := newContext_adds w scope registry subject parent?
    warns
  have id : (w.newContext scope registry subject parent? warns).1.id = w.nextNode := by
    cases parent? <;> rfl
  have layer : (w.newContext scope registry subject parent? warns).1.namespaces.layer =
      w.layers.next := by
    cases parent? <;> rfl
  have table :
      (w.newContext scope registry subject parent? warns).1.node.table = w.tables.next := by
    cases parent? <;> rfl
  refine ⟨id, by omega, ⟨fun node member => ?_, by omega⟩, fun _ => Nat.le_of_eq table.symm⟩
  rw [tables]
  change node.table < w.tables.next + 1
  cases parent? with
  | none =>
    cases List.mem_singleton.mp member
    exact Nat.lt_succ_self _
  | some parent =>
    rcases List.mem_cons.mp member with rfl | outer
    · exact Nat.lt_succ_self _
    · exact Nat.lt_succ_of_lt ((around parent rfl).tables node outer)

end

theorem newContext_opens {w w' : World I H} {scope : Scope} {registry : Registry I H}
    {subject : Value} {parent? : Option (Context I H)} {warns : Bool} {ctx : Context I H}
    (sound : w.Sound) (around : ∀ parent ∈ parent?, w.Houses parent)
    (opens : w.newContext scope registry subject parent? warns = (ctx, w')) :
    w.Opens ctx w' ∧ ctx.isPointer = false ∧ w.Calm w' := by
  have own := opens_newContext w scope registry subject parent? warns around
  have calm := calm_newContext w scope registry subject parent? warns sound
  rw [opens] at own calm
  refine ⟨own, ?_, calm⟩
  cases parent? <;> cases opens <;> rfl

theorem openView_ok {w w' : World I H} {ctx view : Context I H} {subject : Value}
    (houses : w.Houses ctx) (opens : w.openView ctx subject = (.ok view, w')) :
    w.Opens view w' ∧ view.isPointer = true ∧ w.Calm w' := by
  unfold openView at opens
  split at opens
  · cases opens
  · cases opens
    refine ⟨⟨rfl, Nat.lt_succ_self _, ⟨fun node member => ?_, houses.layer⟩, nofun⟩, rfl, ?_⟩
    · rcases List.mem_cons.mp member with rfl | outer
      · exact houses.table
      · exact houses.tables node (List.mem_cons_of_mem _ outer)
    · exact ⟨Nat.le_refl _, Nat.le_succ _, Nat.le_refl _, fun _ _ absent => absent, fun _ => rfl,
        fun _ => rfl, Nat.le_refl _, fun _ there => there, fun _ => rfl⟩

/-! ### Prefixes -/

theorem alike_define (stack : PrefixStack I H) (ctx : Context I H) (command : Command)
    (mappings : OrderedMap String String) (w : World I H) :
    w.Alike (stack.define ctx command mappings w).2 := by
  cases stack with
  | nil => exact ⟨rfl, rfl, rfl, rfl, rfl⟩
  | cons top rest =>
    unfold PrefixStack.define
    dsimp only
    split <;> exact ⟨rfl, rfl, rfl, rfl, rfl⟩

theorem alike_undefine {stack rest : PrefixStack I H} {ctx : Context I H} {command : Command}
    {w w' : World I H} (undefines : stack.undefine ctx command w = .ok (rest, w')) :
    w.Alike w' := by
  unfold PrefixStack.undefine at undefines
  split at undefines
  · cases undefines
  · split at undefines
    · split at undefines <;> cases undefines <;> exact ⟨rfl, rfl, rfl, rfl, rfl⟩
    · cases undefines

end World
end CommandChain
