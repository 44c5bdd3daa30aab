import CommandChain.Proofs.World.Turn

/-!
Where contexts come from. A context is opened on its own or below another one, or it is a view of
another one. So every node of a context lies over a table of its own scope. All nodes of it share
one registry unless one of them was given another registry than the node around it has.
-/
namespace CommandChain

variable {I H : Type}

/-- Whether the nodes around a context have its registry. -/
def Context.Uniform (ctx : Context I H) : Prop :=
  ∀ node ∈ ctx.ancestors, node.registry = ctx.registry

namespace World

/-- Whether a world has handed out all that another one had, and no table has changed its scope. -/
structure Later (w w' : World I H) : Prop where
  nextLayer : w.layers.next ≤ w'.layers.next
  nextNode : w.nextNode ≤ w'.nextNode
  nextTable : w.tables.next ≤ w'.tables.next
  scope : ∀ table < w.tables.next, (w'.table table).scope = (w.table table).scope

namespace Later

variable {w middle w' : World I H}

theorem of_alike (alike : w.Alike w') : w.Later w' where
  nextLayer := Nat.le_of_eq alike.nextLayer.symm
  nextNode := Nat.le_of_eq alike.nextNode.symm
  nextTable := Nat.le_of_eq (congrArg Store.next alike.tables).symm
  scope _ _ := by rw [table, alike.tables, table]

theorem refl (w : World I H) : w.Later w := .of_alike ⟨rfl, rfl, rfl, rfl, rfl⟩

theorem trans (first : w.Later middle) (second : middle.Later w') : w.Later w' where
  nextLayer := Nat.le_trans first.nextLayer second.nextLayer
  nextNode := Nat.le_trans first.nextNode second.nextNode
  nextTable := Nat.le_trans first.nextTable second.nextTable
  scope table below := (second.scope table (Nat.lt_of_lt_of_le below first.nextTable)).trans
    (first.scope table below)

theorem setWarns (w : World I H) (ctx : Context I H) (warns : Bool) :
    w.Later (w.setWarns ctx warns) where
  nextLayer := Nat.le_refl _
  nextNode := Nat.le_refl _
  nextTable := Nat.le_refl _
  scope table _ := by
    rw [World.setWarns, table_changeTable]
    split <;> rfl

theorem opens (later : middle.Later w') {ctx : Context I H} (opens : w.Opens ctx middle) :
    w.Opens ctx w' :=
  opens.later later.nextLayer later.nextNode later.nextTable

end Later

/-- How a context comes to be: it is opened on its own or below one of some others, whose registry
it may be bound to inherit, or it is a view of one of them. -/
inductive Origin (inherits : Prop) (w : World I H) (others : List (Context I H)) (ctx : Context I H)
    (w' : World I H) : Prop where
  | opened {scope : Scope} {registry : Registry I H} {subject : Value}
    {parent? : Option (Context I H)} {warns : Bool}
    (among : ∀ parent ∈ parent?, parent ∈ others)
    (inherited : inherits → ∀ parent ∈ parent?, parent.registry = registry)
    (opens : w.newContext scope registry subject parent? warns = (ctx, w'))
  | viewed {origin : Context I H} {subject : Value} (among : origin ∈ others)
    (opens : w.openView origin subject = (.ok ctx, w'))

/-- Whether every node of a context lies over a table of its own scope. -/
def Fits (w : World I H) (ctx : Context I H) : Prop :=
  ∀ node ∈ ctx.nodes, (w.table node.table).scope = node.scope

section

variable {inherits : Prop} {w w' : World I H} {others : List (Context I H)} {ctx : Context I H}
  {scope : Scope} {registry : Registry I H} {subject : Value} {parent? : Option (Context I H)}

theorem Origin.of_openRoot (opens : w.openContext scope registry subject none = (ctx, w')) :
    w.Origin inherits others ctx w' :=
  .opened (fun _ none => by cases none) (fun _ _ none => by cases none) opens

theorem Origin.of_openChildIn {parent : Context I H} (among : parent ∈ others)
    (opens : w.openChildIn parent scope subject = (ctx, w')) : w.Origin inherits others ctx w' :=
  .opened (fun _ same => Option.some.inj same ▸ among)
    (fun _ _ same => Option.some.inj same ▸ rfl) opens

theorem Origin.opens (origin : w.Origin inherits others ctx w')
    (houses : ∀ other ∈ others, w.Houses other) : w.Opens ctx w' := by
  cases origin with
  | @opened scope registry subject parent? warns among inherited opens =>
    have opened := opens_newContext w scope registry subject parent? warns fun parent same =>
      houses parent (among parent same)
    rwa [opens] at opened
  | viewed among opens => exact (openView_ok (houses _ among) opens).1

theorem Fits.later (fits : w.Fits ctx) (houses : w.Houses ctx) (later : w.Later w') :
    w'.Fits ctx := fun node member =>
  (later.scope node.table (houses.tables node member)).trans (fits node member)

theorem newContext_node {warns : Bool}
    (opens : w.newContext scope registry subject parent? warns = (ctx, w')) :
    ctx.node.table = w.tables.next ∧ ctx.namespaces.layer = w.layers.next ∧
      ctx.ancestors = (parent?.map Context.nodes).getD [] ∧ ctx.scope = scope ∧
      ctx.registry = registry := by
  cases parent? <;> cases opens <;> exact ⟨rfl, rfl, rfl, rfl, rfl⟩

theorem openView_node {origin : Context I H} (opens : w.openView origin subject = (.ok ctx, w')) :
    ctx.node.table = origin.node.table ∧ ctx.namespaces = origin.namespaces ∧
      ctx.ancestors = origin.ancestors ∧ ctx.scope = origin.scope ∧
      ctx.registry = origin.registry ∧ w'.tables = w.tables := by
  unfold openView at opens
  split at opens <;> cases opens
  exact ⟨rfl, rfl, rfl, rfl, rfl, rfl⟩

theorem Origin.fits (origin : w.Origin inherits others ctx w')
    (houses : ∀ other ∈ others, w.Houses other) (fit : ∀ other ∈ others, w.Fits other) :
    w'.Fits ctx := by
  intro node member
  cases origin with
  | @opened scope registry subject parent? warns among inherited opens =>
    have tables := (newContext_adds w scope registry subject parent? warns).1
    obtain ⟨table, -, around, there, -⟩ := newContext_node opens
    rw [opens] at tables
    rcases List.mem_cons.mp member with rfl | outer
    · rw [table, World.table, tables]
      exact (congrArg Table.scope (Store.get_add_self w.tables _)).trans there.symm
    · rw [around] at outer
      cases parent? with
      | none => cases outer
      | some parent =>
        have known := among parent rfl
        -- a table that was handed out before is not the new one
        have below := (houses parent known).tables node outer
        have older : w'.table node.table = w.table node.table := by
          rw [World.table, tables]
          exact Store.get_add_of_ne w.tables _ (Nat.ne_of_gt below)
        rw [older]
        exact fit parent known node outer
  | @viewed origin subject among opens =>
    obtain ⟨table, -, around, scope, -, tables⟩ := openView_node opens
    rw [World.table, tables]
    rcases List.mem_cons.mp member with rfl | outer
    · rw [table]
      exact (fit origin among origin.node List.mem_cons_self).trans scope.symm
    · exact fit origin among node (List.mem_cons_of_mem _ (around ▸ outer))

theorem Origin.uniform (origin : w.Origin inherits others ctx w') (inherit : inherits)
    (uniform : ∀ other ∈ others, other.Uniform) : ctx.Uniform := by
  intro node outer
  cases origin with
  | @opened scope registry subject parent? warns among inherited opens =>
    obtain ⟨-, -, around, -, shared⟩ := newContext_node opens
    rw [around] at outer
    cases parent? with
    | none => cases outer
    | some parent =>
      rw [shared, ← inherited inherit parent rfl]
      rcases List.mem_cons.mp outer with rfl | outer
      · rfl
      · exact uniform parent (among parent rfl) node outer
  | @viewed origin subject among opens =>
    obtain ⟨-, -, around, -, registry, -⟩ := openView_node opens
    rw [around] at outer
    rw [registry]
    exact uniform origin among node outer

end
end World
end CommandChain
