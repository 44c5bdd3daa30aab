import CommandChain.Proofs.Machine.Tables

/-!
The nodes that a context is a chain of. A new node has the newest layer and the newest table, and a
view stands in the place of its origin. So the nodes of a context lie in layers that were handed
out, and no two of them over one table.
-/
namespace CommandChain

variable {I H : Type}

namespace World

structure Chains (w : World I H) (ctx : Context I H) : Prop where
  layers : ∀ node ∈ ctx.nodes, node.namespaces.layer < w.layers.next
  apart : (ctx.nodes.map (·.table)).Nodup

section

variable {inherits : Prop} {w w' : World I H} {others : List (Context I H)} {ctx : Context I H}

theorem Chains.mono (chains : w.Chains ctx) (nextLayer : w.layers.next ≤ w'.layers.next) :
    w'.Chains ctx where
  layers node member := Nat.lt_of_lt_of_le (chains.layers node member) nextLayer
  apart := chains.apart

theorem newContext_chains {scope : Scope} {registry : Registry I H} {subject : Value}
    {parent? : Option (Context I H)} {warns : Bool}
    (opens : w.newContext scope registry subject parent? warns = (ctx, w'))
    (houses : ∀ parent ∈ parent?, w.Houses parent) (chain : ∀ parent ∈ parent?, w.Chains parent) :
    w'.Chains ctx := by
  obtain ⟨table, layer, around, -⟩ := newContext_node opens
  have nextLayer : w'.layers.next = w.layers.next + 1 := by
    have adds := (newContext_adds w scope registry subject parent? warns).2.2.2.2
    rwa [opens] at adds
  have above : ∀ node ∈ ctx.ancestors,
      node.namespaces.layer < w.layers.next ∧ node.table < w.tables.next := by
    intro node outer
    rw [around] at outer
    cases parent? with
    | none => cases outer
    | some parent =>
      exact ⟨(chain parent rfl).layers node outer, (houses parent rfl).tables node outer⟩
  constructor
  case layers =>
    intro node member
    rcases List.mem_cons.mp member with rfl | outer
    · have own : ctx.node.namespaces.layer = w.layers.next := layer
      omega
    · have older := (above node outer).1
      omega
  case apart =>
    refine List.nodup_cons.mpr ⟨fun again => ?_, ?_⟩
    · obtain ⟨node, outer, same⟩ := List.mem_map.mp again
      have older := (above node outer).2
      have same : node.table = ctx.node.table := same
      omega
    · rw [around]
      cases parent? with
      | none => exact List.nodup_nil
      | some parent => exact (chain parent rfl).apart

theorem openView_chains {origin : Context I H} {subject : Value}
    (opens : w.openView origin subject = (.ok ctx, w')) (chains : w.Chains origin) :
    w'.Chains ctx := by
  obtain ⟨table, namespaces, around, -⟩ := openView_node opens
  have nextLayer : w'.layers.next = w.layers.next := by
    unfold openView at opens
    split at opens <;> cases opens
    rfl
  constructor
  case layers =>
    intro node member
    rw [nextLayer]
    rcases List.mem_cons.mp member with rfl | outer
    · change ctx.namespaces.layer < w.layers.next
      rw [namespaces]
      exact chains.layers origin.node List.mem_cons_self
    · rw [around] at outer
      exact chains.layers node (List.mem_cons_of_mem _ outer)
  case apart =>
    have tables : ctx.nodes.map (·.table) = origin.nodes.map (·.table) := by
      simp only [Context.nodes, List.map_cons, table, around]
    rw [tables]
    exact chains.apart

theorem Origin.chains (origin : w.Origin inherits others ctx w')
    (houses : ∀ other ∈ others, w.Houses other) (chain : ∀ other ∈ others, w.Chains other) :
    w'.Chains ctx := by
  cases origin with
  | opened among _ opens =>
    exact newContext_chains opens (fun parent here => houses parent (among parent here))
      fun parent here => chain parent (among parent here)
  | viewed among opens => exact openView_chains opens (chain _ among)

end
end World

namespace Session

/-- The contexts that an embedder was told are chains of nodes, each over a table of its own. -/
theorem Reached.known_chains {s : Session I H} (reached : Reached Knows s) :
    ∀ ctx ∈ s.known, s.run.world.Chains ctx := by
  refine reached.induct (motive := fun s => ∀ ctx ∈ s.known, s.run.world.Chains ctx) ?_ ?_
  · exact fun _ _ _ => nofun
  · intro s interaction reached chains knows ctx member
    have housed := reached.known_housed
    have later := housed.later knows
    obtain ⟨told, known, origin⟩ := housed.origin knows
    rw [known] at member
    rcases List.mem_append.mp member with new | old
    · rcases origin ctx (Option.mem_toList.mp new) with among | ⟨world, origin, later⟩
      · exact (chains ctx among).mono (housed.later knows).nextLayer
      · exact (origin.chains housed.handles.houses chains).mono later.nextLayer
    · exact (chains ctx old).mono later.nextLayer

end Session
end CommandChain
