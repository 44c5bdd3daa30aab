import CommandChain.Proofs.Machine.Call

/-!
The prefixes that a command binds while it runs. What an override replaced is enough to put a layer
back as it was, entry by entry and in the same order, if the layer is by then what the override
left. A command that binds prefixes counts up or lays a frame of its own on the stack, and either is
undone to the letter.
-/
namespace CommandChain

variable {I H : Type}

namespace Namespaces

theorem restoreEntry_insert (layer : Layer) (name : String) (binding : Binding) :
    restoreEntry (OrderedMap.insert layer name binding) name (OrderedMap.find? layer name) =
      layer := by
  induction layer with
  | nil => simp [restoreEntry, OrderedMap.find?, OrderedMap.insert, OrderedMap.erase]
  | cons entry rest ih =>
    obtain ⟨key, old⟩ := entry
    by_cases same : key = name
    · simp [restoreEntry, OrderedMap.find?, OrderedMap.insert, same]
    · cases found : OrderedMap.find? rest name <;>
        simp_all [restoreEntry, OrderedMap.find?, OrderedMap.insert, OrderedMap.erase]

theorem restore_overrideLayer (layer : Layer) (mappings : List (String × String)) :
    restoreLayer (overrideLayer layer mappings).2 (overrideLayer layer mappings).1 = layer := by
  induction mappings generalizing layer with
  | nil => rfl
  | cons mapping rest ih =>
    obtain ⟨name, uri⟩ := mapping
    have inner := ih (OrderedMap.insert layer name (.bound uri))
    unfold restoreLayer at inner ⊢
    simp only [overrideLayer, List.reverse_cons, List.foldl_append, inner, List.foldl_cons,
      List.foldl_nil]
    exact restoreEntry_insert layer name _

end Namespaces

/-- Whether the layers below a limit hold the same. -/
def Layers.Same (limit : Nat) (layers layers' : Layers) : Prop :=
  ∀ id < limit, layers'.get id = layers.get id

namespace Layers.Same

variable {limit more : Nat} {layers middle last : Layers}

theorem trans (first : Layers.Same limit layers middle) (second : Layers.Same more middle last)
    (least : limit ≤ more) : Layers.Same limit layers last := fun id below =>
  (second id (Nat.lt_of_lt_of_le below least)).trans (first id below)

end Layers.Same

theorem get_set_layer (layers : Layers) (id other : Nat) (layer : Layer) :
    (layers.set id layer).get other = if id = other then layer else layers.get other := by
  unfold Store.get
  split
  · rename_i same
    rw [← same, Store.get?_set_self]
    rfl
  · rename_i differ
    rw [Store.get?_set_of_ne _ _ differ]

/-- How a command binds its prefixes on a context: not at all, by counting up, or by a frame of its
own. What it replaced puts the layers below the limit back. -/
inductive Binds (command : Command) (ctx : Context I H) (limit : Nat)
    (before : PrefixStack I H) (layers : Layers) : PrefixStack I H → Layers → Prop where
  | silent {layers'} (none_bound : command.mappings = none)
    (same : Layers.Same limit layers layers') : Binds command ctx limit before layers before layers'
  | again {top rest layers' mappings} (bound : command.mappings = some mappings)
    (stack : before = top :: rest) (own : top.isFor ctx command = true)
    (same : Layers.Same limit layers layers') :
    Binds command ctx limit before layers ({ top with reentries := top.reentries + 1 } :: rest)
      layers'
  | anew {replaced layers' mappings} (bound : command.mappings = some mappings)
    (same : Layers.Same limit layers (ctx.namespaces.restore layers' replaced)) :
    Binds command ctx limit before layers (⟨ctx, command, replaced, 0⟩ :: before) layers'

namespace Binds

variable {command : Command} {ctx : Context I H} {limit : Nat}

theorem of_bound (run : Run I H) (ctx : Context I H) (command : Command) (limit : Nat) :
    Binds command ctx limit run.machine.prefixes run.world.layers
      (run.bound ctx command).machine.prefixes (run.bound ctx command).world.layers := by
  unfold Run.bound
  cases mappings : command.mappings with
  | none => exact .silent mappings fun _ _ => rfl
  | some bindings =>
    have entered : Layers.Same limit run.world.layers (ctx.namespaces.restore
        (ctx.namespaces.applyOverride run.world.layers bindings).2
        (ctx.namespaces.applyOverride run.world.layers bindings).1) := by
      intro id below
      simp only [Namespaces.restore, Namespaces.applyOverride, get_set_layer]
      split
      · rename_i same
        rw [if_pos trivial, Namespaces.restore_overrideLayer, same]
      · rfl
    dsimp only
    unfold PrefixStack.define
    cases stack : run.machine.prefixes with
    | nil => exact .anew mappings entered
    | cons top rest =>
      dsimp only
      split
      · rename_i own
        exact .again mappings rfl own fun _ _ => rfl
      · exact .anew mappings entered

/-- What comes and goes in between does not matter, if the layers are left as they were found. -/
theorem later {before stack : PrefixStack I H} {layers middle last : Layers} {more : Nat}
    (binds : Binds command ctx limit before layers stack middle)
    (same : Layers.Same more middle last) (least : limit ≤ more)
    (inside : ctx.namespaces.layer < more) : Binds command ctx limit before layers stack last := by
  cases binds with
  | silent none_bound kept => exact .silent none_bound (kept.trans same least)
  | again bound stacked own kept => exact .again bound stacked own (kept.trans same least)
  | anew bound kept =>
    refine .anew bound fun id below => ?_
    rw [← kept id below]
    simp only [Namespaces.restore, get_set_layer, same _ inside]
    split
    · rfl
    · exact same id (Nat.lt_of_lt_of_le below least)

theorem earlier {before stack : PrefixStack I H} {first layers last : Layers}
    (binds : Binds command ctx limit before layers stack last)
    (same : Layers.Same limit first layers) : Binds command ctx limit before first stack last := by
  cases binds with
  | silent none_bound kept => exact .silent none_bound (same.trans kept (Nat.le_refl _))
  | again bound stacked own kept =>
    exact .again bound stacked own (same.trans kept (Nat.le_refl _))
  | anew bound kept => exact .anew bound (same.trans kept (Nat.le_refl _))

/-- What was bound last can be undone, and then the stack and the layers are as before. -/
theorem undoes {run : Run I H} {before : PrefixStack I H} {layers : Layers}
    (binds : Binds command ctx limit before layers run.machine.prefixes run.world.layers) :
    ∃ layers', run.unbound ctx command =
        .ok ⟨{ run.machine with prefixes := before }, { run.world with layers := layers' }⟩ ∧
      Layers.Same limit layers layers' ∧ layers'.next = run.world.layers.next := by
  obtain ⟨machine, world⟩ := run
  unfold Run.unbound
  generalize stacked : machine.prefixes = prefixes at binds
  generalize seen : world.layers = present at binds
  cases binds with
  | silent none_bound same =>
    subst seen stacked
    rw [none_bound]
    exact ⟨world.layers, rfl, same, rfl⟩
  | again bound stack own same =>
    rename_i top rest mappings
    subst seen
    have own' : ({ top with reentries := top.reentries + 1 } : PrefixFrame I H).isFor ctx command =
        true := own
    rw [bound]
    refine ⟨world.layers, ?_, same, rfl⟩
    simp only [stack, PrefixStack.undefine, own', if_true]
  | anew bound same =>
    rename_i replaced mappings
    subst seen
    have own : (⟨ctx, command, replaced, 0⟩ : PrefixFrame I H).isFor ctx command = true := by
      simp [PrefixFrame.isFor, Context.same, Command.same]
    rw [bound]
    refine ⟨ctx.namespaces.restore world.layers replaced, ?_, same, rfl⟩
    simp only [PrefixStack.undefine, own, if_true]
    rfl

end Binds
end CommandChain
