import CommandChain.Proofs.World.Instances

/-!
How a lookup goes at one node. A name that is registered is looked for at the node if it is that of
a component of its scope, where the component is cached once it is found, and else at the node
around it; any other name, and one for which nothing was found, is read from the variables of the
node itself.
-/
namespace CommandChain

variable {I H : Type}

namespace Resolve

/-- What a lookup makes of what it found: where that is nothing, the declared value is read. -/
def readBack (ctx : Context I H) (name : QName) :
    EStateM.Result ResolveError (World I H) (Option Value) →
      EStateM.Result ResolveError (World I H) (Option Value)
  | .ok (some value) w => .ok (some value) w
  | .ok none w => .ok (OrderedMap.find? (w.tableOf ctx).declared name) w
  | .error error w => .error error w

/-- The component of a name in the table of a node, made if it is not there. -/
def obtain? (busy : List Mark) (ctx : Context I H) (name : QName) :
    WorldM I H ResolveError (Option ComponentRef) :=
  fetch busy ctx name fun d _ _ =>
    createAndCache ctx name d (lookup ((ctx.node.table, name) :: busy) ctx)

section

variable {busy : List Mark} {ctx : Context I H} {name : QName} {w w' : World I H}

theorem bind_declared (x : WorldM I H ResolveError (Option Value)) :
    (x >>= fun found => match found with
      | some value => pure (some value)
      | none => do pure (OrderedMap.find? ((← get).tableOf ctx).declared name)) w =
      readBack ctx name (x w) := by
  rw [bind_apply]
  rcases x w with ⟨_ | value, w'⟩ | ⟨error, w'⟩ <;> rfl

theorem lookup_released (released : w.isReleased ctx = true) :
    lookup busy ctx name w = .error (.released ctx.scope) w := by
  rw [lookup, bind_apply, ensureLive_apply, released]
  rfl

section

variable (live : w.isReleased ctx = false)

include live

theorem lookup_unregistered (unregistered : ctx.registry.descriptor? name = none) :
    lookup busy ctx name w = .ok (OrderedMap.find? (w.tableOf ctx).declared name) w := by
  rw [lookup, bind_apply, ensureLive_apply, live]
  simp only [Bool.false_eq_true, if_false]
  split <;>
  · simp only [unregistered]
    rfl

variable {d : Descriptor I H} (registered : ctx.registry.descriptor? name = some d)

include registered

theorem lookup_own (own : d.scope = ctx.scope) : lookup busy ctx name w =
    readBack ctx name (((·.map Value.component) <$> obtain? busy ctx name) w) := by
  rw [lookup, bind_apply, ensureLive_apply, live]
  simp only [Bool.false_eq_true, if_false]
  split <;>
  · simp only [registered, if_pos own]
    rw [← bind_declared, bind_map_left]
    simp only [pure_bind]
    rfl

theorem lookup_outer {node : Node I H} {rest : List (Node I H)} (foreign : d.scope ≠ ctx.scope)
    (outer : ctx.ancestors = node :: rest) :
    lookup busy ctx name w = readBack ctx name (lookup busy ⟨node, rest⟩ name w) := by
  rw [lookup, bind_apply, ensureLive_apply, live]
  simp only [Bool.false_eq_true, if_false]
  split
  · rename_i outermost
    rw [outer] at outermost
    cases outermost
  · rename_i there
    cases outer.symm.trans there
    simp only [registered, if_neg foreign]
    exact bind_declared _

theorem lookup_out_of_reach (foreign : d.scope ≠ ctx.scope) (outermost : ctx.ancestors = []) :
    lookup busy ctx name w = .error (.componentOutOfReach name d.scope) w := by
  rw [lookup, bind_apply, ensureLive_apply, live]
  simp only [Bool.false_eq_true, if_false]
  split
  · simp only [registered, if_neg foreign]
    rfl
  · rename_i there
    rw [outermost] at there
    cases there

end

/-! ### Where components are found -/

theorem createAndCache_cached {d : Descriptor I H} {ref : ComponentRef}
    {lookup : QName → WorldM I H ResolveError (Option Value)}
    (makes : createAndCache ctx name d lookup w = .ok ref w') :
    OrderedMap.find? (w'.tableOf ctx).components name = some ⟨ref, d⟩ := by
  unfold createAndCache at makes
  simp only [bind_apply, modify_apply, attempt] at makes
  cases creates : Lifecycle.create (evaluateWith ctx lookup) d ctx (w.beginMaking ctx name) with
  | error error made =>
    rw [creates] at makes
    cases makes
  | ok made w'' =>
    rw [creates] at makes
    cases makes
    rw [World.tableOf, World.table_changeTable, if_pos rfl]
    exact OrderedMap.find?_insert_self _ name _

theorem obtain?_nil (ctx : Context I H) (name : QName) :
    obtain? [] ctx name = ctx.component? name := rfl

/-- How a component is obtained: it is refused, found or not registered, and nothing has changed, or
it is made. -/
theorem obtain?_cases (busy : List Mark) (ctx : Context I H) (name : QName) (w : World I H) :
    (∃ error, obtain? busy ctx name w = .error error w) ∨
    (∃ ref, (w.tableOf ctx).component? name = some ref ∧
      obtain? busy ctx name w = .ok (some ref) w) ∨
    (ctx.registry.descriptor? name = none ∧ obtain? busy ctx name w = .ok none w) ∨
    ∃ d, ctx.registry.descriptor? name = some d ∧ busy.contains (ctx.node.table, name) = false ∧
      w.isReleased ctx = false ∧ (w.tableOf ctx).component? name = none ∧
      name ∉ (w.tableOf ctx).creating ∧ obtain? busy ctx name w =
        (some <$> createAndCache ctx name d (lookup ((ctx.node.table, name) :: busy) ctx)) w := by
  unfold obtain?
  rcases fetch_cases _ w with ⟨-, fetches⟩ | ⟨live, ⟨ref, cached, fetches⟩ |
      ⟨absent, ⟨unregistered, fetches⟩ | ⟨d, registered, ⟨-, fetches⟩ |
      ⟨free, idle, fetches⟩⟩⟩⟩ <;> rw [fetches]
  · exact .inl ⟨_, rfl⟩
  · exact .inr (.inl ⟨ref, cached, rfl⟩)
  · exact .inr (.inr (.inl ⟨unregistered, rfl⟩))
  · exact .inl ⟨_, rfl⟩
  · exact .inr (.inr (.inr ⟨d, registered, free, live, absent, idle, rfl⟩))

theorem obtain?_ok {d : Descriptor I H} {found : Option ComponentRef}
    (registered : ctx.registry.descriptor? name = some d)
    (obtains : obtain? busy ctx name w = .ok found w') :
    ∃ ref, found = some ref ∧ (w'.tableOf ctx).component? name = some ref ∧
      ((w.tableOf ctx).component? name = none →
        OrderedMap.find? (w'.tableOf ctx).components name = some ⟨ref, d⟩) := by
  rcases obtain?_cases busy ctx name w with ⟨error, fetches⟩ | ⟨ref, cached, fetches⟩ |
      ⟨unregistered, fetches⟩ | ⟨own, known, -, -, -, -, fetches⟩ <;> rw [fetches] at obtains
  · cases obtains
  · cases obtains
    exact ⟨ref, rfl, cached, fun absent => by rw [cached] at absent; cases absent⟩
  · rw [registered] at unregistered
    cases unregistered
  · cases registered.symm.trans known
    rw [map_apply] at obtains
    split at obtains
    · rename_i makes
      cases obtains
      have there := createAndCache_cached makes
      exact ⟨_, rfl, congrArg (·.map Cached.ref) there, fun _ => there⟩
    · cases obtains

end
end Resolve

namespace Context

variable {ctx : Context I H} {name : QName} {d : Descriptor I H} {w : World I H}

theorem component?_ok {made : Option ComponentRef}
    (registered : ctx.registry.descriptor? name = some d)
    (serves : (outcomeOf (ctx.component? name w)).1 = .ok made) :
    ∃ ref, made = some ref ∧
      ((outcomeOf (ctx.component? name w)).2.tableOf ctx).component? name = some ref := by
  cases outcome : ctx.component? name w with
  | error error w' =>
    rw [outcome] at serves
    cases serves
  | ok made' w' =>
    rw [outcome] at serves
    cases serves
    obtain ⟨ref, rfl, cached, -⟩ := Resolve.obtain?_ok registered outcome
    exact ⟨ref, rfl, cached⟩

end Context
end CommandChain
