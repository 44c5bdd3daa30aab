import CommandChain.Context.Variables
import CommandChain.Proofs.Computation

/-!
What a lookup may do to a world. A lookup evaluates selectors, makes components on the way and
caches them, so whatever holds of its parts holds of it by one induction on the room it leaves for
further components. `Rules` says what the parts must keep; what is asked for under a mark is never
cached while the mark stands.
-/
namespace CommandChain

variable {I H : Type}

/-- Whether two worlds differ in nothing but their layers, their log, what was tried and the
embedder's state. -/
structure World.Alike (w w' : World I H) : Prop where
  nextLayer : w'.layers.next = w.layers.next
  tables : w'.tables = w.tables
  cells : w'.cells = w.cells
  hookRuns : w'.hookRuns = w.hookRuns
  nextNode : w'.nextNode = w.nextNode

/-- Whether two worlds differ in nothing but their log and the embedder's state. -/
structure World.Twin (w w' : World I H) : Prop extends w.Alike w' where
  layers : w'.layers = w.layers
  attempts : w'.attempts = w.attempts

/-- What a family of relations between worlds, one for each list of marks, must allow for lookups at
nodes that are `near` to keep it. What lookups make is what `makes` allows: the components of a
node's own scope, and whatever else is asked for. -/
structure Rules (near : Node I H → Prop) (makes : Node I H → QName → Descriptor I H → Prop)
    (R : List Mark → World I H → World I H → Prop) : Prop where
  steady (busy : List Mark) : IsSteady (R busy)
  own {node : Node I H} {name : QName} {d : Descriptor I H} (here : near node)
    (registered : node.registry.descriptor? name = some d) (scope : d.scope = node.scope) :
    makes node name d
  twin {busy : List Mark} {w w' : World I H} (same : w.Twin w') : R busy w w'
  /-- Bindings that are in force for a while and are then undone. -/
  bracket {busy : List Mark} {ctx : Context I H} {w w' : World I H}
    (mappings : List (String × String)) (inner : R busy (w.overrideBindings ctx mappings).2 w') :
    R busy w (w'.restoreBindings ctx (w.overrideBindings ctx mappings).1)
  construct {busy : List Mark} (w : World I H) (typeName : String) (content : I) :
    R busy w (w.addCell typeName content).2
  run {α : Type} {busy : List Mark} (w : World I H) (ref : ComponentRef) (action : Action I H α) :
    R busy w (w.runOn ref action).2
  hook {busy : List Mark} (w : World I H) (ref : ComponentRef) (hook : Hook I H) :
    R busy w (w.runHook ref .begin hook).2
  /-- A component that came to nothing under its own mark. -/
  fail {busy : List Mark} {ctx : Context I H} {name : QName} {w w' : World I H}
    (here : near ctx.node) (idle : name ∉ (w.tableOf ctx).creating)
    (absent : (w.tableOf ctx).component? name = none)
    (marked : R ((ctx.node.table, name) :: busy) (w.beginMaking ctx name) w') :
    R busy w (w'.endMaking ctx name none)
  /-- A component that was made under its own mark is cached where there was none. -/
  cache {busy : List Mark} {ctx : Context I H} {name : QName} {d : Descriptor I H} {content : I}
    {w made w' : World I H} (here : near ctx.node) (allowed : makes ctx.node name d)
    (free : (ctx.node.table, name) ∉ busy) (idle : name ∉ (w.tableOf ctx).creating)
    (live : w.isReleased ctx = false) (absent : (w.tableOf ctx).component? name = none)
    (same : (w.beginMaking ctx name).Twin made)
    (marked : R ((ctx.node.table, name) :: busy) (made.addCell d.typeName content).2 w') :
    R busy w ((w'.endMaking ctx name (some (made.addCell d.typeName content).1)).changeTable ctx
      (·.cache name ⟨(made.addCell d.typeName content).1, d⟩))

/-- As `Rules`, for what declares variables too. -/
structure DeclaringRules (near : Node I H → Prop)
    (makes : Node I H → QName → Descriptor I H → Prop)
    (R : List Mark → World I H → World I H → Prop) : Prop extends Rules near makes R where
  declare {busy : List Mark} {ctx : Context I H} (here : near ctx.node) (w : World I H)
    (change : OrderedMap QName Value → OrderedMap QName Value) :
    R busy w (w.changeTable ctx fun table => { table with declared := change table.declared })

namespace Selector

variable {σ : Type} {R : σ → σ → Prop} {text : String} {subject : Value} {env : Environment σ}

/-- What an environment keeps in all it answers. -/
structure Environment.Keeps (env : Environment σ) (R : σ → σ → Prop) : Prop where
  valueOf (name : String) : CommandChain.Keeps R (env.valueOf name)
  call (name : String) (args : List Value) : CommandChain.Keeps R (env.call name args)

theorem follow_keeps (steady : IsSteady R) (value : Value) (steps : Steps) :
    Keeps R (follow text value steps : Evaluation σ Value) := by
  unfold follow
  split
  · exact .of_throw steady _
  · split
    · exact .of_throw steady _
    · exact .of_pure steady _

mutual

theorem Expr.evaluate_keeps (steady : IsSteady R) (keeps : env.Keeps R) (expr : Expr) :
    Keeps R (expr.evaluate text subject env) := by
  cases expr with
  | subject steps =>
    unfold Expr.evaluate
    exact follow_keeps steady _ _
  | var name steps =>
    unfold Expr.evaluate
    refine .bind steady (keeps.valueOf name) fun found => ?_
    cases found with
    | some value => exact follow_keeps steady _ _
    | none => exact .of_throw steady _
  | literal value =>
    unfold Expr.evaluate
    exact .of_pure steady _
  | call name args =>
    unfold Expr.evaluate
    exact .bind steady (args.evaluate_keeps steady keeps) fun values => keeps.call name values
  | broken fault =>
    unfold Expr.evaluate
    exact .of_throw steady _

theorem Args.evaluate_keeps (steady : IsSteady R) (keeps : env.Keeps R) (args : Args) :
    Keeps R (args.evaluate text subject env) := by
  cases args with
  | close =>
    unfold Args.evaluate
    exact .of_pure steady _
  | item arg rest =>
    unfold Args.evaluate
    refine .bind steady (arg.evaluate_keeps steady keeps) fun value => ?_
    exact .bind steady (rest.evaluate_keeps steady keeps) fun values => .of_pure steady _
  | broken fault =>
    unfold Args.evaluate
    exact .of_throw steady _

end

theorem evaluate_keeps (steady : IsSteady R) (keeps : env.Keeps R) (text : String)
    (subject : Value) : Keeps R (evaluate text subject env) := by
  unfold evaluate
  refine .bind steady (Expr.evaluate_keeps steady keeps _) fun value => ?_
  split
  · exact .of_throw steady _
  · exact .of_pure steady _

end Selector

section

variable {near : Node I H → Prop} {makes : Node I H → QName → Descriptor I H → Prop}
  {R : List Mark → World I H → World I H → Prop} {busy : List Mark}

/-! ### Making a component -/

namespace Lifecycle

variable {evaluate : Evaluator I H}

theorem evaluatePoint_keeps (rules : Rules near makes R)
    (keeps : ∀ text, Keeps (R busy) (evaluate text)) (ctx : Context I H)
    (point : InjectionPoint I H) :
    Keeps (R busy) (evaluatePoint evaluate ctx point) := by
  intro w
  have kept := rules.bracket _ (keeps point.injection.select
    (w.overrideBindings ctx point.injection.mappings).2)
  unfold evaluatePoint
  simp only [bind_apply, modifyGet_apply, attempt]
  cases ran : evaluate point.injection.select
      (w.overrideBindings ctx point.injection.mappings).2 <;> rw [ran] at kept <;> exact kept

theorem injectPoint_keeps (rules : Rules near makes R)
    (keeps : ∀ text, Keeps (R busy) (evaluate text)) (ref : ComponentRef) (ctx : Context I H)
    (point : InjectionPoint I H) :
    Keeps (R busy) (injectPoint evaluate ref ctx point) := by
  have steady := rules.steady busy
  unfold injectPoint
  refine .bind steady (evaluatePoint_keeps rules keeps ctx point) fun outcome => ?_
  cases outcome with
  | error error => exact .of_pure steady _
  | ok value =>
    refine .bind steady (.of_modifyGet fun w => rules.run w ref _) fun ran => ?_
    cases ran with
    | some outcome => exact .of_pure steady _
    | none => exact .of_pure steady _

theorem injectPoints_keeps (rules : Rules near makes R)
    (keeps : ∀ text, Keeps (R busy) (evaluate text)) (ref : ComponentRef) (d : Descriptor I H)
    (ctx : Context I H) (points : List (InjectionPoint I H)) :
    Keeps (R busy) (injectPoints evaluate ref d ctx points) := by
  have steady := rules.steady busy
  induction points with
  | nil => exact .of_pure steady _
  | cons point rest ih =>
    unfold injectPoints
    refine .bind steady (injectPoint_keeps rules keeps ref ctx point) fun outcome => ?_
    cases outcome with
    | ok _ => exact ih
    | error cause =>
      dsimp only
      split
      · refine .bind steady (.of_modify fun w => ?_) fun _ => ih
        exact rules.twin ⟨⟨rfl, rfl, rfl, rfl, rfl⟩, rfl, rfl⟩
      · exact .of_throw steady _

theorem beginHooks_keeps (rules : Rules near makes R) (ref : ComponentRef) (name : QName)
    (hooks : List (Hook I H)) :
    Keeps (R busy) (beginHooks ref name hooks) := by
  have steady := rules.steady busy
  induction hooks with
  | nil => exact .of_pure steady _
  | cons hook rest ih =>
    unfold beginHooks
    refine .bind steady (.of_modifyGet fun w => rules.hook w ref hook) fun ran => ?_
    rcases ran with _ | _ | _
    · exact .of_throw steady _
    · exact .of_throw steady _
    · exact ih

theorem create_outcome (rules : Rules near makes R)
    (keeps : ∀ text, Keeps (R busy) (evaluate text)) (d : Descriptor I H) (ctx : Context I H)
    (w : World I H) :
    match create evaluate d ctx w with
    | .error _ w' => R busy w w'
    | .ok ref w' => ∃ made content, w.Twin made ∧
        ref = (made.addCell d.typeName content).1 ∧
        R busy (made.addCell d.typeName content).2 w' := by
  have steady := rules.steady busy
  unfold create
  rw [bind_apply]
  unfold construct
  cases d.construct w.host with
  | error cause host => exact rules.twin ⟨⟨rfl, rfl, rfl, rfl, rfl⟩, rfl, rfl⟩
  | ok content host =>
    have made : w.Twin { w with host } := ⟨⟨rfl, rfl, rfl, rfl, rfl⟩, rfl, rfl⟩
    have placed := steady.trans (rules.twin made)
      (rules.construct { w with host } d.typeName content)
    have fed := injectPoints_keeps rules keeps ({ w with host }.addCell d.typeName content).1 d ctx
      d.injections ({ w with host }.addCell d.typeName content).2
    simp only [bind_apply, inject]
    cases feeds : injectPoints evaluate _ d ctx d.injections _ with
    | error error w' =>
      rw [feeds] at fed
      exact steady.trans placed fed
    | ok _ w' =>
      rw [feeds] at fed
      have hooked : R busy w' (outcomeOf (beginHooks
          ({ w with host }.addCell d.typeName content).1 d.name d.beginHooks w')).2 :=
        beginHooks_keeps rules _ d.name d.beginHooks w'
      simp only [begin]
      cases begins : beginHooks _ d.name d.beginHooks w' with
      | error error w'' =>
        rw [begins] at hooked
        exact steady.trans placed (steady.trans fed hooked)
      | ok _ w'' =>
        rw [begins] at hooked
        exact ⟨{ w with host }, content, made, rfl,
          steady.trans fed (steady.trans hooked (rules.twin ⟨⟨rfl, rfl, rfl, rfl, rfl⟩, rfl, rfl⟩))⟩

end Lifecycle

/-! ### Lookups -/

namespace Resolve

theorem ensureLive_apply (ctx : Context I H) (w : World I H) :
    ensureLive ctx w = if w.isReleased ctx then .error (.released ctx.scope) w else .ok () w := by
  simp only [ensureLive, bind_apply, get_apply]
  split <;> rfl

theorem ensureLive_keeps (steady : IsSteady (R busy)) (ctx : Context I H) :
    Keeps (R busy) (ensureLive ctx) := by
  intro w
  rw [ensureLive_apply]
  split <;> exact steady.refl w

theorem readName_keeps (steady : IsSteady (R busy)) (ctx : Context I H) (text : String) :
    Keeps (R busy) (readName ctx text) := by
  unfold readName
  refine .bind steady (.of_get steady) fun w => ?_
  split
  · exact .of_pure steady _
  · exact .of_throw steady _

theorem environment_keeps (steady : IsSteady (R busy)) (ctx : Context I H)
    {lookup : QName → WorldM I H ResolveError (Option Value)}
    (keeps : ∀ name, Keeps (R busy) (lookup name)) :
    (environment ctx lookup).Keeps (R busy) where
  valueOf name := by
    refine .bind steady (Keeps.adaptExcept (readName_keeps steady ctx _) _) fun name => ?_
    exact (keeps name).adaptExcept _
  call name args := by
    refine .bind steady (Keeps.adaptExcept (readName_keeps steady ctx _) _) fun name => ?_
    split
    · exact .of_throw steady _
    · split
      · exact .of_pure steady _
      · exact .of_throw steady _

theorem evaluateWith_keeps (steady : IsSteady (R busy)) (ctx : Context I H)
    {lookup : QName → WorldM I H ResolveError (Option Value)}
    (keeps : ∀ name, Keeps (R busy) (lookup name)) (text : String) :
    Keeps (R busy) (evaluateWith ctx lookup text) :=
  Selector.evaluate_keeps steady (environment_keeps steady ctx keeps) _ _

/-- A component that is made under its own mark, for a name that has none. It need be allowed only
if it comes to one. -/
theorem createAndCache_keeps (rules : Rules near makes R) {ctx : Context I H}
    (here : near ctx.node) {name : QName} {d : Descriptor I H}
    (free : busy.contains (ctx.node.table, name) = false)
    {lookup : QName → WorldM I H ResolveError (Option Value)}
    (keeps : ∀ other, Keeps (R ((ctx.node.table, name) :: busy)) (lookup other)) {w : World I H}
    (allowed : ∀ ref w', createAndCache ctx name d lookup w = .ok ref w' → makes ctx.node name d)
    (live : w.isReleased ctx = false) (absent : (w.tableOf ctx).component? name = none)
    (idle : name ∉ (w.tableOf ctx).creating) :
    R busy w (outcomeOf (createAndCache ctx name d lookup w)).2 := by
  have steady := rules.steady busy
  have created := Lifecycle.create_outcome rules
    (evaluateWith_keeps (rules.steady _) ctx keeps) d ctx (w.beginMaking ctx name)
  generalize comes : createAndCache ctx name d lookup w = outcome at allowed ⊢
  unfold createAndCache at comes
  simp only [bind_apply, modify_apply, attempt] at comes
  cases creates : Lifecycle.create (evaluateWith ctx lookup) d ctx (w.beginMaking ctx name) with
  | error error w' =>
    rw [creates] at created comes
    rw [← comes]
    exact steady.trans (rules.fail here idle absent created)
      (rules.twin ⟨⟨rfl, rfl, rfl, rfl, rfl⟩, rfl, rfl⟩)
  | ok ref w' =>
    rw [creates] at created comes
    obtain ⟨made, content, same, rfl, marked⟩ := created
    have wanted := allowed _ _ comes.symm
    rw [← comes]
    exact rules.cache here wanted (by simpa using free) idle live absent same marked

/-- How a component is fetched: it is refused, found or not registered, and nothing has changed, or
it is made. -/
theorem fetch_cases {ctx : Context I H} {name : QName}
    (create : (d : Descriptor I H) → ctx.registry.descriptor? name = some d →
      busy.contains (ctx.node.table, name) = false → WorldM I H ResolveError ComponentRef)
    (w : World I H) :
    (w.isReleased ctx = true ∧ fetch busy ctx name create w = .error (.released ctx.scope) w) ∨
    w.isReleased ctx = false ∧
      ((∃ ref, (w.tableOf ctx).component? name = some ref ∧
          fetch busy ctx name create w = .ok (some ref) w) ∨
        (w.tableOf ctx).component? name = none ∧
          (ctx.registry.descriptor? name = none ∧ fetch busy ctx name create w = .ok none w ∨
            ∃ d, ∃ registered : ctx.registry.descriptor? name = some d,
              ((busy.contains (ctx.node.table, name) = true ∨
                  name ∈ (w.tableOf ctx).creating) ∧
                fetch busy ctx name create w = .error (.circularComponent name) w) ∨
              ∃ free, name ∉ (w.tableOf ctx).creating ∧
                fetch busy ctx name create w = (some <$> create d registered free) w)) := by
  generalize fetches : fetch busy ctx name create w = outcome
  unfold fetch at fetches
  rw [bind_apply, ensureLive_apply] at fetches
  cases released : w.isReleased ctx with
  | true =>
    rw [released] at fetches
    exact .inl ⟨rfl, fetches.symm⟩
  | false =>
    simp only [released, Bool.false_eq_true, if_false, bind_apply, get_apply] at fetches
    refine .inr ⟨rfl, ?_⟩
    cases cached : (w.tableOf ctx).component? name with
    | some ref =>
      rw [cached] at fetches
      exact .inl ⟨ref, rfl, fetches.symm⟩
    | none =>
      simp only [cached] at fetches
      refine .inr ⟨rfl, ?_⟩
      -- Named apart from the world it runs in, for its cases depend on proofs of themselves.
      obtain ⟨x, made, runs⟩ : ∃ x : WorldM I H ResolveError (Option ComponentRef),
          x = _ ∧ x w = outcome := ⟨_, rfl, fetches⟩
      subst runs
      split at made
      · rename_i unregistered
        subst made
        exact .inl ⟨unregistered, rfl⟩
      · rename_i d registered
        refine .inr ⟨d, registered, ?_⟩
        split at made
        · rename_i busy_with
          subst made
          exact .inl ⟨.inl busy_with, rfl⟩
        · rename_i free
          rw [made, bind_apply, get_apply]
          dsimp only
          split
          · rename_i making
            exact .inl ⟨.inr (by simpa using making), rfl⟩
          · rename_i idle
            exact .inr ⟨free, by simpa using idle, rfl⟩

theorem fetch_keeps (rules : Rules near makes R) {ctx : Context I H} {name : QName}
    {create : (d : Descriptor I H) → ctx.registry.descriptor? name = some d →
      busy.contains (ctx.node.table, name) = false → WorldM I H ResolveError ComponentRef}
    (creates : ∀ d registered free w, w.isReleased ctx = false →
      (w.tableOf ctx).component? name = none → name ∉ (w.tableOf ctx).creating →
      R busy w (outcomeOf (create d registered free w)).2) :
    Keeps (R busy) (fetch busy ctx name create) := by
  have steady := rules.steady busy
  intro w
  rcases fetch_cases create w with ⟨-, fetches⟩ | ⟨live, ⟨ref, -, fetches⟩ | ⟨absent, ⟨-, fetches⟩ |
      ⟨d, registered, ⟨-, fetches⟩ | ⟨free, idle, fetches⟩⟩⟩⟩ <;> rw [fetches]
  · exact steady.refl w
  · exact steady.refl w
  · exact steady.refl w
  · exact steady.refl w
  · rw [outcomeOf_map]
    exact creates d registered free w live absent idle

theorem declared_keeps (steady : IsSteady (R busy)) (ctx : Context I H) (name : QName)
    (found : Option Value) : Keeps (R busy) (match found with
      | some value => pure (some value)
      | none => do pure (OrderedMap.find? ((← get).tableOf ctx).declared name) :
      WorldM I H ResolveError (Option Value)) := by
  cases found with
  | some value => exact .of_pure steady _
  | none => exact .bind steady (.of_get steady) fun w => .of_pure steady _

theorem room_outer_lt (busy : List Mark) {ctx : Context I H} {node : Node I H}
    {rest : List (Node I H)} (around : ctx.ancestors = node :: rest) :
    room busy (Context.mk node rest).nodes + (Context.mk node rest).ancestors.length <
      room busy ctx.nodes + ctx.ancestors.length := by
  have nodes : ctx.nodes = ctx.node :: node :: rest := by rw [← around]; rfl
  rw [nodes, around]
  show room busy (node :: rest) + rest.length < _
  simp only [room, List.length_cons]
  omega

theorem lookup_keeps (rules : Rules near makes R) (name : QName) (ctx : Context I H)
    (inside : ∀ node ∈ ctx.nodes, near node) : Keeps (R busy) (lookup busy ctx name) := by
  induction measured : room busy ctx.nodes + ctx.ancestors.length using Nat.strongRecOn
    generalizing busy ctx name with
  | ind size ih =>
    have steady := rules.steady busy
    rw [lookup]
    refine .bind steady (ensureLive_keeps steady ctx) fun _ => ?_
    have declared := declared_keeps steady ctx name
    dsimp only
    split
    · exact .bind steady (.of_pure steady _) declared
    · rename_i known found
      split
      · rename_i own
        refine .bind steady (fetch_keeps rules fun d registered free w live absent idle => ?_)
          fun ref? => .bind steady (.of_pure steady _) declared
        have here := inside _ (List.mem_cons_self ..)
        have scope : d.scope = ctx.scope := by
          cases found.symm.trans registered
          exact own
        refine createAndCache_keeps rules here free (fun other => ?_)
          (fun _ _ _ => rules.own here registered scope) live absent idle
        have less := room_mark_lt registered free
        exact ih _ (by omega) other ctx inside rfl
      · split
        · exact .bind steady (.of_throw steady _) declared
        · rename_i node rest outer
          have less := room_outer_lt busy outer
          refine .bind steady (ih _ (by omega) name ⟨node, rest⟩ (fun other member => ?_) rfl)
            declared
          refine inside other (List.mem_cons_of_mem _ ?_)
          rw [outer]
          exact member

end Resolve

/-! ### What a context offers -/

namespace Context

theorem component?_keeps (rules : Rules near makes R) (ctx : Context I H) (name : QName)
    (inside : ∀ node ∈ ctx.nodes, near node)
    (asked : ∀ d, ctx.registry.descriptor? name = some d → makes ctx.node name d) :
    Keeps (R []) (ctx.component? name) := by
  refine Resolve.fetch_keeps rules fun d registered free w live absent idle => ?_
  exact Resolve.createAndCache_keeps rules (inside _ (List.mem_cons_self ..)) free
    (fun other => Resolve.lookup_keeps rules other ctx inside) (fun _ _ _ => asked d registered)
    live absent idle

theorem evaluate_keeps (rules : Rules near makes R) (ctx : Context I H)
    (inside : ∀ node ∈ ctx.nodes, near node) (selector : String) :
    Keeps (R []) (ctx.evaluate selector) :=
  Resolve.evaluateWith_keeps (rules.steady []) ctx
    (fun other => Resolve.lookup_keeps rules other ctx inside) selector

theorem resolveName_keeps (rules : Rules near makes R) (ctx : Context I H) (name : VariableName) :
    Keeps (R []) (ctx.resolveName name) := by
  cases name with
  | text text => exact (Resolve.readName_keeps (rules.steady []) ctx text).adaptExcept _
  | qualified name => exact .of_pure (rules.steady []) _

theorem nearest?_suffix {scope : Scope} {nodes : List (Node I H)} {found : Context I H}
    (nearest : nearest? scope nodes = some found) : found.nodes <:+ nodes := by
  induction nodes with
  | nil => cases nearest
  | cons node rest ih =>
    unfold nearest? at nearest
    split at nearest
    · cases nearest
      exact List.suffix_refl _
    · exact (ih nearest).trans (List.suffix_cons node rest)

theorem nearest?_nodes {scope : Scope} {nodes : List (Node I H)} {found : Context I H}
    (nearest : nearest? scope nodes = some found) : ∀ node ∈ found.nodes, node ∈ nodes :=
  fun _ member => (nearest?_suffix nearest).subset member

theorem target_bind_keeps {α : Type} (rules : Rules near makes R) (ctx : Context I H)
    (inside : ∀ node ∈ ctx.nodes, near node) (scope : Option Scope)
    {next : Context I H → WorldM I H ResolveError α}
    (keeps : ∀ found : Context I H, (∀ node ∈ found.nodes, near node) → Keeps (R []) (next found)) :
    Keeps (R []) (ctx.target scope >>= next) := by
  intro w
  rw [bind_apply]
  cases scope with
  | none => exact keeps ctx inside w
  | some scope =>
    simp only [target, atScope]
    cases nearest : nearest? scope ctx.nodes with
    | none => exact (rules.steady []).refl w
    | some found =>
      exact keeps found (fun node member => inside node (nearest?_nodes nearest node member)) w

theorem get_keeps (rules : Rules near makes R) (ctx : Context I H)
    (inside : ∀ node ∈ ctx.nodes, near node) (name : VariableName) (scope : Option Scope) :
    Keeps (R []) (ctx.get name scope) := by
  refine .bind (rules.steady []) (resolveName_keeps rules ctx name) fun name => ?_
  exact target_bind_keeps rules ctx inside scope fun found inside =>
    Resolve.lookup_keeps rules name found inside

theorem declareHere_keeps (rules : DeclaringRules near makes R) (ctx : Context I H)
    (here : near ctx.node) (name : QName) (value : Value) :
    Keeps (R []) (ctx.declareHere name value) := by
  have steady := rules.steady []
  refine .bind steady (Resolve.ensureLive_keeps steady ctx) fun _ => ?_
  split
  · exact .bind steady (.of_throw steady _) fun _ =>
      .of_modify fun w => rules.declare here w (OrderedMap.insert · name value)
  · exact .of_modify fun w => rules.declare here w (OrderedMap.insert · name value)

theorem declare_keeps (rules : DeclaringRules near makes R) (ctx : Context I H)
    (inside : ∀ node ∈ ctx.nodes, near node) (name : VariableName) (value : Value)
    (scope : Option Scope) : Keeps (R []) (ctx.declare name value scope) := by
  refine .bind (rules.steady []) (resolveName_keeps rules.toRules ctx name) fun name => ?_
  exact target_bind_keeps rules.toRules ctx inside scope fun found inside =>
    declareHere_keeps rules found (inside _ (List.mem_cons_self ..)) name value

theorem undeclareHere_keeps (rules : DeclaringRules near makes R) (ctx : Context I H)
    (here : near ctx.node) (name : QName) : Keeps (R []) (ctx.undeclareHere name) := by
  have steady := rules.steady []
  refine .bind steady (Resolve.ensureLive_keeps steady ctx) fun _ => ?_
  refine .bind steady (.of_get steady) fun _ => ?_
  refine .bind steady (.of_modify fun w => ?_) fun _ => .of_pure steady _
  exact rules.declare here w (OrderedMap.erase · name)

theorem undeclare_keeps (rules : DeclaringRules near makes R) (ctx : Context I H)
    (inside : ∀ node ∈ ctx.nodes, near node) (name : VariableName) (scope : Option Scope) :
    Keeps (R []) (ctx.undeclare name scope) := by
  refine .bind (rules.steady []) (resolveName_keeps rules.toRules ctx name) fun name => ?_
  exact target_bind_keeps rules.toRules ctx inside scope fun found inside =>
    undeclareHere_keeps rules found (inside _ (List.mem_cons_self ..)) name

end Context

end
end CommandChain
