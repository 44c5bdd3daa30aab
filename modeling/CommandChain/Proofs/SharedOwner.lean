import CommandChain.Proofs.ComponentScopes
import CommandChain.Proofs.Machine.Marks
import CommandChain.Proofs.World.Chains
import CommandChain.Proofs.World.Delegation

/-!
Components that are shared. A lookup goes outward from every node in whose registry the name is that
of a component of another scope. Where it arrives at one in whose registry the component is of the
node's own scope, every context from which it does so gets the instance in the table of that node,
which is made there when it is first asked for and stays until the components of the node are
released. The tables in between take no part in it.
-/
namespace CommandChain

variable {I H : Type}

open World

namespace Context

def Reads (ctx : Context I H) (name : VariableName) (w : World I H) (qname : QName) : Prop :=
  (outcomeOf (ctx.resolveName name w)).1 = .ok qname

section

variable {ctx owner : Context I H} {name : VariableName} {w : World I H} {qname : QName}
  {d : Descriptor I H}

theorem resolveName_world (ctx : Context I H) (name : VariableName) (w : World I H) :
    (outcomeOf (ctx.resolveName name w)).2 = w := by
  have steady : IsSteady fun w w' : World I H => w' = w :=
    ⟨fun _ => rfl, fun first second => second.trans first⟩
  cases name with
  | text text =>
    have reads := @Resolve.readName_keeps I H (fun _ w w' => w' = w) [] steady ctx text
    exact reads.adaptExcept _ w
  | qualified name => rfl

theorem get_delegates (reads : ctx.Reads name w qname) :
    Resolve.Delegates [] ctx qname w (ctx.get name none w) := by
  have same := ctx.resolveName_world name w
  have gets : ctx.get name none =
      ctx.resolveName name >>= fun name => Resolve.lookup [] ctx name := by
    simp [get, target]
  unfold Reads at reads
  rw [gets, bind_apply]
  cases resolves : ctx.resolveName name w with
  | error error w' =>
    rw [resolves] at reads
    cases reads
  | ok found w' =>
    rw [resolves] at reads same
    cases reads
    cases same
    exact Resolve.lookup_delegates [] ctx qname _

/-- A context for whose component there is an owner within reach is answered by the owner. -/
theorem get_served (reads : ctx.Reads name w qname) (live : w.released? (ctx.walk qname) = none)
    (arrives : arrival? qname ctx.nodes = some owner)
    (registered : owner.registry.descriptor? qname = some d) :
    ctx.get name none w = ((·.map Value.component) <$> owner.component? qname) w := by
  have delegates := get_delegates reads
  generalize ctx.get name none w = result at delegates
  cases delegates with
  | released first => cases live.symm.trans first
  | lost _ nowhere => cases arrives.symm.trans nowhere
  | owned _ there =>
    cases arrives.symm.trans there
    rfl
  | plain _ there unregistered =>
    cases arrives.symm.trans there
    cases registered.symm.trans unregistered

theorem get_told (reads : ctx.Reads name w qname) (live : w.released? (ctx.walk qname) = none)
    (arrives : arrival? qname ctx.nodes = some owner)
    (registered : owner.registry.descriptor? qname = some d) {ref : ComponentRef}
    (told : (outcomeOf (ctx.get name none w)).1 = .ok (some (.component ref))) :
    ((outcomeOf (ctx.get name none w)).2.tableOf owner).component? qname = some ref := by
  rw [get_served reads live arrives registered, outcomeOf_map] at told ⊢
  cases outcome : (outcomeOf (owner.component? qname w)).1 with
  | error error =>
    rw [outcome] at told
    cases told
  | ok made =>
    obtain ⟨found, rfl, cached⟩ := component?_ok registered outcome
    rw [outcome] at told
    cases told
    exact cached

theorem live_of_arrival (live : w.released? (ctx.walk qname) = none)
    (arrives : arrival? qname ctx.nodes = some owner) : w.isReleased owner = false := by
  refine Bool.eq_false_iff.mpr (List.find?_eq_none.mp live owner.node ?_)
  simp [walk, arrives]

theorem component?_made (sound : w.Sound)
    (inside : ∀ node ∈ owner.nodes, node.table < w.tables.next)
    (unmarked : w.Unmarked) (live : w.isReleased owner = false)
    (registered : owner.registry.descriptor? qname = some d)
    (absent : (w.tableOf owner).component? qname = none) :
    (∃ cause w', owner.component? qname w = .error (.lifecycle cause) w' ∧
      (w'.tableOf owner).component? qname = none) ∨
    ∃ ref w', owner.component? qname w = .ok (some ref) w' ∧
      OrderedMap.find? (w'.tableOf owner).components qname = some ⟨ref, d⟩ ∧
      w.cells.next ≤ ref.id := by
  have idle : qname ∉ (w.tableOf owner).creating := by
    rw [tableOf, unmarked]
    exact List.not_mem_nil
  have makes : owner.component? qname w = (some <$> Resolve.createAndCache owner qname d
      (Resolve.lookup [(owner.node.table, qname)] owner)) w :=
    Resolve.fetch_absent live registered absent rfl idle
  have grows := component?_keeps (growth_rules w.tables.next).toRules owner qname inside
    (fun _ _ => trivial) w sound (Nat.le_refl _)
  rw [makes, map_apply]
  rw [makes, outcomeOf_map] at grows
  cases creates : Resolve.createAndCache owner qname d
      (Resolve.lookup [(owner.node.table, qname)] owner) w with
  | error error w' =>
    obtain ⟨⟨cause, rfl⟩, missing⟩ := Resolve.createAndCache_fails (fun other =>
      Resolve.lookup_keeps resolves_rules other owner fun _ _ => trivial) absent creates
    exact .inl ⟨cause, w', rfl, missing⟩
  | ok ref w' =>
    rw [creates] at grows
    have cached := Resolve.createAndCache_cached creates
    refine .inr ⟨ref, w', rfl, cached, ?_⟩
    have grows : Grows [] w w' := grows.2
    obtain ⟨gained, grown, new⟩ := grows.gains owner.node.table
    have before : OrderedMap.find? (w.table owner.node.table).components qname = none :=
      Option.map_eq_none_iff.mp absent
    rw [tableOf, grown, OrderedMap.find?_append_none before] at cached
    exact (new _ (OrderedMap.mem_of_find? cached)).2

theorem component?_below (chains : w.Chains ctx)
    (arrives : arrival? qname ctx.nodes = some owner) :
    ∀ node ∈ ctx.passed qname,
      (outcomeOf (owner.component? qname w)).2.table node.table = w.table node.table := by
  intro node member
  have confined : Confined (fun table => table ∈ owner.nodes.map (·.table)) w
      (outcomeOf (owner.component? qname w)).2 :=
    component?_keeps (confined_rules _) owner qname (fun node => List.mem_map_of_mem)
      (fun _ _ => trivial) w
  have apart := chains.apart
  rw [nodes_of_arrival arrives, List.map_append, List.nodup_append] at apart
  exact confined _ fun again => apart.2.2 _ (List.mem_map_of_mem member) _ again rfl

end

end Context

theorem World.Course.kept {looks : Prop} {emptied : Nat → Prop} {written : Option (Nat × QName)}
    {w w' : World I H} (course : w.Course looks emptied written w') {table : Nat}
    (left : (w'.table table).components ≠ []) : ∃ gained,
      (w'.table table).components = (w.table table).components ++ gained := by
  cases course with
  | thins thins =>
    rcases thins.components table with same | ⟨-, none⟩
    · exact ⟨[], by rw [same, List.append_nil]⟩
    · exact absurd none left
  | resolves _ resolves => exact resolves.gains table
  | writes =>
    refine ⟨[], ?_⟩
    rw [changeVariables, table_changeTable, List.append_nil]
    split <;> rfl

namespace Session

variable {s t : Session I H} {ctx owner : Context I H} {name : VariableName} {qname : QName}
  {d : Descriptor I H} {table : Nat}

/-- Whether an interaction is about nothing but what the embedder knows, and does not release the
components of a table, which would be empty then. -/
def KeepsComponents (table : Nat) (s : Session I H) (interaction : Interaction I H) : Prop :=
  s.Knows interaction ∧ ((s.after interaction).run.world.table table).components ≠ []

theorem Leads.component_kept (reached : Reached Knows s) (leads : Leads (KeepsComponents table) s t)
    {ref : ComponentRef} (cached : (s.run.world.table table).component? qname = some ref) :
    (t.run.world.table table).component? qname = some ref := by
  induction leads with
  | refl => exact cached
  | step before keeps ih =>
    have here := (reached.leads (before.mono fun _ _ keeps => keeps.1)).known_housed
    obtain ⟨gained, grown⟩ := (here.course keeps.1).kept keeps.2
    obtain ⟨entry, there, rfl⟩ := Option.map_eq_some_iff.mp ih
    exact congrArg (·.map Cached.ref) (grown ▸ OrderedMap.find?_append_some there)

/-- How a context is answered for a component whose owner it reaches. -/
structure Serves (s : Session I H) (ctx : Context I H) (name : VariableName) (qname : QName)
    (d : Descriptor I H) (owner : Context I H) : Prop where
  own : d.scope = owner.scope
  /-- The instance in the owner's table is the answer, and nothing changes. -/
  cached : ∀ ref, (s.run.world.tableOf owner).component? qname = some ref →
    ctx.get name none s.run.world = .ok (some (.component ref)) s.run.world
  /-- Where there is none, a new one is made in the owner's table, or it could not be made. -/
  absent : (s.run.world.tableOf owner).component? qname = none →
    (∃ cause w, ctx.get name none s.run.world = .error (.lifecycle cause) w ∧
      (w.tableOf owner).component? qname = none) ∨
    ∃ ref w, ctx.get name none s.run.world = .ok (some (.component ref)) w ∧
      OrderedMap.find? (w.tableOf owner).components qname = some ⟨ref, d⟩ ∧
      s.run.world.cells.next ≤ ref.id
  /-- No table below the owner changes, whatever comes of it. -/
  below : ∀ node ∈ ctx.passed qname,
    (outcomeOf (ctx.get name none s.run.world)).2.table node.table = s.run.world.table node.table
  /-- Until the owner's components are released, all whose owner has its table get the instance. -/
  shared : ∀ ref, (outcomeOf (ctx.get name none s.run.world)).1 = .ok (some (.component ref)) →
    ∀ t, Leads (KeepsComponents owner.node.table) (s.after (.asks (.get ctx name none))) t →
    ∀ other ∈ t.known, ∀ name' d' owner', other.Reads name' t.run.world qname →
      t.run.world.released? (other.walk qname) = none →
      Context.arrival? qname other.nodes = some owner' →
      owner'.registry.descriptor? qname = some d' → owner'.node.table = owner.node.table →
      other.get name' none t.run.world = .ok (some (.component ref)) t.run.world

theorem get_cached (reads : ctx.Reads name s.run.world qname)
    (live : s.run.world.released? (ctx.walk qname) = none)
    (arrives : Context.arrival? qname ctx.nodes = some owner)
    (registered : owner.registry.descriptor? qname = some d) {ref : ComponentRef}
    (cached : (s.run.world.tableOf owner).component? qname = some ref) :
    ctx.get name none s.run.world = .ok (some (.component ref)) s.run.world := by
  have obtains : owner.component? qname s.run.world = .ok (some ref) s.run.world :=
    Resolve.obtain?_cached (Context.live_of_arrival live arrives) cached
  rw [Context.get_served reads live arrives registered, map_apply, obtains]
  rfl

theorem serves (reached : Reached Knows s) (among : ctx ∈ s.known)
    (reads : ctx.Reads name s.run.world qname)
    (live : s.run.world.released? (ctx.walk qname) = none)
    (arrives : Context.arrival? qname ctx.nodes = some owner)
    (registered : owner.registry.descriptor? qname = some d) :
    s.Serves ctx name qname d owner := by
  have housed := reached.known_housed
  have served := Context.get_served reads live arrives registered
  constructor
  case own => exact Node.scope_of_stops (Context.stops_of_arrival arrives) registered
  case cached => exact fun ref cached => get_cached reads live arrives registered cached
  case absent =>
    intro absent
    have inside : ∀ node ∈ owner.nodes, node.table < s.run.world.tables.next := fun node member =>
      (housed.handles.houses ctx among).tables node (Context.arrival?_mem arrives node member)
    rcases Context.component?_made housed.sound inside reached.unmarked
        (Context.live_of_arrival live arrives) registered absent with
      ⟨cause, w, fails, missing⟩ | ⟨ref, w, makes, cached, new⟩
    · refine .inl ⟨cause, w, ?_, missing⟩
      rw [served, map_apply, fails]
    · refine .inr ⟨ref, w, ?_, cached, new⟩
      rw [served, map_apply, makes]
      rfl
  case below =>
    rw [served, outcomeOf_map]
    exact Context.component?_below (reached.known_chains ctx among) arrives
  case shared =>
    intro ref told t leads other known name' d' owner' reads' live' arrives' registered' same
    have asking : s.Knows (.asks (.get ctx name none)) := by
      rintro _ ⟨⟩
      exact among
    have here := reached.leads (.step .refl asking)
    have there : ((s.after (.asks (.get ctx name none))).run.world.tableOf owner).component? qname =
        some ref := Context.get_told reads live arrives registered told
    have still := leads.component_kept here there
    refine get_cached reads' live' arrives' registered' ?_
    rw [tableOf, same]
    exact still

/-- A context that is asked for a name is answered where the lookup arrives, by a component that is
registered there or by the value that is declared nearest to there, unless a node on the way was
released or all nodes hand the name on. Where registries agree, it arrives at the nearest node of
the component's scope. -/
theorem component_delegated (reached : Reached Knows s) (among : ctx ∈ s.known)
    (reads : ctx.Reads name s.run.world qname) :
    (match s.run.world.released? (ctx.walk qname), Context.arrival? qname ctx.nodes with
    | some node, _ => ctx.get name none s.run.world = .error (.released node.scope) s.run.world
    | none, none => ∃ d, ctx.outermost.registry.descriptor? qname = some d ∧
      ctx.get name none s.run.world = .error (.componentOutOfReach qname d.scope) s.run.world
    | none, some last => match last.registry.descriptor? qname with
      | some d => s.Serves ctx name qname d last
      | none => ctx.get name none s.run.world =
        .ok (s.run.world.declaredAmong? qname (ctx.walk qname)) s.run.world) ∧
    ∀ scope, ctx.Agrees qname scope → ctx.passed qname = ctx.below scope ∧
      Context.arrival? qname ctx.nodes = Context.nearest? scope ctx.nodes := by
  refine ⟨?_, fun scope agrees => agrees.arrival⟩
  have delegates := Context.get_delegates reads
  generalize gets : ctx.get name none s.run.world = result at delegates
  cases delegates with
  | released first => simp only [first]
  | lost live nowhere sought => simp only [live, nowhere]; exact ⟨_, sought, rfl⟩
  | owned live arrives registered =>
    simp only [live, arrives, registered]
    exact serves reached among reads live arrives registered
  | plain live arrives unregistered => simp only [live, arrives, unregistered]

/-! ### A view and its origin -/

/-- A view is answered by the node around its origin, and so is the origin after it. -/
theorem account_shared :
    Reached Knows accountSession ∧ accountView ∈ accountSession.known ∧
      accountView.Reads (.qualified account.name) accountSession.run.world account.name ∧
      accountSession.Serves accountView (.qualified account.name) account.name account
        accountGlobal ∧
      accountView.Agrees account.name account.scope ∧
      accountView.passed account.name = accountView.below account.scope ∧
      let asked := accountSession.after (.asks (.get accountView (.qualified account.name) none))
      accountChild.get (.qualified account.name) none asked.run.world =
        .ok (some (.component ⟨0, "Account"⟩)) asked.run.world := by
  have among : accountView ∈ accountSession.known := List.mem_cons_self
  have reads : accountView.Reads (.qualified account.name) accountSession.run.world account.name :=
    rfl
  obtain ⟨serves, agreeing⟩ := component_delegated reached_accountSession among reads
  have uniform : accountView.Uniform := by
    intro node member
    rw [List.mem_singleton.mp member]
    rfl
  have agrees : accountView.Agrees account.name account.scope := uniform.agrees rfl
  have arrives : Context.arrival? account.name accountView.nodes = some accountGlobal := rfl
  have told : (outcomeOf (accountView.get (.qualified account.name) none
      accountSession.run.world)).1 = .ok (some (.component ⟨0, "Account"⟩)) := by
    rw [Context.get_served reads rfl arrives rfl]
    rfl
  have live : (outcomeOf (accountView.get (.qualified account.name) none
      accountSession.run.world)).2.released? (accountChild.walk account.name) = none := by
    rw [(get_resolves _ _ _ _).released?]
    rfl
  refine ⟨reached_accountSession, among, reads, serves, agrees, (agreeing _ agrees).1, ?_⟩
  exact serves.shared _ told _ .refl accountChild (.tail _ List.mem_cons_self) _ account
    accountGlobal rfl live rfl rfl rfl

/-! ### A registry that the node around does not have -/

def bareRoot : Context Unit Unit :=
  ⟨⟨0, 0, .execution, ⟨[], .empty, []⟩, .int 1, ⟨0, []⟩, true⟩, []⟩

def accountBelow : Context Unit Unit :=
  ⟨⟨1, 1, .chain, accountRegistry, .int 1, ⟨1, [0]⟩, true⟩, [bareRoot.node]⟩

/-- A node whose registry has a component of execution scope, below one of that scope whose registry
has none. -/
def bareSession : Session Unit Unit :=
  (fresh accountRegistry .standard ()).play
    [.asks (.openContext .execution bareRoot.registry (.int 1) none),
      .asks (.openContext .chain accountRegistry (.int 1) (some bareRoot))]

theorem account_unknown_to_owner :
    Reached Knows bareSession ∧ accountBelow ∈ bareSession.known ∧
      accountBelow.registry.descriptor? account.name = some account ∧
      Context.nearest? account.scope accountBelow.nodes = some bareRoot ∧
      bareSession.run.world.released? accountBelow.nodes = none ∧
      accountBelow.get (.qualified account.name) none bareSession.run.world =
        .ok none bareSession.run.world := by
  refine ⟨⟨_, _, _, Permits.leads ⟨nofun, ?_, trivial⟩⟩, List.mem_cons_self, rfl, rfl, rfl, ?_⟩
  · rintro _ ⟨⟩
    exact List.mem_cons_self
  · change Resolve.lookup [] accountBelow account.name bareSession.run.world = _
    rw [Resolve.lookup_outer (d := account) rfl rfl (by decide) rfl,
      Resolve.lookup_unregistered rfl rfl]
    rfl

end Session
end CommandChain
