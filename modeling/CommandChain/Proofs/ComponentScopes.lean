import CommandChain.Proofs.Machine.Tables
import CommandChain.Proofs.World.Delegation

/-!
Which tables hold which components. Lookups make a component at the nearest node of its scope, but
a node that is asked for a component itself makes it in its own table, whatever the scope of the
component. So tables hold components of their own scope only for as long as no node is asked so for
one of another scope; where one is, the instance that was made is not the one that is looked up.
-/
namespace CommandChain

variable {I H : Type}

namespace World

/-- Whether all components in tables are of given scopes. -/
def OwnedBy (scope : Nat → Scope) (w : World I H) : Prop :=
  ∀ table entry, w.Caches table entry → entry.2.descriptor.scope = scope table

/-- Whether tables hold components of their own scope only. -/
def Owned (w : World I H) : Prop := w.OwnedBy fun table => (w.table table).scope

section

variable {scope : Nat → Scope} {w w' : World I H}

theorem OwnedBy.of_components (owned : w.OwnedBy scope)
    (same : ∀ table, (w'.table table).components = (w.table table).components) :
    w'.OwnedBy scope := by
  intro table entry caches
  rw [Caches, same] at caches
  exact owned table entry caches

theorem OwnedBy.of_tables (owned : w.OwnedBy scope) (same : w'.tables = w.tables) :
    w'.OwnedBy scope :=
  owned.of_components fun _ => by rw [table, same, table]

theorem owned_rules (scope : Nat → Scope) :
    Rules (I := I) (H := H) (fun node => scope node.table = node.scope)
      (fun node _ d => d.scope = scope node.table)
      fun _ w w' => w.OwnedBy scope → w'.OwnedBy scope where
  steady _ := ⟨fun _ owned => owned, fun first second owned => second (first owned)⟩
  own here _ same := same.trans here.symm
  twin same owned := owned.of_tables same.tables
  bracket _ inner owned := inner owned
  construct _ _ _ owned := owned
  run w ref action owned := owned.of_tables (runs_runOn [] w ref action).tables
  hook w ref hook owned := owned.of_tables (runHook_same w ref .begin hook).2
  fail _ _ _ marked owned :=
    (marked (owned.of_components (components_beginMaking _ _ _))).of_components
      (components_endMaking _ _ _ _)
  cache := by
    intro busy ctx name d content w made w' here allowed free idle live absent same marked owned
    have started := (owned.of_components (components_beginMaking w ctx name)).of_tables same.tables
    have ended := (marked started).of_components (components_endMaking w' ctx name
      (some (made.addCell d.typeName content).1))
    intro table entry caches
    rw [Caches, table_changeTable] at caches
    split at caches
    · rename_i at_home
      rcases OrderedMap.mem_of_mem_insert caches with old | rfl
      · exact ended table entry old
      · exact at_home ▸ allowed
    · exact ended table entry caches

theorem Sound.below (sound : w.Sound) {table : Nat} {entry : QName × Cached I H}
    (caches : w.Caches table entry) : table < w.tables.next := by
  refine Nat.lt_of_not_le fun outside => ?_
  rw [Caches, World.table, Store.get, sound.unborn table outside] at caches
  cases caches

theorem caches_of_component? {table : Nat} {name : QName} {ref : ComponentRef}
    (found : (w.table table).component? name = some ref) :
    ∃ d, w.Caches table (name, ⟨ref, d⟩) := by
  obtain ⟨⟨_, d⟩, there, rfl⟩ := Option.map_eq_some_iff.mp found
  exact ⟨d, OrderedMap.mem_of_find? there⟩

theorem Course.owned {looks : Prop} {emptied : Nat → Prop} {written : Option (Nat × QName)}
    (course : w.Course looks emptied written w') (idle : ¬ looks) (sound : w.Sound)
    (owned : w.Owned) : w'.Owned := by
  intro table entry caches
  have before := course.loses idle caches
  exact (owned table entry before).trans (course.scope (sound.below before)).symm

theorem Resolves.owned (resolves : w.Resolves w')
    (keeps : w.OwnedBy (fun table => (w.table table).scope) →
      w'.OwnedBy fun table => (w.table table).scope) (owned : w.Owned) : w'.Owned :=
  fun table entry caches => (keeps owned table entry caches).trans (resolves.scope table).symm

end
end World

open World

namespace Context

/-- Whether a component of another scope is made for the table of a context that is asked for it. -/
def Misplaces (ctx : Context I H) (name : QName) (w : World I H) : Prop :=
  ∃ d ref, ctx.registry.descriptor? name = some d ∧ d.scope ≠ ctx.scope ∧
    (w.tableOf ctx).component? name = none ∧ (outcomeOf (ctx.component? name w)).1 = .ok (some ref)

section

variable {ctx : Context I H} {w : World I H}

theorem get_owned (fits : w.Fits ctx) (owned : w.Owned) (name : VariableName)
    (scope : Option Scope) : (outcomeOf (ctx.get name scope w)).2.Owned :=
  (get_resolves w ctx name scope).owned
    (get_keeps (owned_rules (w.table · |>.scope)) ctx fits name scope w) owned

theorem evaluate_owned (fits : w.Fits ctx) (owned : w.Owned) (selector : String) :
    (outcomeOf (ctx.evaluate selector w)).2.Owned :=
  (evaluate_resolves w ctx selector).owned
    (evaluate_keeps (owned_rules (w.table · |>.scope)) ctx fits selector w) owned

/-- A node that is asked for a component itself leaves tables with what belongs there, unless it
makes one of another scope. -/
theorem component?_owned_iff (fits : w.Fits ctx) (owned : w.Owned) (name : QName) :
    (outcomeOf (ctx.component? name w)).2.Owned ↔ ¬ ctx.Misplaces name w := by
  have resolves := component?_resolves w ctx name
  have here : (w.table ctx.node.table).scope = ctx.scope := fits ctx.node List.mem_cons_self
  constructor
  · rintro owned' ⟨d, ref, registered, foreign, absent, serves⟩
    cases outcome : ctx.component? name w with
    | error error w' =>
      rw [outcome] at serves
      cases serves
    | ok found w' =>
      rw [outcome] at owned' resolves
      obtain ⟨made, -, -, caches⟩ := Resolve.obtain?_ok registered outcome
      have own := owned' _ _ (OrderedMap.mem_of_find? (caches absent))
      exact foreign (own.trans ((resolves.scope _).trans here))
  · intro placed
    have fetched := Resolve.obtain?_cases [] ctx name w
    rw [Resolve.obtain?_nil] at fetched
    rcases fetched with ⟨error, fetches⟩ | ⟨ref, cached, fetches⟩ | ⟨unregistered, fetches⟩ |
      ⟨d, registered, free, live, absent, idle, fetches⟩
    · rw [fetches]
      exact owned
    · rw [fetches]
      exact owned
    · rw [fetches]
      exact owned
    · -- All that is made on the way is looked up; the component itself counts only if it is made.
      refine resolves.owned ?_ owned
      rw [fetches, outcomeOf_map]
      refine Resolve.createAndCache_keeps (owned_rules _) here free (fun other =>
        Resolve.lookup_keeps (owned_rules (w.table · |>.scope)) other ctx fits) ?_ live absent idle
      intro ref w' made
      refine Decidable.byContradiction fun foreign => placed
        ⟨d, ref, registered, fun own => foreign (own.trans here.symm), absent, ?_⟩
      rw [fetches, outcomeOf_map, made]
      rfl

theorem nearest?_some {scope : Scope} {nodes : List (Node I H)} {owner : Context I H}
    (nearest : nearest? scope nodes = some owner) : owner.node ∈ nodes ∧ owner.scope = scope := by
  refine ⟨nearest?_nodes nearest owner.node List.mem_cons_self, ?_⟩
  induction nodes with
  | nil => cases nearest
  | cons node rest ih =>
    unfold nearest? at nearest
    split at nearest
    · rename_i same
      cases nearest
      exact same
    · exact ih nearest

/-- The instance of a name in a node's own table is the one at the nearest node of a scope, just
when that is the scope of the node. -/
theorem same_instance_iff (sound : w.Sound) (fits : w.Fits ctx) {scope : Scope}
    {owner : Context I H} {name : QName} {ref found : ComponentRef}
    (nearest : nearest? scope ctx.nodes = some owner)
    (own : (w.tableOf ctx).component? name = some ref)
    (there : (w.tableOf owner).component? name = some found) :
    found = ref ↔ scope = ctx.scope := by
  obtain ⟨member, owners⟩ := nearest?_some nearest
  constructor
  · rintro rfl
    obtain ⟨d, caches⟩ := caches_of_component? own
    obtain ⟨d', caches'⟩ := caches_of_component? there
    have shared : owner.node.table = ctx.node.table := sound.home caches' caches rfl
    calc scope = owner.scope := owners.symm
      _ = (w.table owner.node.table).scope := (fits owner.node member).symm
      _ = (w.table ctx.node.table).scope := by rw [shared]
      _ = ctx.scope := fits ctx.node List.mem_cons_self
  · rintro rfl
    have itself : nearest? ctx.scope ctx.nodes = some ctx := if_pos rfl
    cases itself.symm.trans nearest
    exact Option.some.inj (there.symm.trans own)

end
end Context

namespace Session

variable {s t : Session I H} {interaction : Interaction I H} {ctx : Context I H} {name : QName}

/-- Whether an interaction asks a node for a component of another scope, and the node makes it. -/
def Misplaces (s : Session I H) : Interaction I H → Prop
  | .asks (.component ctx name) => ctx.Misplaces name s.run.world
  | _ => False

/-- Whether an interaction is about nothing but what the embedder knows, and releases the components
of no node of a context. -/
def SparesComponents (ctx : Context I H) (s : Session I H) (interaction : Interaction I H) : Prop :=
  s.Knows interaction ∧ ∀ node ∈ ctx.nodes, ¬ interaction.empties s.run node.table

/-- Tables that hold what belongs there do so afterwards, unless something is misplaced. -/
theorem owned_after_iff (reached : Reached Knows s) (knows : s.Knows interaction)
    (owned : s.run.world.Owned) :
    (s.after interaction).run.world.Owned ↔ ¬ s.Misplaces interaction := by
  have housed := reached.known_housed
  have idle (never : ¬ interaction.looksUp) : (s.after interaction).run.world.Owned :=
    (housed.course knows).owned never housed.sound owned
  cases interaction with
  | calls call => exact iff_of_true (idle id) id
  | asks request =>
    cases request with
    | component ctx name =>
      exact Context.component?_owned_iff (reached.known_fits ctx (knows ctx rfl)) owned name
    | get ctx name scope =>
      have fits := reached.known_fits ctx (knows ctx rfl)
      exact iff_of_true (Context.get_owned fits owned name scope) id
    | evaluate ctx selector =>
      have fits := reached.known_fits ctx (knows ctx rfl)
      exact iff_of_true (Context.evaluate_owned fits owned selector) id
    | _ => exact iff_of_true (idle id) id

theorem owned_throughout_iff {interactions : List (Interaction I H)} (reached : Reached Knows s)
    (permits : Permits Knows s interactions) (owned : s.run.world.Owned) :
    Permits (fun s interaction => (s.after interaction).run.world.Owned) s interactions ↔
      Permits (fun s interaction => ¬ s.Misplaces interaction) s interactions := by
  induction interactions generalizing s with
  | nil => exact Iff.rfl
  | cons first rest ih =>
    have step := owned_after_iff reached permits.1 owned
    constructor
    · rintro ⟨now, later⟩
      exact ⟨step.mp now, (ih (reached.leads (.step .refl permits.1)) permits.2 now).mp later⟩
    · rintro ⟨placed, later⟩
      have now := step.mpr placed
      exact ⟨now, (ih (reached.leads (.step .refl permits.1)) permits.2 now).mpr later⟩

theorem Leads.reached (leads : Leads (SparesComponents ctx) s t) (reached : Reached Knows s) :
    Reached Knows t :=
  reached.leads (leads.mono fun _ _ spares => spares.1)

theorem Leads.component? (reached : Reached Knows s) (leads : Leads (SparesComponents ctx) s t)
    {node : Node I H} (member : node ∈ ctx.nodes) {ref : ComponentRef}
    (cached : (s.run.world.table node.table).component? name = some ref) :
    (t.run.world.table node.table).component? name = some ref := by
  induction leads with
  | refl => exact cached
  | step before spares ih =>
    have here := (before.reached reached).known_housed
    obtain ⟨d, caches⟩ := caches_of_component? ih
    obtain ⟨gained, grown⟩ := (here.course spares.1).gains (here.sound.below caches)
      (spares.2 node member)
    obtain ⟨entry, there, rfl⟩ := Option.map_eq_some_iff.mp ih
    exact congrArg (·.map Cached.ref) (grown ▸ OrderedMap.find?_append_some there)

theorem leads_component (among : ctx ∈ s.known) (name : QName) :
    Leads (SparesComponents ctx) s (s.after (.asks (.component ctx name))) :=
  .step .refl ⟨fun _ same => Option.some.inj same ▸ among,
    fun _ _ ⟨_, released, _⟩ => nomatch released⟩

theorem leads_get (among : ctx ∈ s.known) (name : QName) :
    Leads (SparesComponents ctx) s (s.after (.asks (.get ctx (.qualified name) none))) :=
  .step .refl ⟨fun _ same => Option.some.inj same ▸ among,
    fun _ _ ⟨_, released, _⟩ => nomatch released⟩

/-- Whether a node is asked itself for a component, and for the value of its name, in the one order
or the other, and gives both answers, and nothing around it is released in between. -/
def Answers (ctx : Context I H) (name : QName) (made : Option ComponentRef) (found : Option Value)
    (s t : Session I H) : Prop :=
  (outcomeOf (ctx.component? name s.run.world)).1 = .ok made ∧
      Leads (SparesComponents ctx) (s.after (.asks (.component ctx name))) t ∧
      (outcomeOf (ctx.get (.qualified name) none t.run.world)).1 = .ok found ∨
    (outcomeOf (ctx.get (.qualified name) none s.run.world)).1 = .ok found ∧
      Leads (SparesComponents ctx) (s.after (.asks (.get ctx (.qualified name) none))) t ∧
      (outcomeOf (ctx.component? name t.run.world)).1 = .ok made

theorem Answers.same_iff {d : Descriptor I H} {made : Option ComponentRef} {found : Option Value}
    (answers : Answers ctx name made found s t) (reached : Reached Knows s) (among : ctx ∈ s.known)
    (uniform : ctx.Uniform) (registered : ctx.registry.descriptor? name = some d) :
    found = made.map .component ↔ d.scope = ctx.scope := by
  have compare {last : Session I H} {owner : Context I H} {ref other : ComponentRef}
      (after : Leads (SparesComponents ctx) s last)
      (nearest : Context.nearest? d.scope ctx.nodes = some owner)
      (own : (last.run.world.tableOf ctx).component? name = some ref)
      (there : (last.run.world.tableOf owner).component? name = some other) :
      some (Value.component other) = (some ref).map .component ↔ d.scope = ctx.scope := by
    have reached' := after.reached reached
    have sound := reached'.known_housed.sound
    have fits := reached'.known_fits ctx (after.known among)
    rw [← Context.same_instance_iff sound fits nearest own there]
    simp
  -- In either order both instances are in their tables after the second answer.
  rcases answers with ⟨serves, leads, reads⟩ | ⟨reads, leads, serves⟩
  · have first := leads_component among name
    have second := leads.trans (leads_get ((first.trans leads).known among) name)
    obtain ⟨ref, rfl, own⟩ := Context.component?_ok registered serves
    obtain ⟨owner, other, nearest, rfl, there⟩ := Context.get_ok uniform registered reads
    have kept := second.component? (first.reached reached) List.mem_cons_self own
    exact compare (first.trans second) nearest kept there
  · have first := leads_get among name
    have second := leads.trans (leads_component ((first.trans leads).known among) name)
    obtain ⟨owner, other, nearest, rfl, there⟩ := Context.get_ok uniform registered reads
    obtain ⟨ref, rfl, own⟩ := Context.component?_ok registered serves
    have kept := second.component? (first.reached reached) (Context.nearest?_some nearest).1 there
    exact compare (first.trans second) nearest own kept

/-- Tables hold components of their own scope only, throughout, just when no node is asked itself
for a component of another scope and makes it. Where registries are inherited, a node that is asked
for a component itself and for the value of its name gives the same instance just when the component
is of its scope. -/
theorem components_owned_iff {registry : Registry I H} {settings : EngineSettings} {host : H}
    {interactions : List (Interaction I H)}
    (permits : Permits Knows (fresh registry settings host) interactions) :
    (Permits (fun s interaction => (s.after interaction).run.world.Owned)
        (fresh registry settings host) interactions ↔
      Permits (fun s interaction => ¬ s.Misplaces interaction)
        (fresh registry settings host) interactions) ∧
    ((∀ interaction ∈ interactions, interaction.Inherits) →
      ∀ ctx ∈ ((fresh registry settings host).play interactions).known, ∀ name d made found t,
        ctx.registry.descriptor? name = some d →
        Answers ctx name made found ((fresh registry settings host).play interactions) t →
        (found = made.map .component ↔ d.scope = ctx.scope)) := by
  have start : Reached Knows (fresh registry settings host) := ⟨_, _, _, .refl⟩
  have empty : (fresh registry settings host).run.world.Owned := nofun
  refine ⟨owned_throughout_iff start permits empty, ?_⟩
  intro inherits ctx among name d made found t registered answers
  have uniform : ctx.Uniform :=
    Reached.known_uniform ⟨_, _, _, (permits.and inherits).leads⟩ ctx among
  exact answers.same_iff (start.leads permits.leads) among uniform registered

/-! ### A component of the scope around -/

def account : Descriptor Unit Unit :=
  (Descriptor.of "Account" ⟨"urn:sample", "account"⟩ ()).inScope .execution

def accountRegistry : Registry Unit Unit := ⟨[(account.name, account)], .empty, []⟩

def accountGlobal : Context Unit Unit :=
  ⟨⟨0, 0, .execution, accountRegistry, .int 1, ⟨0, []⟩, true⟩, []⟩

def accountChild : Context Unit Unit :=
  ⟨⟨1, 1, .chain, accountRegistry, .int 1, ⟨1, [0]⟩, true⟩, [accountGlobal.node]⟩

def accountView : Context Unit Unit :=
  ⟨⟨2, 1, .chain, accountRegistry, .int 2, ⟨1, [0]⟩, false⟩, [accountGlobal.node]⟩

/-- A node at chain scope, and a view of it. -/
def accountNodes : List (Interaction Unit Unit) :=
  [.calls (.start (.int 1)), .asks (.openChild accountGlobal .chain (.int 1)),
    .asks (.openView accountChild (.int 2))]

def accountSession : Session Unit Unit := (fresh accountRegistry .standard ()).play accountNodes

theorem permits_accountNodes :
    Permits Knows (fresh accountRegistry .standard ()) accountNodes := by
  refine ⟨nofun, ?_, ?_, trivial⟩ <;> (rintro ctx ⟨⟩; exact List.mem_cons_self)

theorem reached_accountSession : Reached Knows accountSession :=
  ⟨_, _, _, permits_accountNodes.leads⟩

/-- The component is made at the node of its scope, which is asked for it twice. -/
def accountInPlace : List (Interaction Unit Unit) :=
  accountNodes ++ [.asks (.component accountGlobal account.name)]

theorem components_owned_in_place :
    Permits Knows (fresh accountRegistry .standard ()) accountInPlace ∧
      Permits (fun s interaction => (s.after interaction).run.world.Owned)
        (fresh accountRegistry .standard ()) accountInPlace ∧
      Answers accountGlobal account.name (some ⟨0, "Account"⟩) (some (.component ⟨0, "Account"⟩))
        ((fresh accountRegistry .standard ()).play accountInPlace)
        (((fresh accountRegistry .standard ()).play accountInPlace).after
          (.asks (.component accountGlobal account.name))) ∧
      (∀ interaction ∈ accountInPlace, interaction.Inherits) ∧
      account.scope = accountGlobal.scope := by
  have permits : Permits Knows (fresh accountRegistry .standard ()) accountInPlace := by
    refine ⟨nofun, ?_, ?_, ?_, trivial⟩
    · rintro _ ⟨⟩
      exact List.mem_cons_self
    · rintro _ ⟨⟩
      exact List.mem_cons_self
    · rintro _ ⟨⟩
      exact .tail _ (.tail _ List.mem_cons_self)
  have placed : Permits (fun s interaction => ¬ s.Misplaces interaction)
      (fresh accountRegistry .standard ()) accountInPlace := by
    refine ⟨id, id, id, ?_, trivial⟩
    rintro ⟨d, ref, registered, foreign, -⟩
    cases registered
    exact foreign rfl
  have answers : Answers accountGlobal account.name (some ⟨0, "Account"⟩)
      (some (.component ⟨0, "Account"⟩)) ((fresh accountRegistry .standard ()).play accountInPlace)
      (((fresh accountRegistry .standard ()).play accountInPlace).after
        (.asks (.component accountGlobal account.name))) := by
    refine .inl ⟨rfl, .refl, ?_⟩
    change (outcomeOf (Resolve.lookup [] accountGlobal account.name _)).1 = _
    rw [Resolve.lookup_own rfl rfl rfl]
    rfl
  have inherits : ∀ interaction ∈ accountInPlace, interaction.Inherits := by
    simp [accountInPlace, accountNodes, Interaction.Inherits, Request.Inherits]
  obtain ⟨owned_iff, same_iff⟩ := components_owned_iff permits
  exact ⟨permits, owned_iff.mpr placed, answers, inherits, (same_iff inherits accountGlobal
    (.tail _ (.tail _ List.mem_cons_self)) account.name account _ _ _ rfl answers).mp rfl⟩

theorem component_misplaced :
    Reached Knows accountSession ∧ accountChild ∈ accountSession.known ∧
      ¬ (accountSession.after (.asks (.component accountChild account.name))).run.world.Owned ∧
      Answers accountChild account.name (some ⟨0, "Account"⟩) (some (.component ⟨1, "Account"⟩))
        accountSession (accountSession.after (.asks (.component accountChild account.name))) := by
  refine ⟨reached_accountSession, .tail _ List.mem_cons_self, fun owned => ?_,
    .inl ⟨rfl, .refl, ?_⟩⟩
  · have own : Scope.execution = .chain :=
      owned 1 (account.name, ⟨⟨0, "Account"⟩, account⟩) List.mem_cons_self
    cases own
  · change (outcomeOf (Resolve.lookup [] accountChild account.name _)).1 = _
    rw [Resolve.lookup_outer rfl rfl (by decide : account.scope ≠ accountChild.scope) rfl,
      Resolve.lookup_own rfl rfl rfl]
    rfl

end Session
end CommandChain
