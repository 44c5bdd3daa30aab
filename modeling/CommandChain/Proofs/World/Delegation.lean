import CommandChain.Proofs.Resolution
import CommandChain.Proofs.World.Finding

/-!
How a name is looked up from node to node. A node in whose registry the name is that of a component
of another scope hands it on to the node around it, whatever that one's registry is; the first that
does not answers, with the component if the name is registered there, and so it owns it. A lookup
changes nothing on its way and stops at the first node that was released. What the owner makes, it
makes with lookups of its own, which go outward from it. So the tables below it stay as they are.
-/
namespace CommandChain

variable {I H : Type}

/-- Whether a name is that of a component of another scope, as the registry of a node has it. -/
def Node.passes (node : Node I H) (name : QName) : Bool :=
  (node.registry.descriptor? name).any (·.scope ≠ node.scope)

theorem Node.passes_eq_true_iff {node : Node I H} {name : QName} : node.passes name = true ↔
    ∃ d, node.registry.descriptor? name = some d ∧ d.scope ≠ node.scope := by
  simp [passes, Option.any_eq_true]

theorem Node.scope_of_stops {node : Node I H} {name : QName} {d : Descriptor I H}
    (stops : node.passes name = false) (registered : node.registry.descriptor? name = some d) :
    d.scope = node.scope := by
  simpa [passes, registered] using stops

namespace Context

/-- The nodes that hand a name on before one does not, innermost first. -/
def passed (ctx : Context I H) (name : QName) : List (Node I H) :=
  ctx.nodes.takeWhile (·.passes name)

/-- The first of some nodes that does not hand a name on, with those around it. -/
def arrival? (name : QName) : List (Node I H) → Option (Context I H)
  | [] => none
  | node :: rest => if node.passes name then arrival? name rest else some ⟨node, rest⟩

/-- The nodes that a lookup comes to. -/
def walk (ctx : Context I H) (name : QName) : List (Node I H) :=
  ctx.passed name ++ ((arrival? name ctx.nodes).map (·.node)).toList

def outermost (ctx : Context I H) : Node I H := ctx.nodes.getLast (List.cons_ne_nil _ _)

variable {ctx owner last : Context I H} {name : QName} {scope : Scope}

section

variable (stops : ctx.node.passes name = false)

include stops

theorem arrival?_here : arrival? name ctx.nodes = some ctx := if_neg (Bool.eq_false_iff.mp stops)

theorem walk_here : ctx.walk name = [ctx.node] := by
  rw [walk, passed, arrival?_here stops, nodes, List.takeWhile_cons_of_neg (by simp [stops])]
  rfl

end

section

variable (passes : ctx.node.passes name = true)

include passes

theorem arrival?_outer : arrival? name ctx.nodes = arrival? name ctx.ancestors := if_pos passes

theorem passed_cons : ctx.passed name = ctx.node :: ctx.ancestors.takeWhile (·.passes name) :=
  List.takeWhile_cons_of_pos passes

theorem walk_outer {node : Node I H} {rest : List (Node I H)}
    (outer : ctx.ancestors = node :: rest) :
    ctx.walk name = ctx.node :: (Context.mk node rest).walk name := by
  rw [walk, passed_cons passes, arrival?_outer passes, outer]
  rfl

end

theorem walk_cons (ctx : Context I H) (name : QName) :
    ∃ rest, ctx.walk name = ctx.node :: rest := by
  cases passes : ctx.node.passes name with
  | false => exact ⟨[], walk_here passes⟩
  | true => exact ⟨_, by rw [walk, passed_cons passes, List.cons_append]⟩

/-- A context consists of what hands a name on, and of the node that does not and those around it.
-/
theorem nodes_of_arrival (arrives : arrival? name ctx.nodes = some last) :
    ctx.nodes = ctx.passed name ++ last.nodes := by
  unfold passed
  generalize ctx.nodes = nodes at arrives
  induction nodes with
  | nil => cases arrives
  | cons node rest ih =>
    unfold arrival? at arrives
    split at arrives
    · rename_i passes
      simpa [List.takeWhile_cons, passes] using ih arrives
    · rename_i stops
      cases arrives
      simp [stops, nodes]

theorem arrival?_mem (arrives : arrival? name ctx.nodes = some last) :
    ∀ node ∈ last.nodes, node ∈ ctx.nodes := by
  rw [nodes_of_arrival arrives]
  exact fun _ => List.mem_append_right _

theorem stops_of_arrival (arrives : arrival? name ctx.nodes = some last) :
    last.node.passes name = false := by
  generalize ctx.nodes = nodes at arrives
  induction nodes with
  | nil => cases arrives
  | cons node rest ih =>
    unfold arrival? at arrives
    split at arrives
    · exact ih arrives
    · rename_i stops
      cases arrives
      exact Bool.eq_false_iff.mpr stops

/-! ### Registries that agree -/

/-- The nodes below the nearest one of a scope, innermost first, or all if there is none. -/
def below (ctx : Context I H) (scope : Scope) : List (Node I H) :=
  ctx.nodes.takeWhile (·.scope ≠ scope)

/-- Whether a name is that of a component of a scope in the registry of every node up to the nearest
one of that scope. -/
def Agrees (ctx : Context I H) (name : QName) (scope : Scope) : Prop :=
  ∀ node ∈ ctx.below scope ++ ((nearest? scope ctx.nodes).map (·.node)).toList,
    ∃ d, node.registry.descriptor? name = some d ∧ d.scope = scope

/-- Where registries agree, it is the nearest node of the scope that a lookup arrives at. -/
theorem Agrees.arrival (agrees : ctx.Agrees name scope) :
    ctx.passed name = ctx.below scope ∧ arrival? name ctx.nodes = nearest? scope ctx.nodes := by
  unfold Agrees below passed at *
  generalize ctx.nodes = nodes at agrees ⊢
  induction nodes with
  | nil => exact ⟨rfl, rfl⟩
  | cons node rest ih =>
    by_cases own : node.scope = scope
    · obtain ⟨d, registered, same⟩ := agrees node (by simp [nearest?, own])
      have stops : node.passes name = false := by
        simp [Node.passes, registered, own, same]
      simp [arrival?, nearest?, own, stops]
    · obtain ⟨d, registered, same⟩ := agrees node (by simp [own])
      have passes : node.passes name = true :=
        Node.passes_eq_true_iff.mpr ⟨d, registered, fun same' => own (same'.symm.trans same)⟩
      have outer := ih fun other member => agrees other (by
        simp only [nearest?, own, if_false]
        rw [List.takeWhile_cons_of_pos (by simpa using own)]
        exact List.mem_cons_of_mem _ member)
      simp [arrival?, nearest?, own, passes, outer]

theorem Uniform.registry (uniform : ctx.Uniform) {node : Node I H} (member : node ∈ ctx.nodes) :
    node.registry = ctx.registry := by
  rcases List.mem_cons.mp member with rfl | outer
  · rfl
  · exact uniform node outer

theorem Uniform.agrees {d : Descriptor I H} (uniform : ctx.Uniform)
    (registered : ctx.registry.descriptor? name = some d) : ctx.Agrees name d.scope := by
  intro node upTo
  refine ⟨d, (uniform.registry ?_ ▸ registered), rfl⟩
  rcases List.mem_append.mp upTo with below | there
  · exact (List.takeWhile_sublist _).subset below
  · obtain ⟨owner, nearest, rfl⟩ := Option.map_eq_some_iff.mp (Option.mem_toList.mp there)
    exact nearest?_nodes nearest owner.node List.mem_cons_self

end Context

namespace World

/-- The first of some nodes that was released. -/
def released? (w : World I H) (nodes : List (Node I H)) : Option (Node I H) :=
  nodes.find? fun node => (w.table node.table).released

/-- The value of a variable as the outermost of some nodes that has it declared has it. -/
def declaredAmong? (w : World I H) (name : QName) (nodes : List (Node I H)) : Option Value :=
  nodes.reverse.findSome? fun node => OrderedMap.find? (w.table node.table).declared name

variable {w w' : World I H}

theorem released?_cons_live {ctx : Context I H} (live : w.isReleased ctx = false)
    (rest : List (Node I H)) : w.released? (ctx.node :: rest) = w.released? rest :=
  List.find?_cons_of_neg (Bool.eq_false_iff.mp live)

theorem Resolves.released? (resolves : w.Resolves w') (nodes : List (Node I H)) :
    w'.released? nodes = w.released? nodes := by
  simp only [World.released?, resolves.released]

theorem declaredAmong?_cons (w : World I H) (name : QName) (ctx : Context I H)
    (rest : List (Node I H)) : w.declaredAmong? name (ctx.node :: rest) =
      (w.declaredAmong? name rest).or (OrderedMap.find? (w.tableOf ctx).declared name) := by
  simp [declaredAmong?, List.findSome?_append, tableOf]

end World

namespace Resolve

variable {busy : List Mark} {ctx owner : Context I H} {name : QName} {d : Descriptor I H}
  {w w' : World I H}

theorem released?_walk (released : w.isReleased ctx = true) :
    w.released? (ctx.walk name) = some ctx.node := by
  obtain ⟨rest, walk⟩ := ctx.walk_cons name
  rw [walk]
  exact List.find?_cons_of_pos released

/-- What comes of a lookup. -/
inductive Delegates (busy : List Mark) (ctx : Context I H) (name : QName) (w : World I H) :
    EStateM.Result ResolveError (World I H) (Option Value) → Prop where
  | released {node : Node I H} (first : w.released? (ctx.walk name) = some node) :
    Delegates busy ctx name w (.error (.released node.scope) w)
  | lost {d : Descriptor I H} (live : w.released? (ctx.walk name) = none)
    (nowhere : Context.arrival? name ctx.nodes = none)
    (sought : ctx.outermost.registry.descriptor? name = some d) :
    Delegates busy ctx name w (.error (.componentOutOfReach name d.scope) w)
  | owned {owner : Context I H} {d : Descriptor I H} (live : w.released? (ctx.walk name) = none)
    (arrives : Context.arrival? name ctx.nodes = some owner)
    (registered : owner.registry.descriptor? name = some d) :
    Delegates busy ctx name w (((·.map Value.component) <$> obtain? busy owner name) w)
  | plain {last : Context I H} (live : w.released? (ctx.walk name) = none)
    (arrives : Context.arrival? name ctx.nodes = some last)
    (unregistered : last.registry.descriptor? name = none) :
    Delegates busy ctx name w (.ok (w.declaredAmong? name (ctx.walk name)) w)

theorem readBack_obtained (registered : owner.registry.descriptor? name = some d) :
    readBack ctx name (((·.map Value.component) <$> obtain? busy owner name) w) =
      ((·.map Value.component) <$> obtain? busy owner name) w := by
  rw [map_apply]
  cases obtains : obtain? busy owner name w with
  | error error w' => rfl
  | ok obtained w' =>
    obtain ⟨ref, rfl, -⟩ := obtain?_ok registered obtains
    rfl

/-- What comes of a lookup at the node around one that hands the name on comes of it there too, but
that the node may have the variable where none around it has. -/
theorem Delegates.outer {result : EStateM.Result ResolveError (World I H) (Option Value)}
    {node : Node I H} {rest : List (Node I H)} (outer : ctx.ancestors = node :: rest)
    (delegates : Delegates busy ⟨node, rest⟩ name w result) (live : w.isReleased ctx = false)
    (passes : ctx.node.passes name = true) :
    Delegates busy ctx name w (readBack ctx name result) := by
  have walk := Context.walk_outer passes outer
  have goes (first : Option (Node I H))
      (there : w.released? ((Context.mk node rest).walk name) = first) :
      w.released? (ctx.walk name) = first := by
    rw [walk, World.released?_cons_live live, there]
  have arrival : Context.arrival? name ctx.nodes =
      Context.arrival? name (Context.mk node rest).nodes := by
    rw [Context.arrival?_outer passes, outer]
    rfl
  cases delegates with
  | released first => exact .released (goes _ first)
  | lost there nowhere sought =>
    have outermost : ctx.outermost = (Context.mk node rest).outermost := by
      simp [Context.outermost, Context.nodes, outer]
    exact .lost (goes _ there) (arrival.trans nowhere) (outermost ▸ sought)
  | owned there arrives registered =>
    rw [readBack_obtained registered]
    exact .owned (goes _ there) (arrival.trans arrives) registered
  | plain there arrives unregistered =>
    have delegates : Delegates busy ctx name w _ :=
      .plain (goes _ there) (arrival.trans arrives) unregistered
    rw [walk, World.declaredAmong?_cons] at delegates
    cases found : w.declaredAmong? name ((Context.mk node rest).walk name) <;>
      rwa [found] at delegates

theorem delegates_here (live : w.isReleased ctx = false) (stops : ctx.node.passes name = false) :
    Delegates busy ctx name w (lookup busy ctx name w) := by
  have walk := Context.walk_here stops
  have goes : w.released? (ctx.walk name) = none := by
    rw [walk, World.released?_cons_live live]
    rfl
  have arrives := Context.arrival?_here stops
  cases registered : ctx.registry.descriptor? name with
  | none =>
    have delegates : Delegates busy ctx name w _ := .plain goes arrives registered
    rw [walk, World.declaredAmong?_cons] at delegates
    rwa [lookup_unregistered live registered]
  | some d =>
    rw [lookup_own live registered (Node.scope_of_stops stops registered),
      readBack_obtained registered]
    exact .owned goes arrives registered

theorem delegates_nowhere (live : w.isReleased ctx = false) (outermost : ctx.ancestors = [])
    (registered : ctx.registry.descriptor? name = some d) (foreign : d.scope ≠ ctx.scope) :
    Delegates busy ctx name w (lookup busy ctx name w) := by
  have passes : ctx.node.passes name = true :=
    Node.passes_eq_true_iff.mpr ⟨d, registered, foreign⟩
  have nowhere : Context.arrival? name ctx.nodes = none := by
    rw [Context.arrival?_outer passes, outermost]
    rfl
  have goes : w.released? (ctx.walk name) = none := by
    rw [Context.walk, Context.passed_cons passes, nowhere, outermost]
    exact World.released?_cons_live live []
  have sought : ctx.outermost.registry.descriptor? name = some d := by
    simp only [Context.outermost, Context.nodes, outermost, List.getLast_singleton]
    exact registered
  rw [lookup_out_of_reach live registered foreign outermost]
  exact .lost goes nowhere sought

/-- A lookup goes outward from every node that hands the name on. -/
theorem lookup_delegates (busy : List Mark) (ctx : Context I H) (name : QName) (w : World I H) :
    Delegates busy ctx name w (lookup busy ctx name w) := by
  cases released : w.isReleased ctx with
  | true =>
    rw [lookup_released released]
    exact .released (released?_walk released)
  | false =>
    cases passes : ctx.node.passes name with
    | false => exact delegates_here released passes
    | true =>
      obtain ⟨d, registered, foreign⟩ := Node.passes_eq_true_iff.mp passes
      cases around : ctx.ancestors with
      | nil => exact delegates_nowhere released around registered foreign
      | cons node rest =>
        rw [lookup_outer released registered foreign around]
        exact (lookup_delegates busy ⟨node, rest⟩ name w).outer around released passes
termination_by ctx.ancestors.length
decreasing_by
  rw [around]
  exact Nat.lt_succ_self _

/-- In a context of one registry, a component is found at the nearest node of its scope, in whose
table it then is. -/
theorem lookup_finds {found : Option Value} (uniform : ctx.Uniform)
    (registered : ctx.registry.descriptor? name = some d)
    (finds : lookup busy ctx name w = .ok found w') :
    ∃ owner ref, Context.nearest? d.scope ctx.nodes = some owner ∧
      found = some (.component ref) ∧ (w'.tableOf owner).component? name = some ref := by
  have arrival := (uniform.agrees registered).arrival.2
  have delegates := lookup_delegates busy ctx name w
  generalize lookup busy ctx name w = result at finds delegates
  cases delegates with
  | released | lost => cases finds
  | owned live arrives known =>
    rename_i owner d'
    rw [map_apply] at finds
    cases obtains : obtain? busy owner name w with
    | error error w'' =>
      rw [obtains] at finds
      cases finds
    | ok obtained w'' =>
      obtain ⟨ref, rfl, cached, -⟩ := obtain?_ok known obtains
      rw [obtains] at finds
      cases finds
      exact ⟨owner, ref, arrival.symm.trans arrives, rfl, cached⟩
  | plain live arrives unregistered =>
    rename_i last
    have member := Context.arrival?_mem arrives last.node List.mem_cons_self
    have here : last.registry = ctx.registry := uniform.registry member
    rw [here, registered] at unregistered
    cases unregistered

/-! ### What the owner does -/

theorem obtain?_cached {ref : ComponentRef} (live : w.isReleased ctx = false)
    (cached : (w.tableOf ctx).component? name = some ref) :
    obtain? busy ctx name w = .ok (some ref) w := by
  unfold obtain? fetch
  rw [bind_apply, ensureLive_apply, live]
  simp only [Bool.false_eq_true, if_false, bind_apply, get_apply, cached]
  rfl

theorem fetch_absent {create : (d : Descriptor I H) → ctx.registry.descriptor? name = some d →
      busy.contains (ctx.node.table, name) = false → WorldM I H ResolveError ComponentRef}
    (live : w.isReleased ctx = false) (registered : ctx.registry.descriptor? name = some d)
    (absent : (w.tableOf ctx).component? name = none)
    (free : busy.contains (ctx.node.table, name) = false)
    (idle : name ∉ (w.tableOf ctx).creating) :
    fetch busy ctx name create w = (some <$> create d registered free) w := by
  generalize fetches : fetch busy ctx name create w = outcome
  unfold fetch at fetches
  rw [bind_apply, ensureLive_apply, live] at fetches
  simp only [Bool.false_eq_true, if_false, bind_apply, get_apply, absent] at fetches
  -- Named apart from the world it runs in, for its cases depend on proofs of themselves.
  obtain ⟨x, made, runs⟩ : ∃ x : WorldM I H ResolveError (Option ComponentRef),
      x = _ ∧ x w = outcome := ⟨_, rfl, fetches⟩
  subst runs
  split at made
  · rename_i unregistered
    rw [registered] at unregistered
    cases unregistered
  · rename_i own known
    cases registered.symm.trans known
    split at made
    · rename_i marked
      rw [free] at marked
      cases marked
    · rw [made, bind_apply, get_apply]
      exact congrFun (if_neg (by simpa using idle)) w

theorem createAndCache_fails {lookup : QName → WorldM I H ResolveError (Option Value)}
    (keeps : ∀ other, Keeps World.Resolves (lookup other)) {error : ResolveError}
    (absent : (w.tableOf ctx).component? name = none)
    (fails : createAndCache ctx name d lookup w = .error error w') :
    (∃ cause, error = .lifecycle cause) ∧ (w'.tableOf ctx).component? name = none := by
  have rules := World.resolves_rules (I := I) (H := H)
  have evaluates (text : String) : Keeps World.Resolves (evaluateWith ctx lookup text) :=
    @evaluateWith_keeps I H (fun _ => World.Resolves) [] (rules.steady []) ctx lookup keeps text
  have created := @Lifecycle.create_outcome I H _ _ _ [] _ rules evaluates d ctx
    (w.beginMaking ctx name)
  unfold createAndCache at fails
  simp only [bind_apply, modify_apply, attempt] at fails
  cases creates : Lifecycle.create (evaluateWith ctx lookup) d ctx (w.beginMaking ctx name) with
  | ok ref made =>
    rw [creates] at fails
    cases fails
  | error cause made =>
    rw [creates] at created fails
    cases fails
    exact ⟨⟨cause, rfl⟩, (World.component?_endMaking made ctx name none _ name).trans
      (World.Resolves.unmade created absent).2⟩

end Resolve

theorem Context.get_ok {ctx : Context I H} {name : QName} {d : Descriptor I H} {w : World I H}
    {found : Option Value} (uniform : ctx.Uniform)
    (registered : ctx.registry.descriptor? name = some d)
    (reads : (outcomeOf (ctx.get (.qualified name) none w)).1 = .ok found) :
    ∃ owner ref, nearest? d.scope ctx.nodes = some owner ∧ found = some (.component ref) ∧
      ((outcomeOf (ctx.get (.qualified name) none w)).2.tableOf owner).component? name =
        some ref := by
  cases outcome : ctx.get (.qualified name) none w with
  | error error w' =>
    rw [outcome] at reads
    cases reads
  | ok found' w' =>
    rw [outcome] at reads
    cases reads
    exact Resolve.lookup_finds uniform registered outcome

/-! ### What stays as it is -/

namespace World

/-- Whether no tables have changed but some. -/
def Confined (tables : Nat → Prop) (w w' : World I H) : Prop :=
  ∀ table, ¬ tables table → w'.table table = w.table table

namespace Confined

variable {tables : Nat → Prop} {w middle w' : World I H}

theorem of_tables (same : w'.tables = w.tables) : Confined tables w w' := fun _ _ => by
  rw [table, same, table]

theorem trans (first : Confined tables w middle) (second : Confined tables middle w') :
    Confined tables w w' := fun table outside =>
  (second table outside).trans (first table outside)

theorem changeTable (w : World I H) {ctx : Context I H} (here : tables ctx.node.table)
    (change : Table I H → Table I H) : Confined tables w (w.changeTable ctx change) := by
  intro table outside
  have elsewhere : ctx.node.table ≠ table := fun same => outside (same ▸ here)
  rw [table_changeTable, if_neg elsewhere]

theorem endMaking (w : World I H) {ctx : Context I H} (here : tables ctx.node.table)
    (name : QName) (made : Option ComponentRef) :
    Confined tables w (w.endMaking ctx name made) :=
  have unmarked : Confined tables w (w.changeTable ctx (·.endMaking name)) := .changeTable w here _
  unmarked.trans (.of_tables rfl)

end Confined

theorem confined_rules (tables : Nat → Prop) :
    Rules (I := I) (H := H) (fun node => tables node.table) (fun _ _ _ => True)
      fun _ => Confined tables where
  steady _ := ⟨fun _ => .of_tables rfl, fun first second => first.trans second⟩
  own _ _ _ := trivial
  twin same := .of_tables same.tables
  bracket _ inner := inner
  construct _ _ _ := .of_tables rfl
  run w ref action := .of_tables (runs_runOn [] w ref action).tables
  hook w ref hook := .of_tables (runHook_same w ref .begin hook).2
  fail here _ _ marked :=
    ((Confined.changeTable _ here _).trans marked).trans (.endMaking _ here _ _)
  cache here _ _ _ _ _ same marked :=
    have started := (Confined.changeTable _ here _).trans (.of_tables same.tables)
    have made := (started.trans (.of_tables rfl)).trans (marked.trans (.endMaking _ here _ _))
    made.trans (.changeTable _ here _)

end World
end CommandChain
