import CommandChain.Proofs.World.Sparing

/-!
What a lookup leaves behind. On its way it binds prefixes, marks what it makes and makes components,
each of which can fail at many places and can make others first. Whatever came of it, the bindings
and the marks are gone afterwards, and every table is what it was but for the components that it
gained; of those that were tried, each is there exactly if the latest attempt at it came to one.
-/
namespace CommandChain

variable {I H : Type}

namespace Table

/-- A table without its components. -/
def bare (table : Table I H) : Table I H := { table with components := [] }

theorem bare_endMaking {table table' : Table I H} {name : QName}
    (same : table'.bare = (table.beginMaking name).bare) (idle : name ∉ table.creating) :
    (table'.endMaking name).bare = table.bare := by
  have marked : table'.creating = table.creating ++ [name] := (congrArg Table.creating same :)
  have unmarked : table'.creating.filter (· ≠ name) = table.creating := by
    rw [marked, List.filter_append, List.filter_eq_self.mpr]
    · simp
    · intro other member
      exact decide_eq_true fun same => idle (same ▸ member)
  calc (table'.endMaking name).bare
      = { table'.bare with creating := table'.creating.filter (· ≠ name) } := rfl
    _ = table.bare := by rw [same, unmarked]; rfl

end Table

namespace Attempt

/-- The latest of some attempts at a component for a table, the newest of them first. -/
def latest? (attempts : List Attempt) (table : Nat) (name : QName) : Option Attempt :=
  attempts.find? fun attempt => attempt.table = table ∧ attempt.name = name

theorem latest?_append (later earlier : List Attempt) (table : Nat) (name : QName) :
    latest? (later ++ earlier) table name =
      (latest? later table name).or (latest? earlier table name) :=
  List.find?_append

theorem latest?_cons (attempt : Attempt) (earlier : List Attempt) (table : Nat) (name : QName) :
    latest? (attempt :: earlier) table name =
      if attempt.table = table ∧ attempt.name = name then some attempt
      else latest? earlier table name := by
  rw [latest?, List.find?_cons]
  by_cases itself : attempt.table = table ∧ attempt.name = name
  · rw [if_pos itself, decide_eq_true itself]
  · rw [if_neg itself, decide_eq_false itself, latest?]

end Attempt

namespace World

/-- Whether layers and tables are what they were, but for the components that tables gained. None
were tried that were being made, and those that were tried last came to what is there. -/
structure Resolves (w w' : World I H) : Prop extends w.Untouched w' where
  bare : ∀ table, (w'.table table).bare = (w.table table).bare
  gains : ∀ table, ∃ gained,
    (w'.table table).components = (w.table table).components ++ gained
  attempts : ∃ tried, w'.attempts = tried ++ w.attempts ∧
    (∀ attempt ∈ tried, attempt.name ∉ (w.table attempt.table).creating) ∧
    ∀ table name, (w'.table table).component? name =
      match Attempt.latest? tried table name with
      | some attempt => attempt.made
      | none => (w.table table).component? name

namespace Resolves

variable {w middle w' : World I H}

theorem of_same (layers : w'.layers = w.layers) (tables : w'.tables = w.tables)
    (attempts : w'.attempts = w.attempts) : w.Resolves w' where
  toUntouched := .of_same layers tables
  bare _ := by rw [table, tables, table]
  gains _ := ⟨[], by rw [table, tables, table, List.append_nil]⟩
  attempts := ⟨[], attempts, nofun, fun _ _ => by rw [table, tables, table]; rfl⟩

theorem creating (resolves : w.Resolves w') (table : Nat) :
    (w'.table table).creating = (w.table table).creating :=
  (congrArg Table.creating (resolves.bare table) :)

theorem declared (resolves : w.Resolves w') (table : Nat) :
    (w'.table table).declared = (w.table table).declared :=
  (congrArg Table.declared (resolves.bare table) :)

theorem scope (resolves : w.Resolves w') (table : Nat) :
    (w'.table table).scope = (w.table table).scope :=
  (congrArg Table.scope (resolves.bare table) :)

theorem trans (first : w.Resolves middle) (second : middle.Resolves w') : w.Resolves w' where
  toUntouched := first.toUntouched.trans second.toUntouched
  bare table := (second.bare table).trans (first.bare table)
  gains table := by
    obtain ⟨early, grown⟩ := first.gains table
    obtain ⟨late, grown'⟩ := second.gains table
    exact ⟨early ++ late, by rw [grown', grown, List.append_assoc]⟩
  attempts := by
    obtain ⟨early, before, idle, found⟩ := first.attempts
    obtain ⟨late, after, idle', found'⟩ := second.attempts
    refine ⟨late ++ early, by rw [after, before, List.append_assoc], ?_, fun table name => ?_⟩
    · intro attempt member
      rcases List.mem_append.mp member with member | member
      · rw [← first.creating]
        exact idle' attempt member
      · exact idle attempt member
    · rw [found', found, Attempt.latest?_append]
      cases Attempt.latest? late table name <;> rfl

theorem component?_making (resolves : w.Resolves w') {table : Nat} {name : QName}
    (making : name ∈ (w.table table).creating) :
    (w'.table table).component? name = (w.table table).component? name := by
  obtain ⟨tried, -, idle, found⟩ := resolves.attempts
  have untried : Attempt.latest? tried table name = none := by
    refine List.find?_eq_none.mpr fun attempt member here => ?_
    obtain ⟨rfl, rfl⟩ := of_decide_eq_true here
    exact idle attempt member making
  rw [found, untried]

theorem bracket {ctx : Context I H} {mappings : List (String × String)}
    (inner : (w.overrideBindings ctx mappings).2.Resolves w') :
    w.Resolves (w'.restoreBindings ctx (w.overrideBindings ctx mappings).1) where
  toUntouched := inner.toUntouched.bracket
  bare := inner.bare
  gains := inner.gains
  attempts := inner.attempts

end Resolves

theorem attempts_runOn {α : Type} (w : World I H) (ref : ComponentRef) (action : Action I H α) :
    (w.runOn ref action).2.attempts = w.attempts := by
  unfold runOn
  split
  · dsimp only
    split <;> rfl
  · rfl

theorem resolves_runOn {α : Type} (w : World I H) (ref : ComponentRef) (action : Action I H α) :
    w.Resolves (w.runOn ref action).2 :=
  have ran := runs_runOn [] w ref action
  .of_same ran.layers ran.tables (attempts_runOn w ref action)

theorem resolves_runHook (w : World I H) (ref : ComponentRef) (phase : HookPhase)
    (hook : Hook I H) : w.Resolves (w.runHook ref phase hook).2 := by
  have ran := resolves_runOn w ref hook.run
  unfold runHook
  cases runs : w.runOn ref hook.run with
  | mk outcome w' =>
    rw [runs] at ran
    cases outcome with
    | none => exact ran
    | some outcome => exact ran.trans (.of_same rfl rfl rfl)

/-! ### A component that is made -/

section

variable {w w' : World I H} {ctx : Context I H} {name : QName}

theorem tableOf_beginMaking (w : World I H) (ctx : Context I H) (name : QName) :
    (w.beginMaking ctx name).tableOf ctx = (w.tableOf ctx).beginMaking name := by
  rw [beginMaking, tableOf, table_changeTable, if_pos rfl, tableOf]

theorem components_beginMaking (w : World I H) (ctx : Context I H) (name : QName) (table : Nat) :
    ((w.beginMaking ctx name).table table).components = (w.table table).components := by
  rw [beginMaking, table_changeTable]
  split <;> rfl

theorem components_endMaking (w : World I H) (ctx : Context I H) (name : QName)
    (made : Option ComponentRef) (table : Nat) :
    ((w.endMaking ctx name made).table table).components = (w.table table).components := by
  change ((w.changeTable ctx (·.endMaking name)).table table).components = _
  rw [table_changeTable]
  split <;> rfl

theorem creating_beginMaking {table : Nat} {other : QName}
    (making : other ∈ (w.table table).creating) :
    other ∈ ((w.beginMaking ctx name).table table).creating := by
  rw [beginMaking, table_changeTable]
  split
  · exact List.mem_append_left _ making
  · exact making

theorem Resolves.bare_ended (inner : (w.beginMaking ctx name).Resolves w')
    (idle : name ∉ (w.tableOf ctx).creating) (made : Option ComponentRef) (table : Nat) :
    ((w'.endMaking ctx name made).table table).bare = (w.table table).bare := by
  have same := inner.bare table
  change ((w'.changeTable ctx (·.endMaking name)).table table).bare = _
  rw [beginMaking, table_changeTable] at same
  rw [table_changeTable]
  split
  · rename_i here
    rw [if_pos here] at same
    subst here
    exact Table.bare_endMaking same idle
  · rename_i elsewhere
    rwa [if_neg elsewhere] at same

theorem Resolves.unmade (inner : (w.beginMaking ctx name).Resolves w')
    (absent : (w.tableOf ctx).component? name = none) :
    (∃ tried, w'.attempts = tried ++ w.attempts ∧
      (∀ attempt ∈ tried, attempt.name ∉ (w.table attempt.table).creating) ∧
      ∀ table other, (w'.table table).component? other =
        match Attempt.latest? tried table other with
        | some attempt => attempt.made
        | none => (w.table table).component? other) ∧
    (w'.tableOf ctx).component? name = none := by
  obtain ⟨tried, after, idle, found⟩ := inner.attempts
  have same (table : Nat) (other : QName) :
      ((w.beginMaking ctx name).table table).component? other =
        (w.table table).component? other := by
    rw [Table.component?, components_beginMaking, Table.component?]
  refine ⟨⟨tried, after, fun attempt member making => ?_, fun table other => ?_⟩, ?_⟩
  · exact idle attempt member (creating_beginMaking making)
  · rw [found, same]
  · rw [tableOf, inner.component?_making, same]
    · exact absent
    · rw [← tableOf, tableOf_beginMaking]
      exact List.mem_append_right _ List.mem_cons_self

theorem Resolves.attempts_ended (inner : (w.beginMaking ctx name).Resolves w')
    (idle : name ∉ (w.tableOf ctx).creating) (absent : (w.tableOf ctx).component? name = none)
    {last : World I H} {made : Option ComponentRef}
    (recorded : last.attempts = ⟨ctx.node.table, name, made⟩ :: w'.attempts)
    (here : (last.tableOf ctx).component? name = made)
    (elsewhere : ∀ table other, ¬ (ctx.node.table = table ∧ name = other) →
      (last.table table).component? other = (w'.table table).component? other) :
    ∃ tried, last.attempts = tried ++ w.attempts ∧
      (∀ attempt ∈ tried, attempt.name ∉ (w.table attempt.table).creating) ∧
      ∀ table other, (last.table table).component? other =
        match Attempt.latest? tried table other with
        | some attempt => attempt.made
        | none => (w.table table).component? other := by
  obtain ⟨⟨tried, after, fresh, found⟩, -⟩ := inner.unmade absent
  refine ⟨⟨ctx.node.table, name, made⟩ :: tried, by rw [recorded, after, List.cons_append], ?_,
    fun table other => ?_⟩
  · intro attempt member
    rcases List.mem_cons.mp member with rfl | member
    · exact idle
    · exact fresh attempt member
  · rw [Attempt.latest?_cons]
    by_cases itself : ctx.node.table = table ∧ name = other
    · rw [if_pos itself]
      obtain ⟨rfl, rfl⟩ := itself
      exact here
    · rw [if_neg itself, elsewhere table other itself, found]

theorem component?_endMaking (w : World I H) (ctx : Context I H) (name : QName)
    (made : Option ComponentRef) (table : Nat) (other : QName) :
    ((w.endMaking ctx name made).table table).component? other =
      (w.table table).component? other := by
  rw [Table.component?, components_endMaking, Table.component?]

theorem Resolves.fail (inner : (w.beginMaking ctx name).Resolves w')
    (idle : name ∉ (w.tableOf ctx).creating) (absent : (w.tableOf ctx).component? name = none) :
    w.Resolves (w'.endMaking ctx name none) where
  toUntouched := (untouched_beginMaking w ctx name).trans
    (inner.toUntouched.trans (untouched_endMaking w' ctx name none))
  bare := inner.bare_ended idle none
  gains table := by
    obtain ⟨gained, grown⟩ := inner.gains table
    exact ⟨gained, by rw [components_endMaking, grown, components_beginMaking]⟩
  attempts := by
    refine inner.attempts_ended idle absent rfl ?_ fun table other _ =>
      component?_endMaking w' ctx name none table other
    rw [tableOf, component?_endMaking]
    exact (inner.unmade absent).2

theorem Resolves.cache (inner : (w.beginMaking ctx name).Resolves w')
    (idle : name ∉ (w.tableOf ctx).creating) (absent : (w.tableOf ctx).component? name = none)
    (cached : Cached I H) : w.Resolves
      ((w'.endMaking ctx name (some cached.ref)).changeTable ctx (·.cache name cached)) where
  toUntouched := ((untouched_beginMaking w ctx name).trans
    (inner.toUntouched.trans (untouched_endMaking w' ctx name (some cached.ref)))).trans
    (.changeTable _ _ fun _ => rfl)
  bare table := by
    rw [← inner.bare_ended idle (some cached.ref), table_changeTable]
    split <;> rfl
  gains table := by
    obtain ⟨gained, grown⟩ := inner.gains table
    have nameless : ((w'.endMaking ctx name (some cached.ref)).tableOf ctx).component? name =
        none := by
      rw [tableOf, component?_endMaking]
      exact (inner.unmade absent).2
    refine ⟨gained ++ if ctx.node.table = table then [(name, cached)] else [], ?_⟩
    rw [components_cache nameless, components_endMaking, grown, components_beginMaking,
      List.append_assoc]
  attempts := by
    refine inner.attempts_ended idle absent rfl ?_ fun table other another => ?_
    · rw [tableOf, component?_cache, if_pos ⟨rfl, rfl⟩]
    · rw [component?_cache, if_neg another, component?_endMaking]

end

theorem resolves_rules :
    Rules (I := I) (H := H) (fun _ => True) (fun _ _ _ => True) fun _ => Resolves where
  steady _ := ⟨fun _ => .of_same rfl rfl rfl, fun first second => first.trans second⟩
  own _ _ _ := trivial
  twin same := .of_same same.layers same.tables same.attempts
  bracket _ inner := inner.bracket
  construct _ _ _ := .of_same rfl rfl rfl
  run := resolves_runOn
  hook w ref := resolves_runHook w ref .begin
  fail _ idle absent marked := marked.fail idle absent
  cache := by
    intro busy ctx name d content w made w' _ _ _ idle _ absent same marked
    have started : (w.beginMaking ctx name).Resolves made :=
      .of_same same.layers same.tables same.attempts
    have placed : made.Resolves (made.addCell d.typeName content).2 := .of_same rfl rfl rfl
    exact ((started.trans placed).trans marked).cache idle absent _

theorem get_resolves (w : World I H) (ctx : Context I H) (name : VariableName)
    (scope : Option Scope) : w.Resolves (outcomeOf (ctx.get name scope w)).2 :=
  Context.get_keeps resolves_rules ctx (fun _ _ => trivial) name scope w

theorem component?_resolves (w : World I H) (ctx : Context I H) (name : QName) :
    w.Resolves (outcomeOf (ctx.component? name w)).2 :=
  Context.component?_keeps resolves_rules ctx name (fun _ _ => trivial) (fun _ _ => trivial) w

theorem evaluate_resolves (w : World I H) (ctx : Context I H) (selector : String) :
    w.Resolves (outcomeOf (ctx.evaluate selector w)).2 :=
  Context.evaluate_keeps resolves_rules ctx (fun _ _ => trivial) selector w

/-- Whether a lookup ends with a value or with an error, no binding, mark, variable or flag is other
than before; the components that were there are there, in order, with those that were made after
them; and one whose latest attempt failed is not there. -/
theorem lookups_leave_components (w : World I H) (ctx : Context I H) (name : VariableName)
    (scope : Option Scope) (component : QName) (selector : String) :
    w.Resolves (outcomeOf (ctx.get name scope w)).2 ∧
      w.Resolves (outcomeOf (ctx.component? component w)).2 ∧
      w.Resolves (outcomeOf (ctx.evaluate selector w)).2 :=
  ⟨get_resolves w ctx name scope, component?_resolves w ctx component,
    evaluate_resolves w ctx selector⟩

end World
end CommandChain
