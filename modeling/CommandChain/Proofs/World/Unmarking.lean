import CommandChain.Proofs.World.Demands
import CommandChain.Proofs.World.Overrides

/-!
Lookups that do without some marks. A mark stops nothing but a demand for what it marks, so worlds
that differ in some marks alone are the same to all that demands none of it: every component on the
way is made in both, and is fed the same.
-/
namespace CommandChain

variable {I H : Type}

namespace World

/-- Whether two worlds are the same to lookups that demand none of some components, which may be in
the making in the one and not in the other. -/
structure AlikeBut (marks : List Mark) (w v : World I H) : Prop where
  layers : ∀ id, v.layers.get id = w.layers.get id
  cells : v.cells = w.cells
  host : v.host = w.host
  log : v.log = w.log
  hookRuns : v.hookRuns = w.hookRuns
  attempts : v.attempts = w.attempts
  table : ∀ id, { v.table id with creating := [] } = { w.table id with creating := [] }
  creating : ∀ mark, mark ∉ marks →
    (mark.2 ∈ (v.table mark.1).creating ↔ mark.2 ∈ (w.table mark.1).creating)

namespace AlikeBut

variable {marks : List Mark} {w v : World I H} (alike : w.AlikeBut marks v)

include alike

theorem changeTable (ctx : Context I H) (change : Table I H → Table I H)
    (table : ∀ table table' : Table I H,
      { table' with creating := [] } = { table with creating := [] } →
      { change table' with creating := [] } = { change table with creating := [] })
    (creating : ∀ (table table' : Table I H) (name : QName),
      (name ∈ table'.creating ↔ name ∈ table.creating) →
      (name ∈ (change table').creating ↔ name ∈ (change table).creating)) :
    (w.changeTable ctx change).AlikeBut marks (v.changeTable ctx change) where
  layers := alike.layers
  cells := alike.cells
  host := alike.host
  log := alike.log
  hookRuns := alike.hookRuns
  attempts := alike.attempts
  table id := by
    rw [table_changeTable, table_changeTable]
    split
    · exact table _ _ (alike.table id)
    · exact alike.table id
  creating mark other := by
    rw [table_changeTable, table_changeTable]
    split
    · exact creating _ _ mark.2 (alike.creating mark other)
    · exact alike.creating mark other

theorem overrideLayer (ctx : Context I H) (mappings : List (String × String)) :
    (v.overrideBindings ctx mappings).1 = (w.overrideBindings ctx mappings).1 ∧
      ∀ id, (v.overrideBindings ctx mappings).2.layers.get id =
        (w.overrideBindings ctx mappings).2.layers.get id := by
  simp only [overrideBindings, Namespaces.applyOverride, alike.layers, get_set_layer]
  exact ⟨trivial, fun _ => trivial⟩

theorem runOn {α : Type} (ref : ComponentRef) (action : Action I H α) :
    (v.runOn ref action).1 = (w.runOn ref action).1 ∧
      (w.runOn ref action).2.AlikeBut marks (v.runOn ref action).2 := by
  unfold World.runOn
  rw [alike.cells, alike.host]
  split
  · dsimp only
    split <;> exact ⟨rfl, { alike with cells := rfl, host := rfl }⟩
  · exact ⟨rfl, alike⟩

theorem runHook (ref : ComponentRef) (phase : HookPhase) (hook : Hook I H) :
    (v.runHook ref phase hook).1 = (w.runHook ref phase hook).1 ∧
      (w.runHook ref phase hook).2.AlikeBut marks (v.runHook ref phase hook).2 := by
  obtain ⟨same, ran⟩ := alike.runOn ref hook.run
  unfold World.runHook
  generalize v.runOn ref hook.run = right at same ran
  generalize w.runOn ref hook.run = left at same ran
  obtain ⟨outcome, w'⟩ := left
  obtain ⟨outcome', v'⟩ := right
  cases same
  cases outcome with
  | none => exact ⟨rfl, ran⟩
  | some outcome => exact ⟨rfl, { ran with hookRuns := congrArg (_ :: ·) ran.hookRuns }⟩

end AlikeBut

theorem pairing_alikeBut (marks : List Mark) :
    Pairing (I := I) (H := H) (AlikeBut marks) where
  namespaceUri? := by
    intro w v alike ctx
    have found (ids : List Nat) : Namespaces.findBinding? v.layers ids =
        Namespaces.findBinding? w.layers ids := by
      induction ids with
      | nil => rfl
      | cons id outer ih => funext name; simp only [Namespaces.findBinding?, alike.layers, ih]
    funext name
    simp only [namespaceUri?, Namespaces.uri?, found]
  override := by
    intro w v alike ctx mappings
    obtain ⟨same, layers⟩ := alike.overrideLayer ctx mappings
    exact ⟨same, { alike with layers }⟩
  restore := by
    intro w v alike ctx snapshot
    refine { alike with layers := fun id => ?_ }
    simp only [restoreBindings, Namespaces.restore, alike.layers, get_set_layer]
  note alike level text := { alike with log := congrArg (_ :: ·) alike.log }
  host alike := alike.host
  rehost alike host := { alike with host := rfl }
  construct := by
    intro w v alike typeName content
    simp only [addCell, alike.cells]
    exact ⟨trivial, { alike with cells := rfl }⟩
  run alike _ ref action := alike.runOn ref action
  hook alike ref hook := alike.runHook ref .begin hook
  table alike := alike.table
  begins alike ctx name := alike.changeTable ctx _ (fun _ _ same => same) fun _ _ other same => by
    simp only [Table.beginMaking, List.mem_append, same]
  ends alike ctx name made :=
    have ended := alike.changeTable ctx (·.endMaking name) (fun _ _ same => same)
      fun _ _ other same => by simp only [Table.endMaking, List.mem_filter, same]
    { ended with attempts := congrArg (_ :: ·) alike.attempts }
  cache alike ctx name cached := alike.changeTable ctx _
    (fun _ _ same => (congrArg (Table.cache · name cached) same :)) fun _ _ _ same => same

theorem alikeBut_of_layers {w : World I H} {layers : Layers}
    (same : ∀ id, layers.get id = w.layers.get id) : w.AlikeBut [] { w with layers } :=
  ⟨same, rfl, rfl, rfl, rfl, rfl, fun _ => rfl, fun _ _ => .rfl⟩

theorem alikeBut_of_mark (w : World I H) (ctx : Context I H) (name : QName) :
    (w.changeTable ctx (·.endMaking name)).AlikeBut [(ctx.node.table, name)] w := by
  refine ⟨fun _ => rfl, rfl, rfl, rfl, rfl, rfl, fun id => ?_, fun mark apart => ?_⟩ <;>
    rw [table_changeTable] <;> split
  · rfl
  · rfl
  · rename_i here
    have another : mark.2 ≠ name := fun same =>
      apart (List.mem_singleton.mpr (Prod.ext here.symm same))
    simp [Table.endMaking, another]
  · rfl

end World

/-! ### What an instance is fed -/

namespace Lifecycle

section

variable (evaluate : Evaluator I H) (ref : ComponentRef) (d : Descriptor I H) (ctx : Context I H)

/-- The value that a point of an instance is fed, if it is not left unset. -/
def value? (point : InjectionPoint I H) (w : World I H) : Option Value :=
  match (outcomeOf (evaluatePoint evaluate ctx point w)).1,
    (outcomeOf (injectPoint evaluate ref ctx point w)).1 with
  | .ok (.ok value), .ok (.ok ()) => some value
  | _, _ => none

/-- What some points are fed one after the other, up to the first that the instance cannot do
without. -/
def values : List (InjectionPoint I H) → World I H → List (Option Value)
  | [], _ => []
  | point :: rest, w => value? evaluate ref ctx point w ::
    match feedPoint evaluate ref d ctx point w with
    | .ok () w' => values rest w'
    | .error _ _ => []

def injected (w : World I H) : List (Option Value) :=
  match construct d w with
  | .ok ref w' => values evaluate ref d ctx d.injections w'
  | .error _ _ => []

end

variable {evaluate evaluate' : Evaluator I H} {ref : ComponentRef} {d : Descriptor I H}
  {ctx : Context I H} {R : World I H → World I H → Prop} {w v : World I H}
  (pairing : Pairing R) (paired : R w v)

include pairing paired

theorem value?_matches (point : InjectionPoint I H)
    (answers : ∀ v', R (w.overrideBindings ctx point.injection.mappings).2 v' →
      Matches R (evaluate point.injection.select (w.overrideBindings ctx point.injection.mappings).2)
        (evaluate' point.injection.select v')) :
    value? evaluate' ref ctx point v = value? evaluate ref ctx point w := by
  have fed : Matches R (injectPoint evaluate ref ctx point w)
      (injectPoint evaluate' ref ctx point v) := injectPoint_matches pairing paired point answers
  unfold value?
  rw [(evaluatePoint_matches pairing paired point answers).outcome, fed.outcome]

theorem values_match (points : List (InjectionPoint I H))
    (answers : ∀ point w' v', Feeds evaluate ref d ctx points w point w' → R w' v' →
      Matches R (evaluate point.injection.select w') (evaluate' point.injection.select v')) :
    values evaluate' ref d ctx points v = values evaluate ref d ctx points w := by
  induction points generalizing w v with
  | nil => rfl
  | cons point rest ih =>
    have here (v' : World I H) := answers point _ v' (.inl ⟨rfl, rfl⟩)
    have fed : Matches R (feedPoint evaluate ref d ctx point w)
        (feedPoint evaluate' ref d ctx point v) := feedPoint_matches pairing paired point here
    rw [values, values, value?_matches pairing paired point here]
    rcases fed.cases with ⟨_, w', v', left, right, paired'⟩ | ⟨_, w', v', left, right, -⟩ <;>
      rw [left, right]
    congr 1
    exact ih paired' fun other w'' v'' feeds => answers other w'' v'' (.inr ⟨w', left, feeds⟩)

theorem injected_matches
    (answers : ∀ point w' v', Makes evaluate d ctx w point w' → R w' v' →
      Matches R (evaluate point.injection.select w') (evaluate' point.injection.select v')) :
    injected evaluate' d ctx v = injected evaluate d ctx w := by
  have constructed := construct_matches pairing d paired
  unfold injected
  rcases constructed.cases with ⟨ref, w', v', left, right, paired'⟩ |
    ⟨_, w', v', left, right, -⟩ <;> rw [left, right]
  exact values_match pairing paired' _ fun point w'' v'' feeds =>
    answers point w'' v'' ⟨ref, w', left, feeds⟩

end Lifecycle

/-! ### Demands with and without marks -/

namespace Demand

variable {marks busy busy' : List Mark} {ctx : Context I H} {name : QName} {w v : World I H}

def injected (demand : Demand I H) (d : Descriptor I H) : List (Option Value) :=
  Lifecycle.injected (Resolve.evaluateWith demand.ctx
    (Resolve.lookup (demand.mark :: demand.marks) demand.ctx)) d demand.ctx
    (demand.world.beginMaking demand.ctx demand.name)

/-- Whether a demand leads to none for some components. -/
def Spares (demand : Demand I H) (marks : List Mark) : Prop :=
  ∀ further, Relation.ReflTransGen (Calls fun _ => True) demand further → further.mark ∉ marks

theorem spares_of_last {demand : Demand I H} (apart : demand.mark ∉ marks)
    (last : ∀ further, ¬ Calls (fun _ => True) demand further) : demand.Spares marks := by
  intro further run
  induction run using Relation.ReflTransGen.head_induction_on with
  | refl => exact apart
  | head calls => exact absurd calls (last _)

theorem Spares.calls {demand further : Demand I H} (spares : demand.Spares marks)
    (calls : Calls (fun _ => True) demand further) : further.Spares marks :=
  fun last run => spares last (run.head calls)

end Demand

namespace Resolve

variable {marks busy busy' : List Mark} {ctx : Context I H} {name : QName} {w v : World I H}

/-- Whether marks are the same but for some. -/
def MarkedAlike (marks busy busy' : List Mark) : Prop :=
  ∀ mark, mark ∉ marks → (mark ∈ busy' ↔ mark ∈ busy)

theorem MarkedAlike.cons (same : MarkedAlike marks busy busy') (mark : Mark) :
    MarkedAlike marks (mark :: busy) (mark :: busy') := by
  intro other apart
  rw [List.mem_cons, List.mem_cons, same other apart]

theorem MarkedAlike.blocked (same : MarkedAlike marks busy busy') (alike : w.AlikeBut marks v)
    (apart : (ctx.node.table, name) ∉ marks) :
    (busy'.contains (ctx.node.table, name) = true ∨ name ∈ (v.tableOf ctx).creating) ↔
      (busy.contains (ctx.node.table, name) = true ∨ name ∈ (w.tableOf ctx).creating) := by
  rw [List.contains_iff_mem, List.contains_iff_mem, same _ apart]
  exact or_congr_right (alike.creating _ apart)

/-- Lookups that lead to none of what only one of them marks end alike. -/
theorem lookup_alike (alike : w.AlikeBut marks v) (same : MarkedAlike marks busy busy')
    (spares : ∀ owner, Reaches w name ctx owner → (Demand.mk busy owner name w).Spares marks) :
    Matches (World.AlikeBut marks) (lookup busy ctx name w) (lookup busy' ctx name v) := by
  induction measured : room busy ctx.nodes + ctx.ancestors.length using Nat.strongRecOn
    generalizing busy busy' ctx name w v with
  | ind size ih =>
    rw [lookup_round, lookup_round]
    -- Only a demand for one of the marks could tell the two apart, and no demand on the way is one.
    refine round_matches (World.pairing_alikeBut marks) alike ?_ ?_ ?_
    · intro d live registered own
      exact same.blocked alike (spares ctx (.own live registered own) _ .refl)
    · intro d point other w' v' live registered own free absent idle wants alike'
      have creates : (Demand.mk busy ctx name w).Creates d :=
        .of_free registered live absent free idle
      have less := room_mark_lt registered free
      refine ih _ (by omega) alike' (same.cons _) (fun owner reaches => ?_) rfl
      exact (spares ctx (.own live registered own)).calls
        ⟨d, creates, point, other, w', owner, trivial, wants, reaches, rfl⟩
    · intro d node rest live registered foreign around
      have less := room_outer_lt busy around
      refine ih _ (by omega) alike same (fun owner reaches => ?_) rfl
      exact spares owner (.outer live registered foreign around reaches)

end Resolve

namespace Demand

variable {marks busy busy' : List Mark} {ctx : Context I H} {name : QName} {w v : World I H}
  {d : Descriptor I H} (alike : w.AlikeBut marks v) (same : Resolve.MarkedAlike marks busy busy')
  (spares : (Demand.mk busy ctx name w).Spares marks)

include alike same spares

omit alike in
theorem asked_alike (creates : (Demand.mk busy ctx name w).Creates d) {point : InjectionPoint I H}
    {other : QName} {w' v' : World I H}
    (wants : Resolve.Wants ctx d (Resolve.lookup ((ctx.node.table, name) :: busy) ctx)
      (w.beginMaking ctx name) point other w') (alike' : w'.AlikeBut marks v') :
    Matches (World.AlikeBut marks) (Resolve.lookup ((ctx.node.table, name) :: busy) ctx other w')
      (Resolve.lookup ((ctx.node.table, name) :: busy') ctx other v') :=
  Resolve.lookup_alike alike' (same.cons _) fun owner reaches =>
    spares.calls ⟨d, creates, point, other, w', owner, trivial, wants, reaches, rfl⟩

theorem creates_iff : (Demand.mk busy' ctx name v).Creates d ↔
    (Demand.mk busy ctx name w).Creates d := by
  have pairing := World.pairing_alikeBut (I := I) (H := H) marks
  have apart : (ctx.node.table, name) ∉ marks := spares _ .refl
  have live := pairing.isReleased alike ctx
  have cached := pairing.component? alike ctx name
  have marked := same _ apart
  have making := alike.creating _ apart
  constructor
  · rintro ⟨registered, live', absent, free, idle⟩
    exact ⟨registered, live.symm.trans live', cached.symm.trans absent,
      fun there => free (marked.mpr there), fun there => idle (making.mpr there)⟩
  · rintro ⟨registered, live', absent, free, idle⟩
    exact ⟨registered, live.trans live', cached.trans absent,
      fun there => free (marked.mp there), fun there => idle (making.mp there)⟩

theorem answer_alike : Matches (World.AlikeBut marks) (Demand.mk busy ctx name w).answer
    (Demand.mk busy' ctx name v).answer := by
  have pairing := World.pairing_alikeBut (I := I) (H := H) marks
  refine Resolve.fetch_matches pairing alike ?_ fun d registered free _ live absent idle => ?_
  · exact fun _ => same.blocked alike (spares _ .refl)
  · have creates : (Demand.mk busy ctx name w).Creates d :=
      .of_free registered live absent free idle
    exact Resolve.createAndCache_matches pairing alike name d fun point other w' v' =>
      asked_alike same spares creates

/-- What is made under some marks is fed what it is fed without them. -/
theorem injected_alike (creates : (Demand.mk busy ctx name w).Creates d) :
    (Demand.mk busy' ctx name v).injected d = (Demand.mk busy ctx name w).injected d := by
  have pairing := World.pairing_alikeBut (I := I) (H := H) marks
  have begun := pairing.begins alike ctx name
  refine Lifecycle.injected_matches pairing begun fun point w' v' makes alike' => ?_
  refine Resolve.evaluateWith_matches pairing alike' _ fun text other w'' v'' asks reads => ?_
  exact asked_alike same spares creates ⟨w', text, makes, asks, reads⟩

end Demand
end CommandChain
