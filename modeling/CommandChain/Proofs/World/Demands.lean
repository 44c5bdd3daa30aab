import CommandChain.Proofs.World.Delegation
import CommandChain.Proofs.World.Rounds
import Mathlib.Data.List.Nodup
import Mathlib.Logic.Relation

/-!
Components that are demanded of nodes. A demand may have its component made, which may demand
further ones, each while those before it are still being made. What is being made is handed down as
marks; `Sound` says that the marks are what the tables say is being made, that none stands twice,
and that none of it is there yet. A demand for what is being made is refused, and a refusal goes
back through all that cannot do without.
-/
namespace CommandChain

variable {I H : Type}

/-! ### Marks -/

namespace World

variable {w w' : World I H} {marks : List Mark}

/-- Whether marks say what is being made for each table, the newest first. -/
def Marked (w : World I H) (marks : List Mark) : Prop :=
  ∀ table, (w.table table).creating = ((marks.filter (·.1 = table)).map Prod.snd).reverse

theorem Marked.mem_iff (marked : w.Marked marks) {table : Nat} {name : QName} :
    name ∈ (w.table table).creating ↔ (table, name) ∈ marks := by
  rw [marked]
  simp

theorem Marked.beginMaking (marked : w.Marked marks) (ctx : Context I H) (name : QName) :
    (w.beginMaking ctx name).Marked ((ctx.node.table, name) :: marks) := by
  intro table
  rw [World.beginMaking, table_changeTable]
  by_cases here : ctx.node.table = table
  · subst here
    simp [Table.beginMaking, marked ctx.node.table]
  · simp [here, marked table]

end World

/-! ### Failures that go back -/

namespace Lifecycle

variable {evaluate : Evaluator I H} {ref : ComponentRef} {d : Descriptor I H} {ctx : Context I H}
  {w w' w'' : World I H} {point : InjectionPoint I H} {error : SelectorError}

theorem feedPoint_error (ref : ComponentRef) (d : Descriptor I H)
    (required : point.injection.nullable = false) (fails : evaluate
      point.injection.select (w.overrideBindings ctx point.injection.mappings).2 = .error error w') :
    ∃ cause w'', feedPoint evaluate ref d ctx point w = .error cause w'' := by
  unfold feedPoint injectPoint evaluatePoint
  simp only [bind_apply, modifyGet_apply, modify_apply, attempt, fails]
  simp only [pure, EStateM.pure, required]
  exact ⟨_, _, rfl⟩

theorem Feeds.fails {points : List (InjectionPoint I H)}
    (feeds : Feeds evaluate ref d ctx points w point w')
    (required : point.injection.nullable = false)
    (fails : evaluate point.injection.select w' = .error error w'') :
    ∃ cause last, injectPoints evaluate ref d ctx points w = .error cause last := by
  induction points generalizing w with
  | nil => exact feeds.elim
  | cons first rest ih =>
    rw [injectPoints_cons]
    rcases feeds with ⟨rfl, rfl⟩ | ⟨between, fed, feeds⟩
    · obtain ⟨cause, last, unfed⟩ := feedPoint_error ref d required fails
      exact ⟨cause, last, by rw [bind_apply, unfed]⟩
    · obtain ⟨cause, last, unfed⟩ := ih feeds
      exact ⟨cause, last, by rw [bind_apply, fed]; exact unfed⟩

theorem Makes.fails (makes : Makes evaluate d ctx w point w')
    (required : point.injection.nullable = false)
    (fails : evaluate point.injection.select w' = .error error w'') :
    ∃ cause last, create evaluate d ctx w = .error cause last := by
  obtain ⟨ref, built, constructs, feeds⟩ := makes
  obtain ⟨cause, last, unfed⟩ := feeds.fails required fails
  exact ⟨cause, last, by simp only [create, bind_apply, constructs, inject, unfed]⟩

end Lifecycle

namespace Resolve

variable {busy : List Mark} {ctx owner : Context I H} {name : QName} {d : Descriptor I H}
  {w w' w'' : World I H} {point : InjectionPoint I H} {error : ResolveError}

theorem valueOf_error {lookup : QName → WorldM I H ResolveError (Option Value)} {text : String}
    (reads : readNameIn ctx text w = .ok name w) (fails : lookup name w = .error error w') :
    (environment ctx lookup).valueOf text w = .error error.toSelectorError w' := by
  simp only [environment, bind_apply, reads, EStateM.adaptExcept, fails]

theorem Wants.fails {other : QName} {lookup : QName → WorldM I H ResolveError (Option Value)}
    (wants : Wants ctx d lookup (w.beginMaking ctx name) point other w')
    (required : point.injection.nullable = false)
    (fails : lookup other w' = .error error w'') :
    ∃ cause last, createAndCache ctx name d lookup w = .error cause last := by
  obtain ⟨fed, text, makes, asks, reads⟩ := wants
  have unanswered := Selector.evaluate_asked_error (valueOf_error reads fails) asks
  obtain ⟨cause, last, uncreated⟩ := makes.fails required unanswered
  unfold createAndCache
  simp only [bind_apply, modify_apply, attempt, uncreated]
  exact ⟨_, _, rfl⟩

theorem Wants.tables {other : QName}
    (wants : Wants ctx d (lookup busy ctx) w point other w') (table : Nat) :
    (w'.table table).creating = (w.table table).creating ∧
      (w'.table table).released = (w.table table).released ∧
      ∀ made ∈ (w.table table).creating,
        (w'.table table).component? made = (w.table table).component? made := by
  obtain ⟨between, before, after⟩ := wants.kept World.resolves_rules [] fun asked =>
    lookup_keeps World.resolves_rules asked ctx fun _ _ => trivial
  have making := after.creating table
  refine ⟨making.trans (before.creating table),
    (after.released table).trans (before.released table), fun made here => ?_⟩
  have still : made ∈ (between.table table).creating := by
    rw [before.creating]
    exact here
  exact (after.component?_making still).trans (before.component?_making here)

/-! ### From a node to the one that is asked -/

/-- Whether a lookup goes outward from a context to another one, which is asked for the component.
-/
inductive Reaches (w : World I H) (name : QName) : Context I H → Context I H → Prop
  | own {ctx : Context I H} {d : Descriptor I H} (live : w.isReleased ctx = false)
    (registered : ctx.registry.descriptor? name = some d) (own : d.scope = ctx.scope) :
    Reaches w name ctx ctx
  | outer {ctx owner : Context I H} {d : Descriptor I H} {node : Node I H}
    {rest : List (Node I H)} (live : w.isReleased ctx = false)
    (registered : ctx.registry.descriptor? name = some d) (foreign : d.scope ≠ ctx.scope)
    (around : ctx.ancestors = node :: rest) (reaches : Reaches w name ⟨node, rest⟩ owner) :
    Reaches w name ctx owner

namespace Reaches

theorem registered (reaches : Reaches w name ctx owner) :
    ∃ d, owner.registry.descriptor? name = some d := by
  induction reaches with
  | own _ registered _ => exact ⟨_, registered⟩
  | outer _ _ _ _ _ ih => exact ih

theorem inside (reaches : Reaches w name ctx owner) : ∀ node ∈ owner.nodes, node ∈ ctx.nodes := by
  induction reaches with
  | own => exact fun _ member => member
  | outer _ _ _ around _ ih =>
    intro node member
    rw [Context.nodes, around]
    exact List.mem_cons_of_mem _ (ih node member)

theorem fails (reaches : Reaches w name ctx owner)
    (fails : obtain? busy owner name w = .error error w') :
    lookup busy ctx name w = .error error w' := by
  induction reaches with
  | own live registered own => rw [lookup_own live registered own, map_apply, fails]; rfl
  | outer live registered foreign around _ ih =>
    rw [lookup_outer live registered foreign around, ih fails]
    rfl

end Reaches
end Resolve

/-! ### Demands -/

/-- A component that is demanded of a node, while others are being made. -/
structure Demand (I H : Type) where
  /-- What is being made, the newest first. -/
  marks : List Mark
  ctx : Context I H
  name : QName
  world : World I H

namespace Demand

variable {demand further : Demand I H} {d : Descriptor I H} {nodes : List (Node I H)}
  {through : InjectionPoint I H → Prop}

def mark (demand : Demand I H) : Mark := (demand.ctx.node.table, demand.name)

/-- What comes of a demand. -/
def answer (demand : Demand I H) : EStateM.Result ResolveError (World I H) (Option ComponentRef) :=
  Resolve.obtain? demand.marks demand.ctx demand.name demand.world

/-- Whether a component that is demanded has to be made. -/
structure Creates (demand : Demand I H) (d : Descriptor I H) : Prop where
  registered : demand.ctx.registry.descriptor? demand.name = some d
  live : demand.world.isReleased demand.ctx = false
  absent : (demand.world.tableOf demand.ctx).component? demand.name = none
  free : demand.mark ∉ demand.marks
  idle : demand.name ∉ (demand.world.tableOf demand.ctx).creating

theorem Creates.of_free (registered : demand.ctx.registry.descriptor? demand.name = some d)
    (live : demand.world.isReleased demand.ctx = false)
    (absent : (demand.world.tableOf demand.ctx).component? demand.name = none)
    (free : demand.marks.contains demand.mark = false)
    (idle : demand.name ∉ (demand.world.tableOf demand.ctx).creating) : demand.Creates d :=
  ⟨registered, live, absent,
    fun marked => Bool.eq_false_iff.mp free (List.contains_iff_mem.mpr marked), idle⟩

/-- Whether the creation of a component demands another one for one of its points. -/
def Calls (through : InjectionPoint I H → Prop) (demand further : Demand I H) : Prop :=
  ∃ d, demand.Creates d ∧ ∃ point name w owner, through point ∧
    Resolve.Wants demand.ctx d (Resolve.lookup (demand.mark :: demand.marks) demand.ctx)
      (demand.world.beginMaking demand.ctx demand.name) point name w ∧
    Resolve.Reaches w name demand.ctx owner ∧
    further = ⟨demand.mark :: demand.marks, owner, name, w⟩

theorem Creates.calls {owner : Context I H} {name : QName} {text : String}
    {steps : Selector.Steps} {rest : List (InjectionPoint I H)} {ref : ComponentRef}
    (creates : demand.Creates d) (point : InjectionPoint I H) (built : World I H)
    (lets : through point)
    (constructs : Lifecycle.construct d (demand.world.beginMaking demand.ctx demand.name) =
      .ok ref built)
    (first : d.injections = point :: rest)
    (reads : (Selector.read point.injection.select).expr = .var text steps)
    (parses : QName.parse text ((built.overrideBindings demand.ctx
      point.injection.mappings).2.namespaceUri? demand.ctx) = .ok name)
    (reaches : Resolve.Reaches (built.overrideBindings demand.ctx point.injection.mappings).2 name
      demand.ctx owner) :
    Calls through demand ⟨demand.mark :: demand.marks, owner, name,
      (built.overrideBindings demand.ctx point.injection.mappings).2⟩ := by
  have wants : Resolve.Wants demand.ctx d
      (Resolve.lookup (demand.mark :: demand.marks) demand.ctx)
      (demand.world.beginMaking demand.ctx demand.name) point name
      (built.overrideBindings demand.ctx point.injection.mappings).2 := by
    refine ⟨(built.overrideBindings demand.ctx point.injection.mappings).2, text,
      ⟨ref, built, constructs, ?_⟩, ?_, ?_⟩
    · rw [first]
      exact .inl ⟨rfl, rfl⟩
    · rw [Selector.Asks, reads, Selector.Expr.Asks]
      exact ⟨rfl, rfl⟩
    · rw [Resolve.readNameIn_apply, parses]
  exact ⟨d, creates, point, name, _, owner, lets, wants, reaches, rfl⟩

theorem Creates.answer (creates : demand.Creates d) : demand.answer =
    (some <$> Resolve.createAndCache demand.ctx demand.name d
      (Resolve.lookup (demand.mark :: demand.marks) demand.ctx)) demand.world :=
  Resolve.fetch_absent creates.live creates.registered creates.absent
    (Bool.eq_false_iff.mpr fun marked => creates.free (List.contains_iff_mem.mp marked))
    creates.idle

theorem Creates.fails (creates : demand.Creates d) {error : ResolveError} {w : World I H}
    (fails : demand.answer = .error error w) :
    (∃ cause, error = .lifecycle cause) ∧ (w.tableOf demand.ctx).component? demand.name = none := by
  rw [creates.answer, map_apply] at fails
  split at fails
  · cases fails
  · rename_i uncreated
    cases fails
    exact Resolve.createAndCache_fails (fun other => Resolve.lookup_keeps World.resolves_rules other
      demand.ctx fun _ _ => trivial) creates.absent uncreated

/-- What holds of a demand that comes up on the way, among some nodes. -/
structure Sound (nodes : List (Node I H)) (demand : Demand I H) : Prop where
  inside : ∀ node ∈ demand.ctx.nodes, node ∈ nodes
  marked : demand.world.Marked demand.marks
  nodup : demand.marks.Nodup
  known : ∀ mark ∈ demand.marks,
    ∃ node ∈ nodes, node.table = mark.1 ∧ mark.2 ∈ node.registry.componentNames
  pending : ∀ mark ∈ demand.marks, (demand.world.table mark.1).released = false ∧
    (demand.world.table mark.1).component? mark.2 = none
  registered : demand.marks ≠ [] → ∃ d, demand.ctx.registry.descriptor? demand.name = some d

namespace Sound

variable (sound : Sound nodes demand)

include sound

theorem known_begun (creates : demand.Creates d) :
    ∀ mark ∈ demand.mark :: demand.marks,
      ∃ node ∈ nodes, node.table = mark.1 ∧ mark.2 ∈ node.registry.componentNames := by
  intro mark member
  rcases List.mem_cons.mp member with rfl | member
  · exact ⟨demand.ctx.node, sound.inside _ List.mem_cons_self, rfl,
      Resolve.mem_componentNames creates.registered⟩
  · exact sound.known mark member

theorem nodup_begun (creates : demand.Creates d) : (demand.mark :: demand.marks).Nodup :=
  List.nodup_cons.mpr ⟨creates.free, sound.nodup⟩

theorem pending_begun (creates : demand.Creates d) :
    ∀ mark ∈ demand.mark :: demand.marks,
      ((demand.world.beginMaking demand.ctx demand.name).table mark.1).released = false ∧
      ((demand.world.beginMaking demand.ctx demand.name).table mark.1).component? mark.2 =
        none := by
  intro mark member
  have before : (demand.world.table mark.1).released = false ∧
      (demand.world.table mark.1).component? mark.2 = none := by
    rcases List.mem_cons.mp member with rfl | member
    · exact ⟨creates.live, creates.absent⟩
    · exact sound.pending mark member
  rw [Table.component?, World.components_beginMaking]
  refine ⟨?_, before.2⟩
  rw [World.beginMaking, World.table_changeTable]
  split
  · rename_i here
    rw [← before.1, ← here]
    rfl
  · exact before.1

theorem calls (calls : Calls through demand further) : Sound nodes further := by
  obtain ⟨d, creates, point, name, w, owner, -, wants, reaches, rfl⟩ := calls
  -- What was made and failed on the way has taken its marks along, and what is marked now was not
  -- made meanwhile, so the tables say the same as when the creation began.
  have marked := sound.marked.beginMaking demand.ctx demand.name
  refine ⟨fun node member => sound.inside node (reaches.inside node member), fun table => ?_,
    sound.nodup_begun creates, sound.known_begun creates, fun mark member => ?_,
    fun _ => reaches.registered⟩
  · exact (wants.tables table).1.trans (marked table)
  · obtain ⟨-, released, unmade⟩ := wants.tables mark.1
    obtain ⟨live, absent⟩ := sound.pending_begun creates mark member
    exact ⟨released.trans live, (unmade mark.2 (marked.mem_iff.mpr member)).trans absent⟩

theorem run (run : Relation.ReflTransGen (Calls through) demand further) : Sound nodes further := by
  induction run with
  | refl => exact sound
  | tail _ calls ih => exact ih.calls calls

/-- A demand is refused for a cycle exactly if what it demands is being made. -/
theorem circular_iff {other : QName} :
    (∃ w, demand.answer = .error (.circularComponent other) w) ↔
      other = demand.name ∧ demand.mark ∈ demand.marks := by
  constructor
  · rintro ⟨w, answer⟩
    rcases Resolve.fetch_cases _ demand.world with ⟨-, fetches⟩ | ⟨live, ⟨ref, -, fetches⟩ |
        ⟨absent, ⟨-, fetches⟩ | ⟨d, registered, ⟨blocked, fetches⟩ | ⟨free, idle, -⟩⟩⟩⟩
    · cases fetches.symm.trans answer
    · cases fetches.symm.trans answer
    · cases fetches.symm.trans answer
    · cases fetches.symm.trans answer
      refine ⟨rfl, blocked.elim List.contains_iff_mem.mp ?_⟩
      exact fun making => sound.marked.mem_iff.mp making
    · have creates : demand.Creates d := .of_free registered live absent free idle
      obtain ⟨cause, same⟩ := (creates.fails answer).1
      cases same
  · rintro ⟨rfl, marked⟩
    obtain ⟨live, absent⟩ := sound.pending _ marked
    obtain ⟨d, registered⟩ := sound.registered (List.ne_nil_of_mem marked)
    rcases Resolve.fetch_registered live absent registered with ⟨-, fetches⟩ | ⟨free, -, -⟩
    · exact ⟨_, fetches⟩
    · exact absurd (List.contains_iff_mem.mpr marked) (Bool.eq_false_iff.mp free)

end Sound

/-- A demand that cannot be met is not met either by what cannot do without it. -/
theorem Calls.fails (calls : Calls through demand further)
    (required : ∀ point, through point → point.injection.nullable = false) {error : ResolveError}
    {w : World I H} (fails : further.answer = .error error w) :
    ∃ cause last, demand.answer = .error (.lifecycle cause) last ∧
      (last.tableOf demand.ctx).component? demand.name = none := by
  obtain ⟨d, creates, point, name, w, owner, through, wants, reaches, rfl⟩ := calls
  obtain ⟨error, last, uncreated⟩ := wants.fails (required point through) (reaches.fails fails)
  have failed : demand.answer = .error error last := by
    rw [creates.answer, map_apply, uncreated]
  obtain ⟨⟨cause, rfl⟩, absent⟩ := creates.fails failed
  exact ⟨cause, last, failed, absent⟩

theorem marks_run (run : Relation.TransGen (Calls through) demand further) :
    ∃ newer, further.marks = newer ++ demand.mark :: demand.marks := by
  induction run with
  | single calls =>
    obtain ⟨d, -, point, name, w, owner, -, -, -, rfl⟩ := calls
    exact ⟨[], rfl⟩
  | tail _ calls ih =>
    obtain ⟨d, -, point, name, w, owner, -, -, -, rfl⟩ := calls
    obtain ⟨newer, marks⟩ := ih
    exact ⟨_ :: newer, by rw [marks]; rfl⟩

theorem fails_run (run : Relation.TransGen (Calls through) demand further)
    (required : ∀ point, through point → point.injection.nullable = false)
    (fails : ∃ error w, further.answer = .error error w) :
    ∃ cause last, demand.answer = .error (.lifecycle cause) last ∧
      (last.tableOf demand.ctx).component? demand.name = none := by
  induction run using Relation.TransGen.head_induction_on with
  | single calls =>
    obtain ⟨error, w, fails⟩ := fails
    exact calls.fails required fails
  | head calls _ ih =>
    obtain ⟨cause, last, fails, -⟩ := ih
    exact calls.fails required fails

/-- A component that its own creation cannot do without is not made. -/
theorem Sound.cycle (sound : Sound nodes demand)
    (required : ∀ point, through point → point.injection.nullable = false)
    (run : Relation.TransGen (Calls through) demand further)
    (same : further.mark = demand.mark) :
    ∃ cause last, demand.answer = .error (.lifecycle cause) last ∧
      (last.tableOf demand.ctx).component? demand.name = none := by
  refine fails_run run required ?_
  obtain ⟨newer, marks⟩ := marks_run run
  have marked : further.mark ∈ further.marks := by
    rw [marks, same]
    exact List.mem_append_right _ List.mem_cons_self
  exact ⟨_, (sound.run run.to_reflTransGen).circular_iff.mpr ⟨rfl, marked⟩⟩

end Demand
end CommandChain
