import CommandChain.Proofs.Machine.Marks
import CommandChain.Proofs.SelectorGrammar
import CommandChain.Proofs.World.Demands

/-!
Creation comes to an end and finds the cycles there are. Lookups ask for creations, which ask for
lookups, through selectors that may say anything. `within` is a lookup that nothing stops but the
tables and that is cut off at some depth; what happens there never matters if the depth is the
number of nodes times the number of components that they know, and then some. Until then every
creation under way is another one, and one that is asked for again is refused.
-/
namespace CommandChain

variable {I H : Type}

namespace Resolve

/-- A lookup that hands no marks down, cut off at a depth. -/
def within (cut : Context I H → QName → WorldM I H ResolveError (Option Value)) :
    Nat → Context I H → QName → WorldM I H ResolveError (Option Value)
  | 0 => cut
  | depth + 1 => fun ctx name =>
    round [] (within cut depth ctx) (fun around => within cut depth around name) ctx name

theorem within_succ (cut : Context I H → QName → WorldM I H ResolveError (Option Value))
    (depth : Nat) (ctx : Context I H) (name : QName) : within cut (depth + 1) ctx name =
      round [] (within cut depth ctx) (fun around => within cut depth around name) ctx name := rfl

/-- Whether all that is marked is being made. -/
def Covered (w : World I H) (busy : List Mark) : Prop :=
  ∀ mark ∈ busy, mark.2 ∈ (w.table mark.1).creating

section

variable {busy : List Mark} {ctx : Context I H} {name : QName} {d : Descriptor I H}
  {w w' : World I H} {point : InjectionPoint I H}

theorem Covered.blocked (covered : Covered w busy) :
    (([] : List Mark).contains (ctx.node.table, name) = true ∨
        name ∈ (w.tableOf ctx).creating) ↔
      (busy.contains (ctx.node.table, name) = true ∨ name ∈ (w.tableOf ctx).creating) := by
  constructor
  · rintro (nothing | making)
    · cases nothing
    · exact .inr making
  · rintro (marked | making)
    · exact .inr (covered _ (List.contains_iff_mem.mp marked))
    · exact .inr making

theorem Covered.asked {other : QName} (covered : Covered w busy)
    (wants : Wants ctx d (lookup ((ctx.node.table, name) :: busy) ctx) (w.beginMaking ctx name)
      point other w') : Covered w' ((ctx.node.table, name) :: busy) := by
  intro mark member
  rw [(wants.tables mark.1).1]
  rcases List.mem_cons.mp member with rfl | member
  · rw [← World.tableOf, World.tableOf_beginMaking]
    exact List.mem_append_right _ List.mem_cons_self
  · exact World.creating_beginMaking (covered mark member)

theorem within_asked {cut : Context I H → QName → WorldM I H ResolveError (Option Value)}
    {depth : Nat}
    (ends : ∀ {busy : List Mark} {ctx : Context I H} {name : QName} {w : World I H},
      room busy ctx.nodes + ctx.ancestors.length < depth → Covered w busy →
      within cut depth ctx name w = lookup busy ctx name w)
    (enough : room busy ctx.nodes + ctx.ancestors.length < depth + 1) (covered : Covered w busy)
    {other : QName} (registered : ctx.registry.descriptor? name = some d)
    (free : busy.contains (ctx.node.table, name) = false)
    (wants : Wants ctx d (lookup ((ctx.node.table, name) :: busy) ctx) (w.beginMaking ctx name)
      point other w') :
    Matches Eq (lookup ((ctx.node.table, name) :: busy) ctx other w')
      (within cut depth ctx other w') := by
  have less := room_mark_lt registered free
  rw [ends (by omega) (covered.asked wants)]
  exact .refl _

/-- The depth that a lookup needs is the room that it has for creations and for nodes. -/
theorem within_eq (cut : Context I H → QName → WorldM I H ResolveError (Option Value))
    {depth : Nat} (enough : room busy ctx.nodes + ctx.ancestors.length < depth)
    (covered : Covered w busy) : within cut depth ctx name w = lookup busy ctx name w := by
  induction depth generalizing busy ctx name w with
  | zero => exact absurd enough (Nat.not_lt_zero _)
  | succ depth ih =>
    rw [lookup_round, within_succ]
    -- Whatever is marked is being made for some table, so the marks refuse nothing by themselves;
    -- a creation takes from the room, and the node around is one node further out.
    refine (round_matches pairing_eq rfl (fun _ _ _ _ => covered.blocked) ?_ ?_).eq
    · rintro d point other w' _ - registered - free - - wants rfl
      exact within_asked ih enough covered registered free wants
    · intro d node rest _ _ _ around
      have less := room_outer_lt busy around
      rw [ih (by omega) covered]
      exact .refl _

theorem fetch_within (cut : Context I H → QName → WorldM I H ResolveError (Option Value))
    {depth : Nat} (enough : room [] ctx.nodes + ctx.ancestors.length < depth + 1) :
    (fetch [] ctx name fun d _ _ => createAndCache ctx name d (within cut depth ctx)) w =
      ctx.component? name w := by
  have covered : Covered w [] := nofun
  refine (fetch_matches pairing_eq rfl (fun _ => covered.blocked) ?_).eq
  rintro d registered free - - - -
  refine createAndCache_matches pairing_eq rfl name d ?_
  rintro point other w' _ wants rfl
  exact within_asked (within_eq cut) enough covered registered free wants

theorem room_nil (nodes : List (Node I H)) : room [] nodes =
    (nodes.flatMap fun node => node.registry.componentNames.map (node.table, ·)).length := by
  induction nodes with
  | nil => rfl
  | cons node rest ih => simp [room, openNames, ih]

theorem room_le {nodes : List (Node I H)} {components : Nat}
    (few : ∀ node ∈ nodes, node.registry.componentCount ≤ components) :
    room [] nodes ≤ nodes.length * components := by
  induction nodes with
  | nil => exact Nat.zero_le _
  | cons node rest ih =>
    have here : openNames [] node ≤ components := calc
      openNames [] node ≤ node.registry.componentNames.length := List.countP_le_length
      _ = node.registry.componentCount := List.length_map _
      _ ≤ components := few node List.mem_cons_self
    have there := ih fun other member => few other (List.mem_cons_of_mem _ member)
    rw [List.length_cons, Nat.succ_mul, Nat.add_comm _ components]
    exact Nat.add_le_add here there

theorem room_lt {components depth : Nat}
    (few : ∀ node ∈ ctx.nodes, node.registry.componentCount ≤ components)
    (deep : ctx.nodes.length * (components + 1) ≤ depth) :
    room [] ctx.nodes + ctx.ancestors.length < depth := by
  have room := room_le few
  have length : ctx.nodes.length = ctx.ancestors.length + 1 := rfl
  rw [Nat.mul_add, Nat.mul_one] at deep
  omega

end
end Resolve

/-! ### Questions -/

/-- What may be asked of a context that has it make components. -/
inductive Query where
  | get (name : VariableName) (scope : Option Scope)
  | component (name : QName)
  | evaluate (selector : String)

namespace Query

variable {ctx : Context I H} {w : World I H} {query : Query} {demand : Demand I H}

def answer (ctx : Context I H) :
    Query → WorldM I H (ResolveError ⊕ SelectorError) (Option Value)
  | .get name scope => (ctx.get name scope).adaptExcept .inl
  | .component name => ((·.map Value.component) <$> ctx.component? name).adaptExcept .inl
  | .evaluate selector => (some <$> ctx.evaluate selector).adaptExcept .inr

def answerBy (look : Context I H → QName → WorldM I H ResolveError (Option Value))
    (ctx : Context I H) : Query → WorldM I H (ResolveError ⊕ SelectorError) (Option Value)
  | .get name scope => (do
      let name ← ctx.resolveName name
      look (← ctx.target scope) name).adaptExcept .inl
  | .component name => ((·.map Value.component) <$> Resolve.fetch [] ctx name fun d _ _ =>
      Resolve.createAndCache ctx name d (look ctx)).adaptExcept .inl
  | .evaluate selector => (some <$> Resolve.evaluateWith ctx (look ctx) selector).adaptExcept .inr

/-- Whether a question demands a component, not on behalf of another one. -/
inductive Begins (ctx : Context I H) (w : World I H) : Query → Demand I H → Prop
  | get {given : VariableName} {scope : Option Scope} {name : QName} {found owner : Context I H}
    (resolves : ctx.resolveName given w = .ok name w) (targets : ctx.target scope w = .ok found w)
    (reaches : Resolve.Reaches w name found owner) :
    Begins ctx w (.get given scope) ⟨[], owner, name, w⟩
  | component (name : QName) : Begins ctx w (.component name) ⟨[], ctx, name, w⟩
  | evaluate {selector text : String} {name : QName} {owner : Context I H} {w' : World I H}
    (asks : Selector.Asks selector ctx.subject ctx.environment w text w')
    (reads : Resolve.readNameIn ctx text w' = .ok name w')
    (reaches : Resolve.Reaches w' name ctx owner) :
    Begins ctx w (.evaluate selector) ⟨[], owner, name, w'⟩

/-- Whether a component is demanded while a question is answered. -/
def Demands (query : Query) (ctx : Context I H) (w : World I H) (demand : Demand I H) : Prop :=
  ∃ first, Begins ctx w query first ∧
    Relation.ReflTransGen (Demand.Calls fun _ => True) first demand

theorem target_ok {found : Context I H} {scope : Option Scope} {w' : World I H}
    (targets : ctx.target scope w = .ok found w') : found.nodes <:+ ctx.nodes := by
  cases scope with
  | none =>
    cases targets
    exact List.suffix_refl _
  | some scope =>
    simp only [Context.target, Context.atScope] at targets
    cases nearest : Context.nearest? scope ctx.nodes with
    | none =>
      rw [nearest] at targets
      cases targets
    | some owner =>
      rw [nearest] at targets
      cases targets
      exact Context.nearest?_suffix nearest

theorem answerBy_within {components depth : Nat}
    (cut : Context I H → QName → WorldM I H ResolveError (Option Value))
    (few : ∀ node ∈ ctx.nodes, node.registry.componentCount ≤ components)
    (deep : ctx.nodes.length * (components + 1) ≤ depth) :
    query.answerBy (Resolve.within cut depth) ctx w = query.answer ctx w := by
  cases query with
  | get given scope =>
    have same : Matches Eq (ctx.get given scope w) ((do
        let name ← ctx.resolveName given
        Resolve.within cut depth (← ctx.target scope) name) w) := by
      refine .bind (.refl _) ?_
      rintro name w' _ - - rfl
      refine .bind (.refl _) ?_
      rintro found w'' _ targets - rfl
      have suffix := target_ok targets
      have near : found.nodes.length * (components + 1) ≤ depth :=
        Nat.le_trans (Nat.mul_le_mul_right _ suffix.length_le) deep
      have enough := Resolve.room_lt (fun node member => few node (suffix.subset member)) near
      rw [Resolve.within_eq cut enough nofun]
      exact .refl _
    exact (same.adaptExcept _).eq
  | component name =>
    have enough := Resolve.room_lt few deep
    have same : Matches Eq (ctx.component? name w) ((Resolve.fetch [] ctx name fun d _ _ =>
        Resolve.createAndCache ctx name d (Resolve.within cut depth ctx)) w) := by
      rw [Resolve.fetch_within cut (Nat.lt_succ_of_lt enough)]
      exact .refl _
    exact ((same.map _).adaptExcept _).eq
  | evaluate selector =>
    have enough := Resolve.room_lt few deep
    have same : Matches Eq (ctx.evaluate selector w)
        (Resolve.evaluateWith ctx (Resolve.within cut depth ctx) selector w) := by
      refine Resolve.evaluateWith_matches pairing_eq rfl selector ?_
      rintro text name w' _ - - rfl
      rw [Resolve.within_eq cut enough nofun]
      exact .refl _
    exact ((same.map _).adaptExcept _).eq

theorem Begins.sound (begins : Begins ctx w query demand) (unmarked : w.Unmarked) :
    demand.Sound ctx.nodes := by
  -- Nothing is marked at first, so that is all there is to say of the marks.
  have bare {owner : Context I H} {name : QName} {w' : World I H}
      (inside : ∀ node ∈ owner.nodes, node ∈ ctx.nodes) (unmarked : w'.Unmarked) :
      (Demand.mk [] owner name w').Sound ctx.nodes :=
    ⟨inside, unmarked, .nil, nofun, nofun, fun marked => absurd rfl marked⟩
  cases begins with
  | get resolves targets reaches =>
    exact bare (fun node member => (target_ok targets).subset (reaches.inside node member)) unmarked
  | component name => exact bare (fun _ member => member) unmarked
  | evaluate asks reads reaches =>
    have steady : IsSteady (World.Resolves (I := I) (H := H)) := World.resolves_rules.steady []
    have keeps (name : QName) : Keeps World.Resolves (Resolve.lookup [] ctx name) :=
      Resolve.lookup_keeps World.resolves_rules name ctx fun _ _ => trivial
    have kept := Selector.Expr.asked_keeps steady
      (@Resolve.environment_keeps I H (fun _ => World.Resolves) [] steady ctx _ keeps) _ asks
    exact bare reaches.inside (unmarked.resolves kept)

theorem Begins.fails (begins : Begins ctx w query demand) {error : ResolveError} {w' : World I H}
    (fails : demand.answer = .error error w') :
    ∃ error, query.answer ctx w = .error error w' := by
  cases begins with
  | get resolves targets reaches =>
    have unread := reaches.fails fails
    refine ⟨.inl error, ?_⟩
    simp only [answer, EStateM.adaptExcept, Context.get, bind_apply, resolves, targets, unread]
  | component name =>
    have unread : ctx.component? name w = .error error w' := fails
    refine ⟨.inl error, ?_⟩
    simp only [answer, EStateM.adaptExcept, map_apply, unread]
  | evaluate asks reads reaches =>
    have unread := Resolve.valueOf_error reads (reaches.fails fails)
    have unevaluated := Selector.evaluate_asked_error unread asks
    refine ⟨.inr error.toSelectorError, ?_⟩
    simp only [answer, EStateM.adaptExcept, map_apply]
    rw [Context.evaluate, Resolve.evaluateWith, unevaluated]

end Query

/-- What is made at the same time is all of it different, and no more than the nodes know of. -/
theorem Demand.Sound.length_le {nodes : List (Node I H)} {demand : Demand I H}
    {d : Descriptor I H} {components : Nat} (sound : demand.Sound nodes)
    (creates : demand.Creates d)
    (few : ∀ node ∈ nodes, node.registry.componentCount ≤ components) :
    (demand.mark :: demand.marks).length ≤ nodes.length * components := by
  refine Nat.le_trans ?_ (Resolve.room_le few)
  rw [Resolve.room_nil]
  refine (sound.nodup_begun creates).length_le_of_subset fun mark member => ?_
  obtain ⟨node, inside, table, known⟩ := sound.known_begun creates mark member
  exact List.mem_flatMap.mpr ⟨node, inside, List.mem_map.mpr ⟨mark.2, known, by rw [table]⟩⟩

/-- What is asked of a context while nothing is being made is answered without going deeper than the
nodes and the components that they know allow. Whenever a component is demanded on the way, the
marks that were handed down are what the tables say is being made; if it has to be made, it is
another one than those, and all of them are no more than the nodes times the components. It is
refused for a cycle exactly if it is being made; and one that its own creation cannot do without
fails, and is not there afterwards. -/
theorem lookups_end_and_find_cycles {w : World I H} (unmarked : w.Unmarked) (ctx : Context I H)
    {components : Nat} (few : ∀ node ∈ ctx.nodes, node.registry.componentCount ≤ components)
    (query : Query) :
    (∀ cut depth, ctx.nodes.length * (components + 1) ≤ depth →
      query.answerBy (Resolve.within cut depth) ctx w = query.answer ctx w) ∧
    ∀ demand, query.Demands ctx w demand →
      demand.world.Marked demand.marks ∧
      (∀ d, demand.Creates d → (demand.mark :: demand.marks).Nodup ∧
        (demand.mark :: demand.marks).length ≤ ctx.nodes.length * components) ∧
      (∀ other, (∃ w', demand.answer = .error (.circularComponent other) w') ↔
        other = demand.name ∧ demand.mark ∈ demand.marks) ∧
      ∀ again, again.mark = demand.mark →
        Relation.TransGen (Demand.Calls (·.injection.nullable = false)) demand again →
        ∃ cause w', demand.answer = .error (.lifecycle cause) w' ∧
          (w'.tableOf demand.ctx).component? demand.name = none ∧
          (Query.Begins ctx w query demand → ∃ error, query.answer ctx w = .error error w') := by
  refine ⟨fun cut depth deep => Query.answerBy_within cut few deep, ?_⟩
  rintro demand ⟨first, begins, run⟩
  have sound := (begins.sound unmarked).run run
  refine ⟨sound.marked, fun d creates => ?_, fun other => sound.circular_iff, ?_⟩
  · exact ⟨sound.nodup_begun creates, sound.length_le creates few⟩
  · intro again same cycle
    obtain ⟨cause, w', fails, absent⟩ := sound.cycle (fun _ required => required) cycle same
    exact ⟨cause, w', fails, absent, fun begins => begins.fails fails⟩

/-! A component that one of its own points asks for. -/

def knotPoint : InjectionPoint Unit Unit := ⟨.field "again" "$s:knot", fun _ => pure ()⟩

def knot : Descriptor Unit Unit :=
  ((Descriptor.of "Knot" ⟨"urn:sample", "knot"⟩ ()).inScope .request).inject knotPoint.injection
    knotPoint.assign

def knotRegistry : Registry Unit Unit := ⟨[(knot.name, knot)], .empty, [("s", "urn:sample")]⟩

def knotRoot : Context Unit Unit := ⟨⟨0, 0, .request, knotRegistry, .int 1, ⟨0, []⟩, true⟩, []⟩

def knotWorld : World Unit Unit := ((World.start ()).openRoot knotRegistry (.int 1)).2

def knotDemand : Demand Unit Unit := ⟨[], knotRoot, knot.name, knotWorld⟩

/-- The instance that is to be fed. -/
def knotBuilt : World Unit Unit := ((knotWorld.beginMaking knotRoot knot.name).addCell "Knot" ()).2

def knotFurther : Demand Unit Unit :=
  ⟨[knotDemand.mark], knotRoot, knot.name, (knotBuilt.overrideBindings knotRoot []).2⟩

theorem knot_creates : knotDemand.Creates knot := ⟨rfl, rfl, rfl, nofun, nofun⟩

theorem read_again : (Selector.read "$s:knot").expr = .var "s:knot" ⟨[], none⟩ :=
  Selector.read_variable
    (.prefixed (.ascii "s" (by decide) (by decide)) (.ascii "knot" (by decide) (by decide))) rfl

theorem knot_again : Demand.Calls (·.injection.nullable = false) knotDemand knotFurther :=
  knot_creates.calls knotPoint knotBuilt rfl rfl rfl read_again (by decide +kernel)
    (.own rfl rfl rfl)

theorem lookups_end_and_find_knot : knotWorld.Unmarked ∧
    (∀ node ∈ knotRoot.nodes, node.registry.componentCount ≤ 1) ∧
    ∃ error w', Query.answer knotRoot (.component knot.name) knotWorld = .error error w' ∧
      (w'.tableOf knotRoot).component? knot.name = none := by
  have unmarked : knotWorld.Unmarked :=
    World.unmarked_calls.opens (World.start ()) .request knotRegistry (.int 1) none true fun _ => rfl
  have few : ∀ node ∈ knotRoot.nodes, node.registry.componentCount ≤ 1 := by
    rintro node (_ | ⟨_, ⟨⟩⟩)
    exact Nat.le_refl _
  obtain ⟨-, demands⟩ := lookups_end_and_find_cycles unmarked knotRoot few (.component knot.name)
  have begins : Query.Begins knotRoot knotWorld (.component knot.name) knotDemand := .component _
  obtain ⟨-, -, -, cycle⟩ := demands knotDemand ⟨knotDemand, begins, .refl⟩
  obtain ⟨cause, w', -, absent, unanswered⟩ := cycle knotFurther rfl (.single knot_again)
  obtain ⟨error, fails⟩ := unanswered begins
  exact ⟨unmarked, few, error, w', fails, absent⟩

end CommandChain
