import CommandChain.Proofs.Machine.Session
import CommandChain.Proofs.World.Origins

/-!
The contexts of a session. Every context has a number of its own and lies in tables that were handed
out, and what is on the stacks was told to the embedder and is there once. So two contexts that a
machine takes for the same are one, and an embedder that sticks to what it was told disturbs nobody
else's table.
-/
namespace CommandChain

variable {I H : Type}

namespace Machine

def working (m : Machine I H) : List (Context I H) :=
  m.contexts ++ m.suspendedContexts ++ m.global.toList

variable {m : Machine I H} {ctx top current : Context I H} {outer : List (Context I H)}

theorem mem_working :
    ctx ∈ m.working ↔ ctx ∈ m.contexts ∨ ctx ∈ m.suspendedContexts ∨ m.global = some ctx := by
  simp [working]

theorem located_working (m : Machine I H) : m.located.working = m.working := by
  simp [working]

theorem marked_working (m : Machine I H) (ctx : Context I H) :
    (m.marked ctx).working = m.working := by
  simp [working]

theorem working_dropped (contexts : m.contexts = top :: outer) (keeps : Bool) :
    m.working.Perm
      ((if keeps then [] else [top]) ++ (m.droppedContext keeps top outer).working) := by
  cases keeps with
  | false => simp [working, droppedContext, contexts]
  | true =>
    simp only [working, droppedContext, contexts, if_true, List.nil_append, List.cons_append]
    exact List.perm_middle.symm.append_right _

theorem mem_working_dropped (contexts : m.contexts = top :: outer) (keeps : Bool) :
    ctx ∈ m.working ↔
      ctx ∈ (m.droppedContext keeps top outer).working ∨ keeps = false ∧ ctx = top := by
  rw [(working_dropped contexts keeps).mem_iff]
  cases keeps <;> simp [or_comm]

theorem working_resumed (contexts : m.suspendedContexts = top :: outer) :
    (m.resumedContext top outer).working.Perm m.working := by
  simp only [working, resumedContext, contexts, List.cons_append]
  exact List.perm_middle.symm.append_right _

theorem mem_working_resumed (contexts : m.suspendedContexts = top :: outer) :
    ctx ∈ (m.resumedContext top outer).working ↔ ctx ∈ m.working :=
  (working_resumed contexts).mem_iff

theorem current_working (now : m.current = .ok current) : current ∈ m.working := by
  unfold Machine.current at now
  rw [mem_working]
  cases contexts : m.contexts with
  | nil =>
    cases global : m.global with
    | none =>
      rw [contexts, global] at now
      cases now
    | some outermost =>
      rw [contexts, global] at now
      cases now
      exact .inr (.inr rfl)
  | cons top outer =>
    rw [contexts] at now
    cases now
    exact .inl List.mem_cons_self

theorem current_working_some (now : m.current.map some = .ok (some current)) :
    current ∈ m.working := by
  cases telling : m.current with
  | error error =>
    rw [telling] at now
    cases now
  | ok told =>
    rw [telling] at now
    cases now
    exact current_working telling

theorem endContexts_working {global : Context I H} (running : m.global = some global)
    (w : World I H) : w.endContexts m.working =
      (w.endContexts (m.contexts ++ m.suspendedContexts)).endContext global := by
  simp [working, running, World.endContexts]

end Machine

theorem Run.bound_working (run : Run I H) (ctx : Context I H) (command : Command) :
    (run.bound ctx command).machine.working = run.machine.working := by
  simp [Machine.working]

/-- What an embedder may rely on of the contexts it knows. -/
structure Handles (w : World I H) (known : List (Context I H)) : Prop where
  below : ∀ ctx ∈ known, ctx.id < w.nextNode
  houses : ∀ ctx ∈ known, w.Houses ctx
  unique : ∀ a ∈ known, ∀ b ∈ known, a.same b = true → a = b

namespace Handles

variable {w w' : World I H} {known : List (Context I H)}

theorem mono (handles : Handles w known) (nextLayer : w.layers.next ≤ w'.layers.next)
    (nextNode : w.nextNode ≤ w'.nextNode) (nextTable : w.tables.next ≤ w'.tables.next) :
    Handles w' known where
  below ctx member := Nat.lt_of_lt_of_le (handles.below ctx member) nextNode
  houses ctx member := (handles.houses ctx member).mono nextLayer nextTable
  unique := handles.unique

theorem join (handles : Handles w known) {ctx : Context I H} (opens : w.Opens ctx w')
    (nextLayer : w.layers.next ≤ w'.layers.next) (nextTable : w.tables.next ≤ w'.tables.next) :
    Handles w' (ctx :: known) where
  below := by
    intro other member
    rcases List.mem_cons.mp member with rfl | old
    · exact opens.below
    · have older := handles.below other old
      have := opens.id
      have := opens.below
      omega
  houses := by
    intro other member
    rcases List.mem_cons.mp member with rfl | old
    · exact opens.houses
    · exact (handles.houses other old).mono nextLayer nextTable
  unique := by
    have apart : ∀ other ∈ known, other.id ≠ ctx.id := by
      intro other member
      have older := handles.below other member
      rw [opens.id]
      omega
    intro a member b member' same
    have ids : a.id = b.id := by simpa [Context.same] using same
    rcases List.mem_cons.mp member with rfl | old <;>
      rcases List.mem_cons.mp member' with rfl | old'
    · rfl
    · exact absurd ids.symm (apart b old')
    · exact absurd ids (apart a old)
    · exact handles.unique a old b old' same

theorem again (handles : Handles w known) {ctx : Context I H} (member : ctx ∈ known) :
    Handles w (ctx :: known) := by
  have only : ∀ other ∈ ctx :: known, other ∈ known := by
    intro other among
    rcases List.mem_cons.mp among with rfl | old
    · exact member
    · exact old
  exact ⟨fun other among => handles.below other (only other among),
    fun other among => handles.houses other (only other among),
    fun a among b among' => handles.unique a (only a among) b (only b among')⟩

end Handles

/-! ### Calls -/

section

variable {run run' : Run I H} {call : Call I H}
  {outcome : Except ExecutionError (Option (Context I H))}

theorem bound_alike (run : Run I H) (ctx : Context I H) (command : Command) :
    run.world.Alike (run.bound ctx command).world := by
  unfold Run.bound
  split
  · exact ⟨rfl, rfl, rfl, rfl, rfl⟩
  · exact World.alike_define _ _ _ _ _

theorem unbound_alike {undone : Run I H} {ctx : Context I H} {command : Command}
    (undoes : run.unbound ctx command = .ok undone) : run.world.Alike undone.world := by
  unfold Run.unbound at undoes
  split at undoes
  · cases undoes
    exact ⟨rfl, rfl, rfl, rfl, rfl⟩
  · split at undoes
    · rename_i undefines
      cases undoes
      exact World.alike_undefine undefines
    · cases undoes

/-- No context comes onto the stacks without being told. -/
theorem Effect.working (effect : Effect run call outcome run') :
    ∀ ctx ∈ run'.machine.working, ctx ∈ run.machine.working ∨ outcome = .ok (some ctx) := by
  intro ctx member
  cases effect with
  | rejected | unused | thrown | handled => exact .inl member
  | ended => cases member
  | begun =>
    rcases Machine.mem_working.mp member with active | suspended | same
    · exact .inl (Machine.mem_working.mpr (.inl active))
    · exact .inl (Machine.mem_working.mpr (.inr (.inl suspended)))
    · cases same
      exact .inr rfl
  | enteredUnit =>
    rw [Run.bound_working, Machine.located_working] at member
    rcases List.mem_cons.mp member with rfl | there
    · exact .inr rfl
    · exact .inl there
  | viewed =>
    rcases List.mem_cons.mp member with rfl | there
    · exact .inr rfl
    · exact .inl there
  | entered =>
    rw [Run.bound_working, Machine.located_working] at member
    exact .inl member
  | resumed =>
    rw [Run.bound_working, Machine.marked_working, Machine.located_working] at member
    exact .inl member
  | resumedUnit _ _ contexts =>
    rw [Run.bound_working, Machine.marked_working, Machine.located_working] at member
    exact .inl ((Machine.mem_working_resumed contexts).mp member)
  | viewResumed _ _ contexts => exact .inl ((Machine.mem_working_resumed contexts).mp member)
  | left departs =>
    obtain ⟨prefixes, same⟩ := departs.machine
    rw [Machine.located_working, same] at member
    exact .inl member
  | tornContext departs =>
    obtain ⟨prefixes, same⟩ := departs.machine
    rw [same] at member
    exact .inl member
  | leftUnit departs _ contexts =>
    obtain ⟨prefixes, same⟩ := departs.machine
    rw [Machine.located_working, same] at member
    exact .inl ((Machine.mem_working_dropped contexts _).mpr (.inl member))
  | tornTrace departs _ contexts =>
    obtain ⟨prefixes, same⟩ := departs.machine
    rw [same] at member
    exact .inl ((Machine.mem_working_dropped contexts _).mpr (.inl member))
  | viewLeft _ _ _ contexts =>
    exact .inl ((Machine.mem_working_dropped contexts _).mpr (.inl member))

theorem opening_opens {global : Context I H} {world : World I H} (sound : run.world.Sound)
    (around : ∀ ctx ∈ call.context?, run.world.Houses ctx)
    (opens : call.opening run = some (global, world)) :
    run.world.Opens global world ∧ global.isPointer = false ∧ run.world.Calm world := by
  cases call with
  | start subject =>
    exact World.newContext_opens sound (fun _ none => by cases none) (Option.some.inj opens)
  | startWithin parent =>
    exact World.newContext_opens sound around (Option.some.inj opens)
  | _ => cases opens

theorem openChild_opens {w world : World I H} {current opened : Context I H} {subject : Value}
    (sound : w.Sound) (inside : w.Houses current)
    (opens : w.openChild current subject = (opened, world)) :
    w.Opens opened world ∧ opened.isPointer = false ∧ w.Calm world := by
  unfold World.openChild World.openChildIn at opens
  refine World.newContext_opens sound (fun parent same => ?_) opens
  cases same
  exact inside

theorem Departs.releasing {undone : Run I H} {command : Command} {ctx top : Context I H}
    {frame : Frame I H} {rest : List (Frame I H)} {outer : List (Context I H)}
    (departs : Departs run call command ctx false undone frame rest)
    (unit : command.isBoundary = true) (contexts : run.machine.contexts = top :: outer) :
    call.releasing run = [top] := by
  rcases Call.of_departure departs.departure with ⟨rfl, plain⟩ | ⟨rfl, -⟩
  · simp [Call.releasing, ← plain, unit, contexts]
  · simp [Call.releasing, unit, contexts]

theorem Departs.turn {undone : Run I H} {command : Command} {ctx top : Context I H} {keeps : Bool}
    {frame : Frame I H} {rest : List (Frame I H)} {outer : List (Context I H)}
    (departs : Departs run call command ctx keeps undone frame rest)
    (unit : command.isBoundary = true) (contexts : run.machine.contexts = top :: outer)
    (sound : run.world.Sound) (inside : run.world.Houses top) :
    World.Turn (run.world.Unheld (call.releasing run)) run.world
      (if keeps then undone.world else undone.world.endContext top) := by
  have undoing := unbound_alike departs.undoes
  cases keeps with
  | true => exact undoing.turn sound _
  | false =>
    rw [departs.releasing unit contexts]
    have ended :
        World.Turn (undone.world.Unheld [top]) undone.world (undone.world.endContext top) :=
      World.turn_endContexts (undoing.calm.sound sound) fun ctx member => by
        cases List.mem_singleton.mp member
        exact inside.mono undoing.calm.nextLayer undoing.calm.nextTable
    exact World.Turn.trans sound (undoing.turn sound _) ⟨ended.sound, ended.nextLayer,
      ended.nextNode, ended.nextTable, fun unheld => ended.tended (unheld.alike undoing)⟩

theorem Effect.turn (effect : Effect run call outcome run') {known : List (Context I H)}
    (sound : run.world.Sound) (handles : Handles run.world known)
    (stacked : ∀ ctx ∈ run.machine.working, ctx ∈ known)
    (named : ∀ ctx ∈ call.context?, ctx ∈ known) :
    World.Turn (run.world.Unheld (call.releasing run)) run.world run'.world := by
  have around : ∀ ctx ∈ call.context?, run.world.Houses ctx :=
    fun ctx member => handles.houses ctx (named ctx member)
  have inside : ∀ ctx ∈ run.machine.working, run.world.Houses ctx :=
    fun ctx member => handles.houses ctx (stacked ctx member)
  have logged (w : World I H) (log : List LogEntry) : w.Alike (w.logged log) :=
    ⟨rfl, rfl, rfl, rfl, rfl⟩
  have entered {w : World I H} (m : Machine I H) (log : List LogEntry) (ctx : Context I H)
      (command : Command) (calm : run.world.Calm w) :
      run.world.Calm (Run.bound ⟨m, w.logged log⟩ ctx command).world :=
    calm.trans ((logged w log).calm.trans (bound_alike ⟨m, w.logged log⟩ ctx command).calm)
  cases effect with
  | rejected => exact .refl _ sound
  | unused opens => exact (opening_opens sound around opens).2.2.turn sound _
  | begun opens =>
    obtain ⟨opened, -, calm⟩ := opening_opens sound around opens
    refine World.Calm.turn (calm.trans (World.Calm.trans ?_ (logged _ _).calm)) sound _
    exact World.calm_changeTable opened.houses.table (fun _ => rfl) (fun _ => rfl)
  | ended running =>
    rename_i global log
    have ended : World.Turn (run.world.Unheld run.machine.working) run.world
        (run.world.endContexts run.machine.working) := World.turn_endContexts sound inside
    rw [Machine.endContexts_working running] at ended
    exact ended.trans sound ((logged _ _).turn ended.sound _)
  | enteredUnit unit now shallow opens =>
    obtain ⟨-, -, calm⟩ := openChild_opens sound (inside _ (Machine.current_working now)) opens
    exact (entered _ _ _ _ calm).turn sound _
  | entered => exact (entered _ _ _ _ (.refl _)).turn sound _
  | left departs =>
    exact ((unbound_alike departs.undoes).calm.trans (logged _ _).calm).turn sound _
  | leftUnit departs unit contexts =>
    have turned := departs.turn unit contexts sound
      (inside _ (by simp [Machine.working, contexts]))
    exact turned.trans sound ((logged _ _).turn turned.sound _)
  | tornContext departs => exact (unbound_alike departs.undoes).turn sound _
  | tornTrace departs unit contexts =>
    exact departs.turn unit contexts sound (inside _ (by simp [Machine.working, contexts]))
  | resumed => exact (entered _ _ _ _ (.refl _)).turn sound _
  | resumedUnit => exact (entered _ _ _ _ (.refl _)).turn sound _
  | viewed here opens =>
    obtain ⟨current, now, -⟩ := here
    obtain ⟨-, -, calm⟩ := World.openView_ok (around _ rfl) opens
    exact calm.turn sound _
  | viewLeft unviews here pointer contexts =>
    rename_i ctx keeps top outer
    obtain ⟨current, now, same⟩ := here
    rw [Machine.current_of_top contexts] at now
    cases now
    have named : ctx ∈ known := named ctx (by
      rcases Call.of_unviewing unviews with ⟨rfl, -⟩ | ⟨rfl, -⟩ <;> rfl)
    have view := handles.unique _ (stacked _ (by simp [Machine.working, contexts])) _ named same
    split
    · exact .refl _ sound
    · rw [World.endContext_eq, if_pos (.inl (view ▸ pointer))]
      exact .refl _ sound
  | viewResumed _ _ contexts => exact .refl _ sound
  | thrown => exact (logged _ _).turn sound _
  | handled => exact (logged _ _).turn sound _

theorem Call.opening_origin {known : List (Context I H)} {global : Context I H}
    {world : World I H} (named : ∀ ctx ∈ call.context?, ctx ∈ known)
    (opens : call.opening run = some (global, world)) {inherits : Prop} :
    run.world.Origin inherits known global world := by
  cases call with
  | start subject => exact .of_openRoot (Option.some.inj opens)
  | startWithin parent => exact .of_openChildIn (named parent rfl) (Option.some.inj opens)
  | _ => cases opens

theorem Effect.origin (effect : Effect run call outcome run') {known : List (Context I H)}
    (stacked : ∀ ctx ∈ run.machine.working, ctx ∈ known)
    (named : ∀ ctx ∈ call.context?, ctx ∈ known) {told : Context I H}
    (tells : outcome = .ok (some told)) {inherits : Prop} :
    told ∈ run.machine.working ∨
      ∃ world, run.world.Origin inherits known told world ∧ world.Later run'.world := by
  have logged (w : World I H) (log : List LogEntry) : w.Later (w.logged log) :=
    .of_alike ⟨rfl, rfl, rfl, rfl, rfl⟩
  cases effect with
  | rejected | unused | thrown | handled => cases tells
  | begun opens =>
    cases tells
    exact .inr ⟨_, Call.opening_origin named opens, (World.Later.setWarns _ _ _).trans (logged _ _)⟩
  | ended =>
    unfold Machine.verdict at tells
    split at tells <;> cases tells
  | enteredUnit unit now shallow opens =>
    rename_i command ctx registration outer opened world log
    cases tells
    have same := bound_alike ⟨(run.machine.pushedUnit command registration told).located,
      world.logged log⟩ told command
    exact .inr ⟨world, .of_openChildIn (stacked _ (Machine.current_working now)) opens,
      (logged world log).trans (.of_alike same)⟩
  | entered plain now =>
    cases tells
    exact .inl (Machine.current_working now)
  | left departs =>
    obtain ⟨prefixes, same⟩ := departs.machine
    have member := Machine.current_working_some tells
    rw [Machine.located_working, same] at member
    exact .inl member
  | leftUnit departs unit contexts =>
    obtain ⟨prefixes, same⟩ := departs.machine
    have member := Machine.current_working_some tells
    rw [Machine.located_working, same] at member
    exact .inl ((Machine.mem_working_dropped contexts _).mpr (.inl member))
  | tornContext | tornTrace => cases tells
  | resumed resumes plain now =>
    cases tells
    exact .inl (Machine.current_working now)
  | resumedUnit resumes unit contexts =>
    cases tells
    exact .inl (by simp [Machine.working, contexts])
  | viewed here opens =>
    cases tells
    exact .inr ⟨_, .viewed (named _ rfl) opens, .refl _⟩
  | viewLeft unviews here pointer contexts =>
    have member := Machine.current_working_some tells
    exact .inl ((Machine.mem_working_dropped contexts _).mpr (.inl member))
  | viewResumed _ _ contexts =>
    cases tells
    exact .inl (by simp [Machine.working, contexts])

theorem Effect.apart (effect : Effect run call outcome run') {known : List (Context I H)}
    (sound : run.world.Sound) (handles : Handles run.world known)
    (stacked : ∀ ctx ∈ run.machine.working, ctx ∈ known)
    (named : ∀ ctx ∈ call.context?, ctx ∈ known) (apart : run.machine.working.Nodup) :
    run'.machine.working.Nodup := by
  have around : ∀ ctx ∈ call.context?, run.world.Houses ctx :=
    fun ctx member => handles.houses ctx (named ctx member)
  have new {ctx : Context I H} {world : World I H} (opens : run.world.Opens ctx world) :
      ctx ∉ run.machine.working := by
    intro member
    have older := handles.below ctx (stacked ctx member)
    rw [opens.id] at older
    exact Nat.lt_irrefl _ older
  have dropped {top : Context I H} {outer : List (Context I H)}
      (contexts : run.machine.contexts = top :: outer) (keeps : Bool) :
      (run.machine.droppedContext keeps top outer).working.Nodup :=
    ((Machine.working_dropped contexts keeps).nodup apart).sublist (List.sublist_append_right _ _)
  cases effect with
  | rejected | unused | thrown | handled => exact apart
  | ended => exact List.nodup_nil
  | begun opens idle =>
    rename_i global world log
    rw [Machine.isRunning, Option.isSome_eq_false_iff, Option.isNone_iff_eq_none] at idle
    have started : (run.machine.begun global).working.Perm (global :: run.machine.working) := by
      simp only [Machine.working, Machine.begun, idle, Option.toList_some, Option.toList_none,
        List.append_nil]
      exact List.perm_append_singleton _ _
    exact started.symm.nodup
      (List.nodup_cons.mpr ⟨new (opening_opens sound around opens).1, apart⟩)
  | enteredUnit unit now shallow opens =>
    rw [Run.bound_working, Machine.located_working]
    have inside := handles.houses _ (stacked _ (Machine.current_working now))
    exact List.nodup_cons.mpr ⟨new (openChild_opens sound inside opens).1, apart⟩
  | viewed here opens =>
    exact List.nodup_cons.mpr ⟨new (World.openView_ok (around _ rfl) opens).1, apart⟩
  | entered =>
    rw [Run.bound_working, Machine.located_working]
    exact apart
  | resumed =>
    rw [Run.bound_working, Machine.marked_working, Machine.located_working]
    exact apart
  | resumedUnit _ _ contexts =>
    rw [Run.bound_working, Machine.marked_working, Machine.located_working]
    exact (Machine.working_resumed contexts).symm.nodup apart
  | viewResumed _ _ contexts => exact (Machine.working_resumed contexts).symm.nodup apart
  | left departs =>
    obtain ⟨prefixes, same⟩ := departs.machine
    rw [Machine.located_working, same]
    exact apart
  | tornContext departs =>
    obtain ⟨prefixes, same⟩ := departs.machine
    rw [same]
    exact apart
  | leftUnit departs _ contexts =>
    obtain ⟨prefixes, same⟩ := departs.machine
    rw [Machine.located_working, same]
    exact dropped contexts _
  | tornTrace departs _ contexts =>
    obtain ⟨prefixes, same⟩ := departs.machine
    rw [same]
    exact dropped contexts _
  | viewLeft _ _ _ contexts => exact dropped contexts _

end

/-! ### Requests -/

section

variable {w : World I H} {known : List (Context I H)}

theorem World.calm_hold (w : World I H) (ref : ComponentRef) (exclusively : Bool) :
    w.Calm ((w.hold? ref exclusively).getD w) := by
  unfold World.hold?
  split
  · split
    · exact World.calm_setCell w _ _ w.host
    · exact World.calm_setCell w _ _ w.host
    · exact World.calm_setCell w _ _ w.host
    · exact .refl w
  · exact .refl w

theorem World.calm_letGo (w : World I H) (ref : ComponentRef) : w.Calm (w.letGo ref) := by
  unfold World.letGo
  split
  · exact World.calm_setCell w _ _ w.host
  · exact .refl w

theorem Keeps.turn {ε α : Type} {x : WorldM I H ε α}
    (keeps : Keeps (World.Growth w.tables.next []) x) (sound : w.Sound) (careful : Prop) :
    World.Turn careful w (outcomeOf (x w)).2 := by
  obtain ⟨sound', grows⟩ := keeps w sound (Nat.le_refl _)
  exact ⟨sound', grows.nextLayer, grows.nextNode, grows.nextTable, fun _ => grows.tended⟩

theorem World.turn_release {ctx : Context I H} (sound : w.Sound) (houses : w.Houses ctx) :
    World.Turn (w.Unheld [ctx]) w (w.releaseComponents ctx) where
  sound := sound.releaseTable houses.table
  nextLayer :=
    Nat.le_of_eq (congrArg Store.next (World.runs_releaseTable w ctx.node.table).layers.symm)
  nextNode := Nat.le_of_eq (World.runs_releaseTable w ctx.node.table).nextNode.symm
  nextTable := by
    have same := congrArg Store.next (World.runs_releaseTable w ctx.node.table).tables
    exact Nat.le_of_eq same.symm
  tended unheld := World.tended_releaseTable sound (unheld.free sound (List.mem_singleton_self ctx))

theorem Request.turn (request : Request I H) (sound : w.Sound)
    (around : ∀ ctx ∈ request.context?, w.Houses ctx) (m : Machine I H) :
    World.Turn (w.Unheld ((Interaction.asks request).releasing ⟨m, w⟩)) w
      (request.perform w).2 := by
  have rules := World.growth_rules (I := I) (H := H) w.tables.next
  cases request with
  | openRoot registry subject =>
    exact (World.calm_newContext w .request registry subject none true sound).turn sound _
  | openContext scope registry subject parent? =>
    exact (World.calm_newContext w scope registry subject parent? true sound).turn sound _
  | openChild ctx scope subject =>
    exact (World.calm_newContext w scope ctx.registry subject (some ctx) (w.tableOf ctx).warns
      sound).turn sound _
  | openView ctx subject =>
    cases opens : w.openView ctx subject with
    | mk outcome world =>
      simp only [perform, opens, Prod.map]
      cases outcome with
      | ok view => exact (World.openView_ok (around ctx rfl) opens).2.2.turn sound _
      | error =>
        unfold World.openView at opens
        split at opens <;> cases opens
        exact .refl _ sound
  | setWarns ctx warns =>
    have calm : w.Calm (w.setWarns ctx warns) :=
      World.calm_changeTable (around ctx rfl).table (fun _ => rfl) (fun _ => rfl)
    exact calm.turn sound _
  | bind ctx name uri =>
    have same : w.Alike (w.registerNamespace ctx name uri) := ⟨rfl, rfl, rfl, rfl, rfl⟩
    exact same.turn sound _
  | get ctx name scope =>
    exact (Context.get_keeps rules.toRules ctx (around ctx rfl).tables name scope).turn sound _
  | component ctx name =>
    exact (Context.component?_keeps rules.toRules ctx name (around ctx rfl).tables
      fun _ _ => trivial).turn sound _
  | evaluate ctx selector =>
    exact (Context.evaluate_keeps rules.toRules ctx (around ctx rfl).tables selector).turn sound _
  | declare ctx name value scope =>
    exact (Context.declare_keeps rules ctx (around ctx rfl).tables name value scope).turn sound _
  | undeclare ctx name scope =>
    exact (Context.undeclare_keeps rules ctx (around ctx rfl).tables name scope).turn sound _
  | release ctx => exact World.turn_release sound (around ctx rfl)
  | hold ref exclusively => exact (World.calm_hold w ref exclusively).turn sound _
  | letGo ref => exact (World.calm_letGo w ref).turn sound _

theorem Request.origin {request : Request I H} {known : List (Context I H)}
    (named : ∀ ctx ∈ request.context?, ctx ∈ known) {told : Context I H}
    (tells : (request.perform w).1 = some told) :
    w.Origin request.Inherits known told (request.perform w).2 := by
  cases request with
  | openRoot registry subject =>
    cases tells
    exact .of_openRoot rfl
  | openContext scope registry subject parent? =>
    cases tells
    exact .opened named id rfl
  | openChild ctx scope subject =>
    cases tells
    exact .of_openChildIn (named ctx rfl) rfl
  | openView ctx subject =>
    cases opens : w.openView ctx subject with
    | mk outcome world =>
      simp only [perform, opens, Prod.map] at tells ⊢
      cases outcome with
      | ok view =>
        cases tells
        exact .viewed (named ctx rfl) opens
      | error => cases tells
  | _ => cases tells

end

/-! ### Sessions -/

namespace Session

/-- What holds of every session whose embedder sticks to the contexts that it was told. -/
structure Housed (s : Session I H) : Prop where
  sound : s.run.world.Sound
  handles : Handles s.run.world s.known
  stacked : ∀ ctx ∈ s.run.machine.working, ctx ∈ s.known
  apart : s.run.machine.working.Nodup

theorem Housed.working {s : Session I H} (housed : s.Housed) :
    ∀ ctx ∈ s.run.machine.working, s.run.world.Houses ctx :=
  fun ctx member => housed.handles.houses ctx (housed.stacked ctx member)

theorem Housed.fresh (registry : Registry I H) (settings : EngineSettings) (host : H) :
    (Session.fresh registry settings host).Housed where
  sound := World.Sound.start host
  handles := ⟨nofun, nofun, nofun⟩
  stacked := nofun
  apart := List.nodup_nil

variable {s : Session I H} {interaction : Interaction I H}

theorem Housed.turn (housed : s.Housed) (knows : s.Knows interaction) :
    World.Turn (s.run.world.Unheld (interaction.releasing s.run)) s.run.world
      (s.after interaction).run.world := by
  cases interaction with
  | calls call =>
    exact (Machine.perform_effect s.run call).turn housed.sound housed.handles housed.stacked knows
  | asks request =>
    exact request.turn housed.sound (fun ctx member => housed.handles.houses ctx (knows ctx member))
      s.run.machine

theorem Housed.origin (housed : s.Housed) (knows : s.Knows interaction) :
    ∃ told : Option (Context I H), (s.after interaction).known = told.toList ++ s.known ∧
      ∀ ctx, told = some ctx → ctx ∈ s.known ∨ ∃ world,
        s.run.world.Origin interaction.Inherits s.known ctx world ∧
          world.Later (s.after interaction).run.world := by
  cases interaction with
  | calls call =>
    refine ⟨(call.perform s.run).1.toOption.join, rfl, fun ctx told => ?_⟩
    have tells : (call.perform s.run).1 = .ok (some ctx) := by
      cases outcome : (call.perform s.run).1 with
      | error error =>
        rw [outcome] at told
        cases told
      | ok told' =>
        rw [outcome] at told
        exact congrArg Except.ok told
    have effect := Machine.perform_effect s.run call
    exact (effect.origin housed.stacked knows tells).imp_left (housed.stacked ctx)
  | asks request =>
    exact ⟨(request.perform s.run.world).1, rfl, fun ctx told =>
      .inr ⟨_, Request.origin knows told, .refl _⟩⟩

theorem Housed.tells (housed : s.Housed) (knows : s.Knows interaction) :
    ∃ told : Option (Context I H), (s.after interaction).known = told.toList ++ s.known ∧
      ∀ ctx, told = some ctx →
        ctx ∈ s.known ∨ s.run.world.Opens ctx (s.after interaction).run.world := by
  obtain ⟨told, known, origin⟩ := housed.origin knows
  refine ⟨told, known, fun ctx same => (origin ctx same).imp_right ?_⟩
  rintro ⟨world, origin, later⟩
  exact later.opens (origin.opens housed.handles.houses)

theorem Housed.after (housed : s.Housed) (knows : s.Knows interaction) :
    (s.after interaction).Housed := by
  have turn := housed.turn knows
  have older := housed.handles.mono turn.nextLayer turn.nextNode turn.nextTable
  obtain ⟨told, known, tells⟩ := housed.tells knows
  constructor
  case sound => exact turn.sound
  case handles =>
    rw [known]
    cases told with
    | none => exact older
    | some ctx =>
      rcases tells ctx rfl with there | opens
      · exact older.again there
      · exact housed.handles.join opens turn.nextLayer turn.nextTable
  case stacked =>
    intro ctx member
    cases interaction with
    | calls call =>
      rcases (Machine.perform_effect s.run call).working ctx member with there | same
      · exact List.mem_append_right _ (housed.stacked ctx there)
      · exact told_known same
    | asks request => exact List.mem_append_right _ (housed.stacked ctx member)
  case apart =>
    cases interaction with
    | calls call =>
      exact (Machine.perform_effect s.run call).apart housed.sound housed.handles housed.stacked
        knows housed.apart
    | asks request => exact housed.apart

/-- Embedders that stick to the contexts they were told never lose them. -/
theorem Reached.housed {allowed : Session I H → Interaction I H → Prop}
    (knows : ∀ s interaction, allowed s interaction → s.Knows interaction)
    (reached : Reached allowed s) : s.Housed :=
  reached.induct Housed.fresh fun s interaction _ housed allows =>
    housed.after (knows s interaction allows)

theorem Reached.known_housed (reached : Reached Knows s) : s.Housed :=
  reached.housed fun _ _ knows => knows

end Session
end CommandChain
