import CommandChain.Proofs.Machine.Framing
import CommandChain.Proofs.Machine.Restoration
import CommandChain.Proofs.World.Sparing

/-!
How long the contexts live that registered commands are entered with. A departure releases whatever
context is on top, be it the command's own, another command's or a view, which is never released. So
contexts live as long as their frames exactly as long as every frame that goes for good goes with
its own context on top.
-/
namespace CommandChain

variable {I H : Type}

def Machine.owns (m : Machine I H) : List (Context I H) :=
  owned m.outlines ++ owned m.suspendedOutlines

/-- Whether no frame owns a context that is released. -/
def Run.Lives (run : Run I H) : Prop :=
  ∀ own ∈ run.machine.owns, run.world.isReleased own = false

namespace Event

/-- The context of the registered command whose frame an event took away for good. -/
def removed? (event : Event I H) : Option (Context I H) :=
  match event.call.departure, event.outcome, event.before.machine.frames with
  | some (_, _, false), .ok _, frame :: _ => frame.opened
  | _, _, _ => none

/-- Whether an event leaves every context that a frame owns, and releases that of a frame that it
takes away. -/
def Lives (event : Event I H) : Prop :=
  event.after.Lives ∧ ∀ own, event.removed? = some own → event.after.world.isReleased own = true

/-- Whether a frame that an event takes away goes with its own context on top. -/
def TakesOwn (event : Event I H) : Prop :=
  ∀ own, event.removed? = some own → event.before.machine.contexts.head? = some own

/-- What an event does with the contexts that frames own. -/
inductive Custody (event : Event I H) : Prop where
  | kept (gone : List (Context I H)) (removes : event.removed? = none)
    (owns : event.before.machine.owns.Perm (gone ++ event.after.machine.owns))
    (released : ∀ table < event.before.world.tables.next,
      (event.after.world.table table).released = (event.before.world.table table).released)
  | ended (removes : event.removed? = none) (owns : event.after.machine.owns = [])
  | entered (own : Context I H) (removes : event.removed? = none)
    (owns : event.after.machine.owns = own :: event.before.machine.owns)
    (told : event.outcome = .ok (some own)) (owner : own.isPointer = false)
    (opens : event.before.world.Opens own event.after.world)
    (live : event.after.world.isReleased own = false)
    (released : ∀ table < event.before.world.tables.next,
      (event.after.world.table table).released = (event.before.world.table table).released)
  | removed (own top : Context I H) (outer : List (Context I H))
    (removes : event.removed? = some own)
    (contexts : event.before.machine.contexts = top :: outer)
    (owns : event.before.machine.owns.Perm (own :: event.after.machine.owns))
    (released : ∀ table, (event.after.world.table table).released =
      if top.isPointer = false ∧ top.node.table = table then true
      else (event.before.world.table table).released)

end Event

theorem World.released_endContext_table (w : World I H) (ctx : Context I H) (table : Nat) :
    ((w.endContext ctx).table table).released =
      if ctx.isPointer = false ∧ ctx.node.table = table then true
      else (w.table table).released := by
  split
  · rename_i own
    obtain ⟨owner, rfl⟩ := own
    exact released_endContext owner
  · rename_i other
    by_cases same : ctx.node.table = table
    · have pointer : ctx.isPointer = true := by simpa [same] using other
      rw [endContext_eq, if_pos (.inl pointer)]
    · rw [table_endContext_of_ne same]

/-! ### What the frames own -/

section

variable {run run' : Run I H} {call : Call I H}
  {outcome : Except ExecutionError (Option (Context I H))}

@[simp] theorem Machine.located_owns (m : Machine I H) : m.located.owns = m.owns := by
  simp [owns, suspendedOutlines]

theorem Machine.marked_owns (m : Machine I H) (ctx : Context I H) :
    (m.marked ctx).owns = m.owns := by
  simp [owns, outlines, suspendedOutlines, marked_outlines]

@[simp] theorem Run.bound_owns (run : Run I H) (ctx : Context I H) (command : Command) :
    (run.bound ctx command).machine.owns = run.machine.owns := by
  simp [Machine.owns, Machine.outlines, Machine.suspendedOutlines]

theorem Departs.owns {undone : Run I H} {command : Command} {ctx : Context I H} {keeps : Bool}
    {frame : Frame I H} {rest : List (Frame I H)}
    (departs : Departs run call command ctx keeps undone frame rest) :
    run.machine.owns.Perm ((if keeps then [] else frame.opened.toList) ++
      (undone.machine.droppedFrame keeps frame rest).owns) := by
  obtain ⟨prefixes, same⟩ := departs.machine
  rw [Machine.owns, departs.framed_outlines, owned_cons, List.append_assoc]
  cases keeps with
  | false => simp [Machine.owns, Machine.outlines, Machine.suspendedOutlines, same, Frame.outline]
  | true =>
    simp only [Machine.owns, Machine.outlines, Machine.suspendedOutlines, Machine.droppedFrame,
      same, if_true, List.nil_append, List.map_cons, owned_cons]
    exact List.perm_append_comm_assoc _ _ _

theorem Resumes.owns {command : Command} {ctx : Context I H} {frame : Frame I H}
    {rest : List (Frame I H)} (resumes : Resumes run command ctx frame rest) :
    run.machine.owns.Perm (run.machine.resumedFrame frame rest).owns := by
  simp only [Machine.owns, Machine.outlines, Machine.suspendedOutlines, Machine.resumedFrame,
    resumes.frames, List.map_cons, owned_cons, List.append_assoc]
  exact List.perm_append_comm_assoc _ _ _

/-! What an event takes away. -/

theorem Event.removed_of_error (error : ExecutionError) :
    (Event.mk run call (.error error) run').removed? = none := by
  unfold Event.removed?
  split
  · rename_i failed _
    cases failed
  · rfl

theorem Event.removed_of_stays (stays : call.departure = none) :
    (Event.mk run call outcome run').removed? = none := by
  unfold Event.removed?
  rw [stays]

theorem Departs.removes {undone : Run I H} {command : Command} {ctx : Context I H} {keeps : Bool}
    {frame : Frame I H} {rest : List (Frame I H)}
    (departs : Departs run call command ctx keeps undone frame rest)
    (told : Option (Context I H)) (run' : Run I H) :
    (Event.mk run call (.ok told) run').removed? = if keeps then none else frame.opened := by
  simp only [Event.removed?, departs.departure, departs.frames]
  cases keeps <;> rfl

theorem Event.Custody.of_same {event : Event I H} (removes : event.removed? = none)
    (owns : event.after.machine.owns = event.before.machine.owns)
    (tables : event.after.world.tables = event.before.world.tables) : event.Custody := by
  refine .kept [] removes ?_ fun table _ => ?_
  · rw [owns]
    exact .refl _
  · rw [World.table, tables, World.table]

theorem Event.Custody.of_departure {event : Event I H} {undone : Run I H} {command : Command}
    {ctx : Context I H} {keeps : Bool} {frame : Frame I H} {rest : List (Frame I H)}
    (departs : Departs event.before event.call command ctx keeps undone frame rest)
    (removes : event.removed? = none)
    (owns : event.after.machine.owns = (undone.machine.droppedFrame keeps frame rest).owns)
    (tables : event.after.world.tables = undone.world.tables) : event.Custody := by
  refine .kept _ removes (owns ▸ departs.owns) fun table _ => ?_
  rw [World.table, tables, (unbound_alike departs.undoes).tables, World.table]

theorem Effect.custody {handles : Nat → Command} (effect : Effect run call outcome run')
    (framed : run.machine.Framed handles) (quiet : run.machine.Quiet)
    (genuine : ∀ command ∈ call.command?, handles command.id = command)
    (stacked : ∀ ctx ∈ call.context?, ∀ top, run.machine.current = .ok top →
      top.same ctx = true → top = ctx)
    (sound : run.world.Sound) (inside : ∀ ctx ∈ run.machine.working, run.world.Houses ctx) :
    (Event.mk run call outcome run').Custody := by
  cases effect with
  | rejected => exact .of_same (Event.removed_of_error _) rfl rfl
  | unused opens =>
    exact .kept [] (Event.removed_of_error _) (.refl _) (Call.opening_spares opens).released
  | begun opens =>
    rename_i global world log idle
    have stays : call.departure = none := by
      rcases Call.of_opening opens with ⟨subject, rfl⟩ | ⟨parent, rfl⟩ <;> rfl
    refine .kept [] (Event.removed_of_stays stays) (.refl _) fun table below => ?_
    have warned : world.Untouched (world.setWarns global run.machine.settings.warnUnreleased) :=
      .changeTable world global fun _ => rfl
    exact (warned.released table).trans ((Call.opening_spares opens).released table below)
  | ended => exact .ended (Event.removed_of_stays rfl) rfl
  | enteredUnit unit now shallow opens =>
    rename_i command ctx registration current own world log
    have here := inside current (Machine.current_working now)
    obtain ⟨opened, owner, -⟩ := openChild_opens sound here opens
    have alike := bound_alike ⟨(run.machine.pushedUnit command registration own).located,
      world.logged log⟩ own command
    have tables : ∀ table, (Run.bound ⟨(run.machine.pushedUnit command registration own).located,
        world.logged log⟩ own command).world.table table = world.table table := by
      intro table
      rw [World.table, alike.tables]
      rfl
    refine .entered own (Event.removed_of_stays rfl) ?_ rfl owner ?_ ?_ fun table below => ?_
    · rw [Run.bound_owns, Machine.located_owns]
      rfl
    · exact opened.later alike.calm.nextLayer alike.calm.nextNode alike.calm.nextTable
    · rw [World.isReleased, World.tableOf, tables]
      exact World.openChild_live opens
    · rw [tables]
      exact (World.Spares.openChild opens).released table below
  | entered plain =>
    rename_i command ctx current log now shallow same
    exact .of_same (Event.removed_of_stays rfl) (by simp; rfl) (bound_alike _ _ _).tables
  | left departs plain =>
    have opened := departs.opened framed genuine
    rw [plain, Option.isSome_eq_false_iff, Option.isNone_iff_eq_none] at opened
    refine .of_departure departs ?_ (Machine.located_owns _) rfl
    generalize Except.map some _ = outcome
    cases outcome with
    | error error => exact Event.removed_of_error error
    | ok told => rw [departs.removes, opened, ite_self]
  | leftUnit departs unit contexts trace =>
    rename_i command ctx keeps undone frame rest top outer entry entries log
    obtain ⟨own, owns⟩ :=
      Option.isSome_iff_exists.mp ((departs.opened framed genuine).trans unit)
    obtain ⟨told, tells⟩ := departs.tells quiet top outer entry entries
    rw [tells]
    have same : ((((undone.machine.droppedFrame keeps frame rest).droppedContext keeps top
        outer).droppedTrace keeps entry entries).located).owns =
      (undone.machine.droppedFrame keeps frame rest).owns := Machine.located_owns _
    cases keeps with
    | true => exact .of_departure departs (departs.removes told _) same rfl
    | false =>
      refine .removed own top outer ((departs.removes told _).trans owns) contexts ?_ ?_
      · rw [same]
        simpa [owns] using departs.owns
      · intro table
        have alike := unbound_alike departs.undoes
        refine (World.released_endContext_table undone.world top table).trans ?_
        rw [World.table, alike.tables, World.table]
  | tornContext departs =>
    exact .of_departure departs (Event.removed_of_error _) rfl rfl
  | tornTrace departs unit contexts trace => exact absurd trace (departs.traced framed genuine unit)
  | resumed resumes plain now =>
    refine .kept [] (Event.removed_of_stays rfl) ?_ fun table _ => ?_
    · rw [Run.bound_owns, Machine.marked_owns, Machine.located_owns]
      exact resumes.owns
    · rw [World.table, (bound_alike _ _ _).tables]
      rfl
  | resumedUnit resumes =>
    refine .kept [] (Event.removed_of_stays rfl) ?_ fun table _ => ?_
    · rw [Run.bound_owns, Machine.marked_owns, Machine.located_owns]
      exact resumes.owns
    · rw [World.table, (bound_alike _ _ _).tables]
      rfl
  | viewed here opens =>
    rename_i ctx subject view world
    have spares := World.Spares.openView run.world ctx subject
    rw [opens] at spares
    exact .kept [] (Event.removed_of_stays rfl) (.refl _) spares.released
  | viewLeft unviews here pointer contexts =>
    have stays : call.departure = none := by
      rcases Call.of_unviewing unviews with ⟨rfl, -⟩ | ⟨rfl, -⟩ <;> rfl
    refine .of_same (Event.removed_of_stays stays) rfl ?_
    cases Call.unviewing_top unviews here contexts stacked
    split
    · rfl
    · rw [World.endContext_eq, if_pos (.inl pointer)]
  | viewResumed => exact .of_same (Event.removed_of_stays rfl) rfl rfl
  | thrown frames =>
    refine .of_same (Event.removed_of_stays rfl) ?_ rfl
    rw [Machine.owns, Machine.thrown_outlines frames]
    rfl
  | handled => exact .of_same (Event.removed_of_stays rfl) rfl rfl

end

/-! ### What an event releases -/

/-- Whether contexts that are no views have tables of their own. -/
def Apart (known : List (Context I H)) : Prop :=
  ∀ a ∈ known, ∀ b ∈ known, a.isPointer = false → b.isPointer = false →
    a.node.table = b.node.table → a = b

theorem Apart.join {known : List (Context I H)} (apart : Apart known) {w w' : World I H}
    (handles : Handles w known) {ctx : Context I H} (opens : w.Opens ctx w') :
    Apart (ctx :: known) := by
  have new : ∀ other ∈ known, ctx.isPointer = false → ctx.node.table ≠ other.node.table := by
    intro other member owner same
    have older := (handles.houses other member).table
    have newer := opens.apart owner
    omega
  intro a member b member' owner owner' same
  rcases List.mem_cons.mp member with rfl | old <;>
    rcases List.mem_cons.mp member' with rfl | old'
  · rfl
  · exact absurd same (new b old' owner)
  · exact absurd same.symm (new a old owner')
  · exact apart a old b old' owner owner' same

/-- That frames own contexts which the embedder was told, no two of them the same. -/
structure Run.Owning (run : Run I H) (known : List (Context I H)) : Prop where
  mine : ∀ own ∈ run.machine.owns, own ∈ known ∧ own.isPointer = false
  once : run.machine.owns.Nodup
  apart : Apart known

section

variable {event : Event I H} {known : List (Context I H)}

theorem Event.Custody.once (custody : event.Custody) (owning : event.before.Owning known)
    (handles : Handles event.before.world known) : event.after.machine.owns.Nodup := by
  cases custody with
  | kept gone _ owns =>
    exact (owns.nodup owning.once).sublist (List.sublist_append_right _ _)
  | ended _ owns =>
    rw [owns]
    exact List.nodup_nil
  | entered own _ owns _ _ opens =>
    rw [owns]
    refine List.nodup_cons.mpr ⟨fun member => ?_, owning.once⟩
    have older := handles.below own (owning.mine own member).1
    rw [opens.id] at older
    exact Nat.lt_irrefl _ older
  | removed own top outer _ _ owns =>
    exact (owns.nodup owning.once).sublist (List.sublist_cons_self _ _)

theorem Event.Custody.mine (custody : event.Custody) :
    ∀ own ∈ event.after.machine.owns,
      own ∈ event.before.machine.owns ∨ event.outcome = .ok (some own) ∧ own.isPointer = false := by
  intro own member
  cases custody with
  | kept gone _ owns => exact .inl (owns.mem_iff.mpr (List.mem_append_right _ member))
  | ended _ owns =>
    rw [owns] at member
    cases member
  | entered other _ owns told owner =>
    rw [owns] at member
    rcases List.mem_cons.mp member with rfl | older
    · exact .inr ⟨told, owner⟩
    · exact .inl older
  | removed _ _ _ _ _ owns => exact .inl (owns.mem_iff.mpr (List.mem_cons_of_mem _ member))

/-- Where all contexts that frames own lived, they do so after an event, and the one whose frame it
takes is released, just when it takes that very one. -/
theorem Event.Custody.lives_iff (custody : event.Custody) (lives : event.before.Lives)
    (owning : event.before.Owning known) (handles : Handles event.before.world known)
    (stacked : ∀ ctx ∈ event.before.machine.working, ctx ∈ known) :
    event.Lives ↔ event.TakesOwn := by
  have spared (removes : event.removed? = none) (after : event.after.Lives) :
      event.Lives ↔ event.TakesOwn := by
    simp [Event.Lives, Event.TakesOwn, removes, after]
  have still (own : Context I H) (member : own ∈ event.before.machine.owns)
      (released : ∀ table < event.before.world.tables.next,
        (event.after.world.table table).released = (event.before.world.table table).released) :
      event.after.world.isReleased own = false := by
    have inside := (handles.houses own (owning.mine own member).1).table
    exact (released own.node.table inside).trans (lives own member)
  cases custody with
  | kept gone removes owns released =>
    refine spared removes fun own member => still own ?_ released
    exact owns.mem_iff.mpr (List.mem_append_right _ member)
  | ended removes owns =>
    refine spared removes fun own member => ?_
    rw [owns] at member
    cases member
  | entered new removes owns _ _ _ live released =>
    refine spared removes fun own member => ?_
    rw [owns] at member
    rcases List.mem_cons.mp member with rfl | older
    · exact live
    · exact still own older released
  | removed own top outer removes contexts owns released =>
    have before : own ∈ event.before.machine.owns := owns.mem_iff.mpr List.mem_cons_self
    obtain ⟨told, owner⟩ := owning.mine own before
    have top_told : top ∈ known := stacked top (by simp [Machine.working, contexts])
    -- Only the context on top is released, and other contexts have other tables.
    have others (other : Context I H) (member : other ∈ event.before.machine.owns)
        (differs : other ≠ top) : event.after.world.isReleased other = false := by
      obtain ⟨other_told, other_owner⟩ := owning.mine other member
      rw [World.isReleased, World.tableOf, released, if_neg]
      · exact lives other member
      · rintro ⟨top_owner, same⟩
        exact differs (owning.apart other other_told top top_told other_owner top_owner same.symm)
    constructor
    · rintro ⟨-, ends⟩ mine removed
      cases removes.symm.trans removed
      rw [contexts]
      by_cases same : own = top
      · rw [same]
        rfl
      · have ended := ends own removes
        rw [others own before same] at ended
        cases ended
    · intro takes
      have same : top = own := by
        have head := takes own removes
        rw [contexts] at head
        exact Option.some.inj head
      cases same
      constructor
      · intro other member
        have apart := List.nodup_cons.mp (owns.nodup owning.once)
        refine others other (owns.mem_iff.mpr (List.mem_cons_of_mem _ member)) ?_
        rintro rfl
        exact apart.1 member
      · intro mine removed
        cases removes.symm.trans removed
        rw [World.isReleased, World.tableOf, released, if_pos ⟨owner, rfl⟩]

end

namespace Session

variable {handles : Nat → Command} {s : Session I H}

theorem Housed.apart_after (housed : s.Housed) {interaction : Interaction I H}
    (knows : s.Knows interaction) (apart : Apart s.known) :
    Apart (s.after interaction).known := by
  obtain ⟨told, known, tells⟩ := housed.tells knows
  rw [known]
  cases told with
  | none => exact apart
  | some ctx =>
    rcases tells ctx rfl with there | opens
    · intro a member b member'
      have only : ∀ other ∈ ctx :: s.known, other ∈ s.known :=
        fun other among => (List.mem_cons.mp among).elim (· ▸ there) id
      exact apart a (only a member) b (only b member')
    · exact apart.join housed.handles opens

theorem Reached.known_apart (reached : Reached Knows s) : Apart s.known := by
  refine reached.induct (motive := fun s => Apart s.known) ?_ ?_
  · exact fun _ _ _ => nofun
  · intro s interaction reached apart knows
    exact reached.known_housed.apart_after knows apart

theorem Reached.custody (reached : Reached (Genuine handles) s) {call : Call I H}
    (genuine : s.Genuine handles (.calls call)) :
    (Event.mk s.run call (call.perform s.run).1 (call.perform s.run).2).Custody := by
  have housed := reached.genuine_housed
  exact (Machine.perform_effect s.run call).custody reached.framed reached.quiet genuine.2
    (housed.stacked_same genuine.1) housed.sound housed.working

theorem Reached.owning (reached : Reached (Genuine handles) s) : s.run.Owning s.known := by
  refine reached.induct (motive := fun s => s.run.Owning s.known) ?_ ?_
  · exact fun _ _ _ => ⟨nofun, List.nodup_nil, nofun⟩
  · intro s interaction reached owning genuine
    have housed := reached.genuine_housed
    have apart := housed.apart_after genuine.1 owning.apart
    cases interaction with
    | asks request =>
      refine ⟨fun own member => ?_, owning.once, apart⟩
      obtain ⟨old, owner⟩ := owning.mine own member
      exact ⟨List.mem_append_right _ old, owner⟩
    | calls call =>
      have custody := reached.custody genuine
      refine ⟨fun own member => ?_, custody.once owning housed.handles, apart⟩
      rcases custody.mine own member with older | ⟨tells, owner⟩
      · obtain ⟨old, owner⟩ := owning.mine own older
        exact ⟨List.mem_append_right _ old, owner⟩
      · exact ⟨told_known tells, owner⟩

/-- The contexts of registered commands live exactly as long as their frames just when every frame
that goes for good goes with its own context on top. -/
theorem contexts_live_iff (reached : Reached (Genuine handles) s) :
    ((∀ event ∈ s.history, event.Lives) ↔ ∀ event ∈ s.history, event.TakesOwn) ∧
      ((∀ event ∈ s.history, event.TakesOwn) → s.run.Lives) := by
  suffices holds : ((∀ event ∈ s.history, event.Lives) ↔ ∀ event ∈ s.history, event.TakesOwn) ∧
      ((∀ event ∈ s.history, event.Lives) → s.run.Lives) from
    ⟨holds.1, fun takes => holds.2 (holds.1.mpr takes)⟩
  refine reached.induct (motive := fun s =>
    ((∀ event ∈ s.history, event.Lives) ↔ ∀ event ∈ s.history, event.TakesOwn) ∧
      ((∀ event ∈ s.history, event.Lives) → s.run.Lives)) ?_ ?_
  · intro registry settings host
    refine ⟨⟨fun _ => ?_, fun _ => ?_⟩, fun _ => ?_⟩
    · exact fun event member => absurd member List.not_mem_nil
    · exact fun event member => absurd member List.not_mem_nil
    · exact fun own member => absurd member List.not_mem_nil
  · intro s interaction reached ih genuine
    have housed := reached.genuine_housed
    have owning := reached.owning
    cases interaction with
    | asks request =>
      refine ⟨ih.1, fun all own member => ?_⟩
      have inside := (housed.handles.houses own (owning.mine own member).1).table
      exact (request.released s.run.world own.node.table inside).trans (ih.2 all own member)
    | calls call =>
      have lives_iff (lives : s.run.Lives) :=
        (reached.custody genuine).lives_iff lives owning housed.handles housed.stacked
      refine ⟨⟨fun all => ?_, fun all => ?_⟩, fun all => (all _ List.mem_cons_self).1⟩
      · have older := fun event earlier => all event (List.mem_cons_of_mem _ earlier)
        rintro event (_ | ⟨_, earlier⟩)
        · exact (lives_iff (ih.2 older)).mp (all _ List.mem_cons_self)
        · exact ih.1.mp older event earlier
      · have older := ih.1.mpr fun event earlier => all event (List.mem_cons_of_mem _ earlier)
        rintro event (_ | ⟨_, earlier⟩)
        · exact (lives_iff (ih.2 older)).mpr (all _ List.mem_cons_self)
        · exact older event earlier

/-! ### A unit and a view -/

def sampleUnit : Command := ⟨0, "u", .plain, some ⟨"u.xml", ⟨"urn:sample", "u"⟩⟩, none, none⟩

def unitView : Context Unit Unit :=
  ⟨{ filterOwn.node with id := 2, subject := .int 2, owner := false }, filterOwn.ancestors⟩

/-- A view is opened within a unit. -/
def viewing : List (Interaction Unit Unit) :=
  [.calls (.start (.int 1)), .calls (.startCommand sampleUnit filterOuter),
    .calls (.startPointer filterOwn (.int 2))]

/-- The view is stopped before the unit ends. -/
def endedWithOwn : Session Unit Unit :=
  (fresh .empty .standard ()).play
    (viewing ++ [.calls (.stopPointer unitView), .calls (.endCommand sampleUnit filterOwn)])

/-- The unit ends within the view. -/
def endedWithView : Session Unit Unit :=
  (fresh .empty .standard ()).play (viewing ++ [.calls (.endCommand sampleUnit unitView)])

theorem reached_viewing {last : List (Interaction Unit Unit)}
    (permits : Permits (Genuine fun _ => sampleUnit)
      ((fresh .empty .standard ()).play viewing) last) :
    Reached (Genuine fun _ => sampleUnit) ((fresh .empty .standard ()).play (viewing ++ last)) := by
  refine ⟨_, _, _, Permits.leads ⟨⟨nofun, nofun⟩, ⟨?_, ?_⟩, ⟨?_, nofun⟩, permits⟩⟩
  case refine_2 =>
    rintro command ⟨⟩
    rfl
  all_goals
    rintro ctx ⟨⟩
    exact List.mem_cons_self

theorem contexts_live_own_on_top :
    Reached (Genuine fun _ => sampleUnit) endedWithOwn ∧
      endedWithOwn.history.head?.bind Event.removed? = some filterOwn ∧
      (∀ event ∈ endedWithOwn.history, event.Lives) ∧ endedWithOwn.run.Lives := by
  have reached : Reached (Genuine fun _ => sampleUnit) endedWithOwn := by
    refine reached_viewing ⟨⟨?_, nofun⟩, ⟨?_, ?_⟩, trivial⟩
    case refine_3 =>
      rintro command ⟨⟩
      rfl
    all_goals
      rintro ctx ⟨⟩
      exact List.mem_cons_self
  have takes : ∀ event ∈ endedWithOwn.history, event.TakesOwn := by
    rintro event (_ | ⟨_, (_ | ⟨_, (_ | ⟨_, (_ | ⟨_, (_ | ⟨_, ⟨⟩⟩)⟩)⟩)⟩)⟩) own ⟨⟩
    rfl
  exact ⟨reached, rfl, (contexts_live_iff reached).1.mpr takes, (contexts_live_iff reached).2 takes⟩

/-- The context of a unit that ends within a view of it is not released. -/
theorem context_outlives_frame :
    Reached (Genuine fun _ => sampleUnit) endedWithView ∧
      endedWithView.history.head?.bind Event.removed? = some filterOwn ∧
      endedWithView.run.world.isReleased filterOwn = false := by
  refine ⟨reached_viewing ⟨⟨?_, ?_⟩, trivial⟩, rfl, rfl⟩
  · rintro ctx ⟨⟩
    exact List.mem_cons_self
  · rintro command ⟨⟩
    rfl

end Session
end CommandChain
