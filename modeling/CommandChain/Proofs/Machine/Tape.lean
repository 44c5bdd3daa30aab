import CommandChain.Proofs.ExactlyOnce
import CommandChain.Proofs.Ownership
import CommandChain.Proofs.World.Chains

/-!
The contexts of a machine on a tape: the global one, those in use from the bottom up, and those
suspended from the top down. A suspension and a resumption only move the place where the two meet.
That is where new contexts come in, right behind the current one. So every context on the tape lies
behind all that it was opened within, however often filters and views were moved.
-/
namespace CommandChain

variable {I H : Type}

def Context.tables (ctx : Context I H) : List Nat := ctx.nodes.map (·.table)

/-- Whether a context or a view of it is an ancestor of another one. -/
def Context.Encloses (outer inner : Context I H) : Prop :=
  outer.node.table ∈ inner.ancestors.map (·.table)

/-- Whether a context may lie before another one: it is not one within it, nor a view of it. -/
def Context.MayPrecede (left right : Context I H) : Prop :=
  right.isPointer = false → right.node.table ∉ left.tables

namespace Machine

def entered (m : Machine I H) : List (Context I H) := m.global.toList ++ m.contexts.reverse

def tape (m : Machine I H) : List (Context I H) := m.entered ++ m.suspendedContexts

def Layered (m : Machine I H) : Prop := m.tape.Pairwise Context.MayPrecede

variable {m : Machine I H} {ctx top current : Context I H} {outer : List (Context I H)}

theorem mem_tape : ctx ∈ m.tape ↔ ctx ∈ m.working := by
  simp only [tape, entered, working, List.mem_append, List.mem_reverse]
  constructor <;> rintro ((there | there) | there) <;> simp [there]

theorem located_tape (m : Machine I H) : m.located.tape = m.tape := by
  simp [tape, entered]

theorem marked_tape (m : Machine I H) (ctx : Context I H) : (m.marked ctx).tape = m.tape := by
  simp [tape, entered]

theorem tape_dropped (contexts : m.contexts = top :: outer) (keeps : Bool) :
    (m.droppedContext keeps top outer).tape.Sublist m.tape := by
  cases keeps with
  | true => simp [tape, entered, contexts]
  | false => simp [tape, entered, contexts]

theorem tape_resumed (contexts : m.suspendedContexts = top :: outer) :
    (m.resumedContext top outer).tape = m.tape := by
  simp [tape, entered, contexts]

theorem current_entered (now : m.current = .ok current) : current ∈ m.entered := by
  unfold Machine.current at now
  cases contexts : m.contexts with
  | cons top outer =>
    rw [contexts] at now
    cases now
    simp [entered, contexts]
  | nil =>
    cases global : m.global with
    | none =>
      rw [contexts, global] at now
      cases now
    | some outermost =>
      rw [contexts, global] at now
      cases now
      simp [entered, global]

theorem Layered.opened (layered : m.Layered) (now : m.current = .ok current)
    (behind : ∀ left ∈ m.entered, left.MayPrecede ctx)
    (around : ∀ right ∈ m.suspendedContexts, current.MayPrecede right → ctx.MayPrecede right) :
    ({ m with contexts := ctx :: m.contexts } : Machine I H).Layered := by
  obtain ⟨front, back, across⟩ := List.pairwise_append.mp layered
  have split : ({ m with contexts := ctx :: m.contexts } : Machine I H).tape =
      m.entered ++ ctx :: m.suspendedContexts := by
    simp [tape, entered]
  rw [Layered, split, List.pairwise_append, List.pairwise_cons]
  have here := current_entered now
  refine ⟨front, ⟨fun right member => ?_, back⟩, fun left member right among => ?_⟩
  · exact around right member (across current here right member)
  · rcases List.mem_cons.mp among with rfl | among
    · exact behind left member
    · exact across left member right among

end Machine

/-! ### Calls -/

section

variable {run run' : Run I H} {call : Call I H}
  {outcome : Except ExecutionError (Option (Context I H))}

theorem Run.bound_tape (run : Run I H) (ctx : Context I H) (command : Command) :
    (run.bound ctx command).machine.tape = run.machine.tape := by
  simp [Machine.tape, Machine.entered]

theorem Effect.layered (effect : Effect run call outcome run') (quiet : run.machine.Quiet)
    (inside : ∀ ctx ∈ run.machine.working, run.world.Houses ctx)
    (stacked : ∀ ctx ∈ call.context?, ∀ top, run.machine.current = .ok top →
      top.same ctx = true → top = ctx)
    (layered : run.machine.Layered) : run'.machine.Layered := by
  have same {m : Machine I H} (tape : m.tape = run.machine.tape) : m.Layered := by
    rw [Machine.Layered, tape]
    exact layered
  have fewer {m : Machine I H} (tape : m.tape.Sublist run.machine.tape) : m.Layered :=
    layered.sublist tape
  cases effect with
  | rejected | unused | thrown | handled => exact layered
  | ended => exact List.Pairwise.nil
  | begun opens idle =>
    rename_i global world log
    rw [Machine.isRunning, Option.isSome_eq_false_iff, Option.isNone_iff_eq_none] at idle
    have empty : run.machine.cleared = run.machine := quiet idle
    have alone : (run.machine.begun global).tape = [global] := by
      rw [← empty]
      rfl
    rw [Machine.Layered, alone]
    exact List.pairwise_singleton _ _
  | enteredUnit unit now shallow opens =>
    rename_i command ctx registration current own world log
    have opened : own.node.table = run.world.tables.next ∧ own.ancestors = current.nodes := by
      unfold World.openChild World.openChildIn at opens
      obtain ⟨table, -, around, -⟩ := World.newContext_node opens
      exact ⟨table, around⟩
    have older : ∀ other ∈ run.machine.working,
        ∀ table ∈ other.tables, table < run.world.tables.next := by
      intro other member table among
      obtain ⟨node, there, rfl⟩ := List.mem_map.mp among
      exact (inside other member).tables node there
    have joins : ({ run.machine with contexts := own :: run.machine.contexts } :
        Machine I H).Layered := by
      apply layered.opened now
      · intro left member _ among
        have there := Machine.mem_tape.mp (List.mem_append_left _ member)
        have before := older left there _ among
        omega
      · intro right member apart owner among
        have there := Machine.mem_tape.mp (List.mem_append_right _ member)
        rcases List.mem_cons.mp among with new | around
        · have before := (inside right there).table
          have new : right.node.table = own.node.table := new
          omega
        · rw [opened.2] at around
          exact apart owner around
    rw [Machine.Layered, Run.bound_tape, Machine.located_tape]
    exact joins
  | viewed here opens =>
    rename_i ctx subject view world
    obtain ⟨current, now, same⟩ := here
    cases stacked ctx rfl current now same
    have pointer := (World.openView_ok (inside _ (Machine.current_working now)) opens).2.1
    obtain ⟨table, -, around, -⟩ := World.openView_node opens
    have tables : view.tables = ctx.tables := by
      simp only [Context.tables, Context.nodes, List.map_cons, table, around]
    apply layered.opened now
    · intro left _ owner
      rw [pointer] at owner
      cases owner
    · intro right _ apart
      rw [Context.MayPrecede, tables]
      exact apart
  | entered => exact same (by rw [Run.bound_tape, Machine.located_tape]; rfl)
  | resumed =>
    exact same (by rw [Run.bound_tape, Machine.marked_tape, Machine.located_tape]; rfl)
  | resumedUnit resumes unit contexts =>
    refine same ?_
    rw [Run.bound_tape, Machine.marked_tape, Machine.located_tape]
    exact Machine.tape_resumed contexts
  | viewResumed here pointer contexts => exact same (Machine.tape_resumed contexts)
  | left departs =>
    obtain ⟨prefixes, undone⟩ := departs.machine
    refine same ?_
    rw [Machine.located_tape, undone]
    rfl
  | tornContext departs =>
    obtain ⟨prefixes, undone⟩ := departs.machine
    refine same ?_
    rw [undone]
    rfl
  | leftUnit departs unit contexts =>
    rename_i keeps _ _ _ _ _ _ _ _
    obtain ⟨prefixes, undone⟩ := departs.machine
    refine fewer ?_
    rw [Machine.located_tape, undone]
    exact Machine.tape_dropped contexts _
  | tornTrace departs unit contexts =>
    obtain ⟨prefixes, undone⟩ := departs.machine
    refine fewer ?_
    rw [undone]
    exact Machine.tape_dropped contexts _
  | viewLeft unviews here pointer contexts => exact fewer (Machine.tape_dropped contexts _)

/-- A context that owns its table is not released while it is on the stacks. -/
theorem Effect.live (effect : Effect run call outcome run') {known : List (Context I H)}
    (handles : Handles run.world known) (stacked : ∀ ctx ∈ run.machine.working, ctx ∈ known)
    (apart : Apart known) (once : run.machine.working.Nodup)
    (live : ∀ ctx ∈ run.machine.working, ctx.isPointer = false →
      run.world.isReleased ctx = false) :
    ∀ ctx ∈ run'.machine.working, ctx.isPointer = false → run'.world.isReleased ctx = false := by
  have older {w : World I H} (kept : ∀ table < run.world.tables.next,
      (w.table table).released = (run.world.table table).released) :
      ∀ ctx ∈ run.machine.working, ctx.isPointer = false → w.isReleased ctx = false := by
    intro ctx member owner
    have inside := (handles.houses ctx (stacked ctx member)).table
    exact (kept _ inside).trans (live ctx member owner)
  have dropped {top : Context I H} {outer : List (Context I H)} {w : World I H}
      (contexts : run.machine.contexts = top :: outer) (keeps : Bool)
      (tables : w.tables = run.world.tables) :
      ∀ ctx ∈ (run.machine.droppedContext keeps top outer).working, ctx.isPointer = false →
        (if keeps then w else w.endContext top).isReleased ctx = false := by
    intro ctx member owner
    have still : w.isReleased ctx = false := by
      rw [World.isReleased, World.tableOf, World.table, tables]
      exact live ctx ((Machine.mem_working_dropped contexts keeps).mpr (.inl member)) owner
    cases keeps with
    | true => exact still
    | false =>
      have distinct := (Machine.working_dropped contexts false).nodup once
      have gone : top ∉ (run.machine.droppedContext false top outer).working :=
        (List.nodup_cons.mp distinct).1
      have there := (Machine.mem_working_dropped contexts false).mpr (.inl member)
      refine (World.released_endContext_table w top ctx.node.table).trans ?_
      rw [if_neg]
      · exact still
      · rintro ⟨owns, same⟩
        have top_there : top ∈ run.machine.working := by simp [Machine.working, contexts]
        rw [apart top (stacked _ top_there) ctx (stacked _ there) owns owner same] at gone
        exact gone member
  cases effect with
  | rejected | thrown | handled => exact live
  | unused opens => exact older (Call.opening_spares opens).released
  | ended => exact fun _ member => absurd member List.not_mem_nil
  | begun opens idle =>
    rename_i global world log
    have warned : world.Untouched (world.setWarns global run.machine.settings.warnUnreleased) :=
      .changeTable world global fun _ => rfl
    intro ctx member owner
    refine (warned.released ctx.node.table).trans ?_
    rw [Machine.isRunning, Option.isSome_eq_false_iff, Option.isNone_iff_eq_none] at idle
    rcases Machine.mem_working.mp member with active | suspended | same
    · exact older (Call.opening_spares opens).released ctx
        (Machine.mem_working.mpr (.inl active)) owner
    · exact older (Call.opening_spares opens).released ctx
        (Machine.mem_working.mpr (.inr (.inl suspended))) owner
    · cases same
      exact Call.opening_live opens
  | enteredUnit unit now shallow opens =>
    rename_i command ctx registration current own world log
    intro other member owner
    rw [Run.bound_working, Machine.located_working] at member
    rw [World.isReleased, World.tableOf, World.table, (bound_alike _ own command).tables]
    rcases List.mem_cons.mp member with rfl | there
    · have opened := World.openChild_live opens
      exact opened
    · exact older (World.Spares.openChild opens).released other there owner
  | entered =>
    intro other member owner
    rw [Run.bound_working, Machine.located_working] at member
    rw [World.isReleased, World.tableOf, World.table, (bound_alike _ _ _).tables]
    exact live other member owner
  | resumed =>
    intro other member owner
    rw [Run.bound_working, Machine.marked_working, Machine.located_working] at member
    rw [World.isReleased, World.tableOf, World.table, (bound_alike _ _ _).tables]
    exact live other member owner
  | resumedUnit resumes unit contexts =>
    intro other member owner
    rw [Run.bound_working, Machine.marked_working, Machine.located_working] at member
    rw [World.isReleased, World.tableOf, World.table, (bound_alike _ _ _).tables]
    exact live other ((Machine.mem_working_resumed contexts).mp member) owner
  | viewResumed here pointer contexts =>
    intro other member
    exact live other ((Machine.mem_working_resumed contexts).mp member)
  | left departs | tornContext departs =>
    obtain ⟨prefixes, same⟩ := departs.machine
    intro other member owner
    simp only [Machine.located_working, same] at member
    rw [World.isReleased, World.tableOf, World.table]
    simp only [World.logged, (unbound_alike departs.undoes).tables]
    exact live other member owner
  | leftUnit departs unit contexts =>
    obtain ⟨prefixes, same⟩ := departs.machine
    intro other member
    rw [Machine.located_working, same] at member
    exact dropped contexts _ (unbound_alike departs.undoes).tables other member
  | tornTrace departs unit contexts =>
    obtain ⟨prefixes, same⟩ := departs.machine
    intro other member
    rw [same] at member
    exact dropped contexts _ (unbound_alike departs.undoes).tables other member
  | viewed here opens =>
    rename_i ctx subject view world
    have spares := World.Spares.openView run.world ctx subject
    rw [opens] at spares
    intro other member owner
    rcases List.mem_cons.mp member with rfl | there
    · unfold World.openView at opens
      split at opens <;> cases opens
      cases owner
    · exact older spares.released other there owner
  | viewLeft unviews here pointer contexts => exact dropped contexts _ rfl

end

namespace Session

variable {s : Session I H}

theorem Reached.layered (reached : Reached Knows s) : s.run.machine.Layered := by
  refine reached.induct (motive := fun s => s.run.machine.Layered) ?_ ?_
  · exact fun _ _ _ => List.Pairwise.nil
  · intro s interaction reached layered knows
    have housed := reached.known_housed
    cases interaction with
    | asks request => exact layered
    | calls call =>
      exact (Machine.perform_effect s.run call).layered reached.quiet housed.working
        (housed.stacked_same knows) layered

theorem Reached.live (reached : Reached Knows s) : ∀ ctx ∈ s.run.machine.working,
    ctx.isPointer = false → s.run.world.isReleased ctx = false := by
  refine reached.induct (motive := fun s => ∀ ctx ∈ s.run.machine.working,
    ctx.isPointer = false → s.run.world.isReleased ctx = false) ?_ ?_
  · exact fun _ _ _ => nofun
  · intro s interaction reached live knows
    have housed := reached.known_housed
    cases interaction with
    | asks request =>
      intro ctx member owner
      exact (request.released s.run.world _ (housed.working ctx member).table).trans
        (live ctx member owner)
    | calls call =>
      exact (Machine.perform_effect s.run call).live housed.handles housed.stacked
        reached.known_apart housed.apart live

end Session
end CommandChain
