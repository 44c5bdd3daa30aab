import CommandChain.Proofs.Resumption

/-!
What the frames of a machine own. The frame of a registered command owns the context that was opened
for it, and no other frame owns one. Each frame in use that owns a context has a trace entry, so a
departure never lacks one. It has a context on the stack as well, as long as no filter is resumed
with a view on top of the contexts that are suspended.
-/
namespace CommandChain

variable {I H : Type}

def owned (outlines : List (FrameKind × Option (Context I H))) : List (Context I H) :=
  outlines.filterMap Prod.snd

namespace Machine

/-- What the frames in use keep from their push to their end. -/
def outlines (m : Machine I H) : List (FrameKind × Option (Context I H)) :=
  m.frames.map Frame.outline

def suspendedOutlines (m : Machine I H) : List (FrameKind × Option (Context I H)) :=
  m.suspendedFrames.map Frame.outline

/-- Whether frames go with the commands of their handles, and those in use that own a context do not
outnumber the trace entries. -/
structure Framed (handles : Nat → Command) (m : Machine I H) : Prop where
  faithful : ∀ outline ∈ m.outlines ++ m.suspendedOutlines, Faithful handles outline.1 outline.2
  entries : (owned m.outlines).length ≤ m.trace.length

/-- Whether the frames in use that own a context do not outnumber the contexts that are no views. -/
def Covered (m : Machine I H) : Prop :=
  (owned m.outlines).length ≤ (m.contexts.filter fun ctx => !ctx.isPointer).length

section

variable {handles : Nat → Command} {m : Machine I H}

@[simp] theorem located_outlines (m : Machine I H) : m.located.outlines = m.outlines := by
  simp [outlines]

@[simp] theorem located_trace_length (m : Machine I H) :
    m.located.trace.length = m.trace.length := by
  rw [← List.length_map (·.id), located_trace_ids, List.length_map]

theorem thrown_outlines {top parent : Frame I H} {rest : List (Frame I H)}
    (frames : m.frames = top :: parent :: rest) (fault : Fault) :
    (m.thrown fault top parent rest).outlines = m.outlines := by
  rw [outlines, outlines, frames]
  rfl

theorem Framed.empty (registry : Registry I H) (settings : EngineSettings) :
    (withSettings registry settings).Framed handles :=
  ⟨fun _ member => absurd member List.not_mem_nil, Nat.le_refl _⟩

end

end Machine

theorem owned_unit (kind : FrameKind) (own : Context I H)
    (outlines : List (FrameKind × Option (Context I H))) :
    owned ((kind, some own) :: outlines) = own :: owned outlines := rfl

theorem owned_cons (outline : FrameKind × Option (Context I H))
    (outlines : List (FrameKind × Option (Context I H))) :
    owned (outline :: outlines) = outline.2.toList ++ owned outlines := by
  obtain ⟨kind, _ | own⟩ := outline <;> rfl

/-! Contexts that are no views. -/

theorem owners_cons (ctx : Context I H) (contexts : List (Context I H)) :
    (contexts.filter fun ctx => !ctx.isPointer).length ≤
      ((ctx :: contexts).filter fun ctx => !ctx.isPointer).length :=
  ((List.sublist_cons_self ctx contexts).filter _).length_le

theorem owners_of_cons (ctx : Context I H) (contexts : List (Context I H)) :
    ((ctx :: contexts).filter fun ctx => !ctx.isPointer).length ≤
      (contexts.filter fun ctx => !ctx.isPointer).length + 1 := by
  rw [List.filter_cons]
  split
  · exact Nat.le_refl _
  · exact Nat.le_succ _

section

variable {handles : Nat → Command} {run run' : Run I H} {call : Call I H}
  {outcome : Except ExecutionError (Option (Context I H))}

section

variable {undone : Run I H} {command : Command} {ctx : Context I H} {keeps : Bool}
  {frame : Frame I H} {rest : List (Frame I H)}

theorem Departs.command_mem (departs : Departs run call command ctx keeps undone frame rest) :
    command ∈ call.command? := by
  rcases Call.of_departure departs.departure with ⟨rfl, -⟩ | ⟨rfl, -⟩ <;> rfl

theorem Departs.framed_outlines (departs : Departs run call command ctx keeps undone frame rest) :
    run.machine.outlines = frame.outline :: rest.map Frame.outline := by
  rw [Machine.outlines, departs.frames]
  rfl

theorem Departs.frame_faithful (departs : Departs run call command ctx keeps undone frame rest)
    (framed : run.machine.Framed handles) : Faithful handles frame.kind frame.opened := by
  have faithful := framed.faithful frame.outline
  rw [departs.framed_outlines] at faithful
  exact faithful (List.mem_append_left _ List.mem_cons_self)

theorem Departs.opened (departs : Departs run call command ctx keeps undone frame rest)
    (framed : run.machine.Framed handles)
    (genuine : ∀ command ∈ call.command?, handles command.id = command) :
    frame.opened.isSome = command.isBoundary :=
  opened_of_own (departs.frame_faithful framed) departs.own (genuine command departs.command_mem)

theorem Departs.faithful (departs : Departs run call command ctx keeps undone frame rest)
    (framed : run.machine.Framed handles) :
    ∀ outline ∈ rest.map Frame.outline ++
        (undone.machine.droppedFrame keeps frame rest).suspendedOutlines,
      Faithful handles outline.1 outline.2 := by
  obtain ⟨prefixes, same⟩ := departs.machine
  intro outline member
  apply framed.faithful
  rw [departs.framed_outlines]
  rw [Machine.suspendedOutlines, same] at member
  rcases List.mem_append.mp member with active | suspended
  · exact List.mem_append_left _ (List.mem_cons_of_mem _ active)
  · cases keeps with
    | false => exact List.mem_append_right _ suspended
    | true =>
      rcases List.mem_cons.mp suspended with rfl | older
      · exact List.mem_append_left _ List.mem_cons_self
      · exact List.mem_append_right _ older

theorem Departs.traced (departs : Departs run call command ctx keeps undone frame rest)
    (framed : run.machine.Framed handles)
    (genuine : ∀ command ∈ call.command?, handles command.id = command)
    (unit : command.isBoundary = true) : run.machine.trace ≠ [] := by
  intro none_left
  have entries := framed.entries
  obtain ⟨own, owns⟩ :=
    Option.isSome_iff_exists.mp ((departs.opened framed genuine).trans unit)
  rw [departs.framed_outlines, Frame.outline, owns, owned_unit, none_left] at entries
  exact absurd entries (Nat.not_succ_le_zero _)

end

section

variable {command : Command} {ctx : Context I H} {frame : Frame I H} {rest : List (Frame I H)}

theorem Resumes.frame_faithful (resumes : Resumes run command ctx frame rest)
    (framed : run.machine.Framed handles) : Faithful handles frame.kind frame.opened := by
  have faithful := framed.faithful frame.outline
  rw [Machine.suspendedOutlines, resumes.frames] at faithful
  exact faithful (List.mem_append_right _ List.mem_cons_self)

theorem Resumes.opened (resumes : Resumes run command ctx frame rest)
    (framed : run.machine.Framed handles) (genuine : handles command.id = command) :
    frame.opened.isSome = command.isBoundary :=
  opened_of_own (resumes.frame_faithful framed) resumes.own genuine

theorem Resumes.faithful (resumes : Resumes run command ctx frame rest)
    (framed : run.machine.Framed handles) :
    ∀ outline ∈ (frame.outline :: run.machine.outlines) ++ rest.map Frame.outline,
      Faithful handles outline.1 outline.2 := by
  intro outline member
  apply framed.faithful
  rw [Machine.suspendedOutlines, resumes.frames]
  exact List.perm_middle.mem_iff.mpr member

end

theorem Effect.framed (effect : Effect run call outcome run')
    (framed : run.machine.Framed handles)
    (genuine : ∀ command ∈ call.command?, handles command.id = command) :
    run'.machine.Framed handles := by
  have pushing {command : Command} (opened : Option (Context I H))
      (same : handles command.id = command) (opens : opened.isSome = command.isBoundary) :
      ∀ outline ∈ (FrameKind.command command, opened) ::
          run.machine.outlines ++ run.machine.suspendedOutlines,
        Faithful handles outline.1 outline.2 := by
    rintro outline (_ | ⟨_, member⟩)
    · rintro other ⟨⟩
      exact ⟨same, opens⟩
    · exact framed.faithful outline member
  cases effect with
  | rejected | unused | viewed | viewLeft | viewResumed | handled =>
    exact ⟨framed.faithful, framed.entries⟩
  | ended => exact ⟨fun _ member => absurd member List.not_mem_nil, Nat.le_refl _⟩
  | begun =>
    refine ⟨?_, framed.entries⟩
    rintro outline (_ | ⟨_, member⟩)
    · nofun
    · exact framed.faithful outline member
  | enteredUnit unit now shallow opens =>
    rename_i command ctx registration current opened world log
    constructor
    · simpa [Machine.outlines, Machine.suspendedOutlines, Frame.outline] using
        pushing (some opened) (genuine command rfl) (congrArg Option.isSome unit).symm
    · have entries := framed.entries
      simp only [Run.bound_trace, Machine.located_trace_length, Machine.outlines, Run.bound_frames,
        Machine.located_frames, Machine.pushedUnit, List.map_cons, Frame.outline, owned_unit,
        List.length_cons]
      exact Nat.succ_le_succ entries
  | entered plain now shallow same =>
    rename_i command ctx current log
    constructor
    · simpa [Machine.outlines, Machine.suspendedOutlines, Frame.outline] using
        pushing none (genuine command rfl) (congrArg Option.isSome plain).symm
    · simpa [Machine.outlines, Frame.outline, owned_cons] using framed.entries
  | left departs plain =>
    have opened := departs.opened framed genuine
    have faithful := departs.faithful framed
    have entries := framed.entries
    obtain ⟨prefixes, same⟩ := departs.machine
    constructor
    · simpa [Machine.outlines, Machine.suspendedOutlines] using faithful
    · rw [departs.framed_outlines, owned_cons] at entries
      simp only [Machine.located_trace_length, Machine.located_outlines]
      simp only [Machine.outlines, Machine.droppedFrame, same]
      exact Nat.le_trans (by simp) entries
  | tornContext departs =>
    have entries := framed.entries
    refine ⟨departs.faithful framed, ?_⟩
    obtain ⟨prefixes, same⟩ := departs.machine
    rw [departs.framed_outlines, owned_cons] at entries
    simp only [Machine.outlines, Machine.droppedFrame, same]
    exact Nat.le_trans (by simp) entries
  | tornTrace departs unit contexts trace => exact absurd trace (departs.traced framed genuine unit)
  | leftUnit departs unit contexts trace =>
    have faithful := departs.faithful framed
    have entries := framed.entries
    obtain ⟨own, owns⟩ :=
      Option.isSome_iff_exists.mp ((departs.opened framed genuine).trans unit)
    constructor
    · simpa [Machine.outlines, Machine.suspendedOutlines] using faithful
    · rw [departs.framed_outlines, Frame.outline, owns, owned_unit, trace] at entries
      simp only [Machine.located_trace_length, Machine.located_outlines]
      simpa [Machine.outlines] using Nat.le_of_succ_le_succ entries
  | resumed resumes plain =>
    rename_i frame rest current log now
    have faithful := resumes.faithful framed
    have opened := resumes.opened framed (genuine _ rfl)
    have alone : frame.opened = none := by simpa [plain] using opened
    have entries := framed.entries
    constructor
    · simpa [Machine.outlines, Machine.suspendedOutlines, Machine.marked_outlines] using faithful
    · simpa [Machine.outlines, Machine.marked_outlines, owned_cons, Frame.outline, alone]
        using entries
  | resumedUnit resumes unit contexts trace =>
    have faithful := resumes.faithful framed
    obtain ⟨own, owns⟩ :=
      Option.isSome_iff_exists.mp ((resumes.opened framed (genuine _ rfl)).trans unit)
    have entries := framed.entries
    constructor
    · simpa [Machine.outlines, Machine.suspendedOutlines, Machine.marked_outlines] using faithful
    · simpa [Machine.outlines, Machine.marked_outlines, owned_cons, Frame.outline, owns]
        using entries
  | thrown frames =>
    refine ⟨?_, ?_⟩
    · rw [Machine.thrown_outlines frames]
      exact framed.faithful
    · rw [Machine.thrown_outlines frames]
      exact framed.entries

/-- Where no filter is resumed with a view on top, every frame in use that owns a context has one on
the stack. -/
theorem Effect.covered (effect : Effect run call outcome run')
    (framed : run.machine.Framed handles) (covered : run.machine.Covered)
    (stacked : ∀ ctx ∈ call.context?, ∀ top, run.machine.current = .ok top →
      top.same ctx = true → top = ctx)
    (genuine : ∀ command ∈ call.command?, handles command.id = command)
    (views : ∀ own, (Event.mk run call outcome run').resumed? = some own →
      ∀ top ∈ run.machine.suspendedContexts.head?, top.isPointer = false) :
    run'.machine.Covered := by
  unfold Machine.Covered at covered ⊢
  cases effect with
  | rejected | unused | begun | handled => exact covered
  | ended => exact Nat.le_refl _
  | thrown frames =>
    rw [Machine.thrown_outlines frames]
    exact covered
  | viewed | viewResumed => exact Nat.le_trans covered (owners_cons _ _)
  | viewLeft unviews here pointer contexts =>
    cases Call.unviewing_top unviews here contexts stacked
    rw [contexts] at covered
    simpa [pointer, Machine.outlines] using covered
  | enteredUnit unit now shallow opens =>
    have owner := owner_openChild opens
    simpa [Machine.outlines, Frame.outline, owned_cons, owner] using covered
  | entered => simpa [Machine.outlines, Frame.outline, owned_cons] using covered
  | left departs | tornContext departs =>
    obtain ⟨prefixes, same⟩ := departs.machine
    rw [departs.framed_outlines, owned_cons, List.length_append] at covered
    refine Nat.le_trans (Nat.le_trans ?_ (Nat.le_add_left _ _)) (Nat.le_trans covered ?_)
    all_goals simp [Machine.outlines, same]
  | leftUnit departs unit contexts trace =>
    obtain ⟨own, owns⟩ :=
      Option.isSome_iff_exists.mp ((departs.opened framed genuine).trans unit)
    rw [departs.framed_outlines, Frame.outline, owns, owned_unit, contexts] at covered
    have below := Nat.le_of_succ_le_succ (Nat.le_trans covered (owners_of_cons _ _))
    simpa [Machine.outlines] using below
  | tornTrace departs unit contexts trace => exact absurd trace (departs.traced framed genuine unit)
  | resumed resumes plain =>
    have opened := resumes.opened framed (genuine _ rfl)
    rw [plain, Option.isSome_eq_false_iff, Option.isNone_iff_eq_none] at opened
    simpa [Machine.outlines, Machine.marked_outlines, owned_cons, Frame.outline, opened]
      using covered
  | resumedUnit resumes unit contexts =>
    obtain ⟨own, owns⟩ :=
      Option.isSome_iff_exists.mp ((resumes.opened framed (genuine _ rfl)).trans unit)
    have owner := views own ((resumes.resumed _).trans owns) _ (by rw [contexts]; rfl)
    simpa [Machine.outlines, Machine.marked_outlines, owned_cons, Frame.outline, owns, owner]
      using covered

end

/-- Whether an event, if it resumes a registered filter, finds no view on top of the contexts that
are suspended. -/
def Event.Unviewed (event : Event I H) : Prop :=
  ∀ own, event.resumed? = some own →
    ∀ top ∈ event.before.machine.suspendedContexts.head?, top.isPointer = false

namespace Session

variable {handles : Nat → Command} {s : Session I H}

def Handled (handles : Nat → Command) (_ : Session I H) (interaction : Interaction I H) : Prop :=
  ∀ command ∈ interaction.command?, handles command.id = command

theorem Reached.handled (reached : Reached (Genuine handles) s) : Reached (Handled handles) s := by
  obtain ⟨registry, settings, host, leads⟩ := reached
  exact ⟨registry, settings, host, leads.mono fun _ _ genuine => genuine.2⟩

theorem Reached.handled_framed (reached : Reached (Handled handles) s) :
    s.run.machine.Framed handles := by
  refine reached.induct (motive := fun s => s.run.machine.Framed handles) ?_ ?_
  · exact fun _ _ _ => .empty _ _
  · intro s interaction reached framed handled
    cases interaction with
    | asks request => exact framed
    | calls call => exact (Machine.perform_effect s.run call).framed framed handled

theorem Reached.framed (reached : Reached (Genuine handles) s) : s.run.machine.Framed handles :=
  reached.handled.handled_framed

theorem Reached.covered (reached : Reached (Genuine handles) s)
    (unviewed : ∀ event ∈ s.history, event.Unviewed) : s.run.machine.Covered := by
  revert unviewed
  refine reached.induct
    (motive := fun s => (∀ event ∈ s.history, event.Unviewed) → s.run.machine.Covered) ?_ ?_
  · exact fun _ _ _ _ => Nat.le_refl _
  · intro s interaction reached ih genuine unviewed
    cases interaction with
    | asks request => exact ih unviewed
    | calls call =>
      have covered := ih fun event older => unviewed event (List.mem_cons_of_mem _ older)
      exact (Machine.perform_effect s.run call).covered reached.framed covered
        (reached.genuine_housed.stacked_same genuine.1) genuine.2 (unviewed _ List.mem_cons_self)

end Session
end CommandChain
