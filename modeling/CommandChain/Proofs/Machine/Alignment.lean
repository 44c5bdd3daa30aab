import CommandChain.Proofs.Machine.Handles

/-!
How the stacks of a machine belong together. Each registered command in use lies with its context
and its trace entry, and so does each filter that is suspended, unless it was suspended with another
context than its own. Views that are suspended lie on the same stack as the contexts of filters, and
nothing keeps a filter from being suspended or resumed with one.
-/
namespace CommandChain

variable {I H : Type}

/-- What a frame keeps from its push to its end. -/
def Frame.outline (frame : Frame I H) : FrameKind × Option (Context I H) :=
  (frame.kind, frame.opened)

/-- Whether a frame goes with the command of its handle: it has a context of its own just when the
command is registered. -/
def Faithful (handles : Nat → Command) (kind : FrameKind) (opened : Option (Context I H)) : Prop :=
  ∀ command, kind = .command command →
    handles command.id = command ∧ opened.isSome = command.isBoundary

/-- Stacks of frames, contexts and trace entries that belong together: each registered command lies
with its context and its trace entry. Frames of commands that are not registered lie in between, and
so may contexts. Below a command whose context is lost anything may lie. -/
inductive Aligned (handles : Nat → Command) (paired : Context I H → Nat → Prop)
    (between lost : Context I H → Prop) :
    List (FrameKind × Option (Context I H)) → List (Context I H) → List Nat → Prop where
  | empty : Aligned handles paired between lost [] [] []
  | between {frames contexts entries} (ctx : Context I H) (may : between ctx)
    (below : Aligned handles paired between lost frames contexts entries) :
    Aligned handles paired between lost frames (ctx :: contexts) entries
  | plain {frames contexts entries} (kind : FrameKind)
    (faithful : Faithful (I := I) (H := H) handles kind none)
    (below : Aligned handles paired between lost frames contexts entries) :
    Aligned handles paired between lost ((kind, none) :: frames) contexts entries
  | unit {frames contexts entries} (kind : FrameKind) (own : Context I H) (entry : Nat)
    (faithful : Faithful handles kind (some own)) (owner : own.isPointer = false)
    (pair : paired own entry)
    (below : Aligned handles paired between lost frames contexts entries) :
    Aligned handles paired between lost ((kind, some own) :: frames) (own :: contexts)
      (entry :: entries)
  | lost {frames contexts entries} (kind : FrameKind) (own : Context I H)
    (faithful : Faithful handles kind (some own)) (owner : own.isPointer = false)
    (gone : lost own) (absent : own ∉ contexts) :
    Aligned handles paired between lost ((kind, some own) :: frames) contexts entries

namespace Aligned

variable {handles : Nat → Command} {paired : Context I H → Nat → Prop}
  {between lost : Context I H → Prop} {frames : List (FrameKind × Option (Context I H))}
  {contexts : List (Context I H)} {entries : List Nat} {kind : FrameKind}
  {opened : Option (Context I H)}

theorem mono {paired' : Context I H → Nat → Prop} {lost' : Context I H → Prop}
    (aligned : Aligned handles paired between lost frames contexts entries)
    (pairs : ∀ own ∈ contexts, ∀ entry, paired own entry → paired' own entry)
    (loses : ∀ own, lost own → lost' own) :
    Aligned handles paired' between lost' frames contexts entries := by
  induction aligned with
  | empty => exact .empty
  | between ctx may below ih =>
    exact .between ctx may (ih fun own member => pairs own (List.mem_cons_of_mem _ member))
  | plain kind faithful below ih => exact .plain kind faithful (ih pairs)
  | unit kind own entry faithful owner pair below ih =>
    exact .unit kind own entry faithful owner (pairs own List.mem_cons_self entry pair)
      (ih fun own member => pairs own (List.mem_cons_of_mem _ member))
  | lost kind own faithful owner gone absent =>
    exact .lost kind own faithful owner (loses own gone) absent

theorem under (aligned : Aligned handles paired between lost frames contexts entries)
    {above : List (Context I H)} (may : ∀ ctx ∈ above, between ctx) :
    Aligned handles paired between lost frames (above ++ contexts) entries := by
  induction above with
  | nil => exact aligned
  | cons ctx above ih =>
    exact .between ctx (may ctx List.mem_cons_self)
      (ih fun other member => may other (List.mem_cons_of_mem _ member))

theorem head (aligned : Aligned handles paired between lost ((kind, opened) :: frames) contexts
      entries) :
    Faithful handles kind opened ∧ ∃ above here, contexts = above ++ here ∧
      (∀ ctx ∈ above, between ctx) ∧
      (opened = none ∧ Aligned handles paired between lost frames here entries ∨
        ∃ own, opened = some own ∧ own.isPointer = false ∧ (lost own ∧ own ∉ here ∨
          ∃ outer entry rest, here = own :: outer ∧ entries = entry :: rest ∧ paired own entry ∧
            Aligned handles paired between lost frames outer rest)) := by
  generalize stack : (kind, opened) :: frames = all at aligned
  induction aligned with
  | empty => cases stack
  | between ctx may below ih =>
    obtain ⟨faithful, above, here, rfl, all_may, found⟩ := ih stack
    refine ⟨faithful, ctx :: above, here, rfl, ?_, found⟩
    rintro other (_ | ⟨_, member⟩)
    · exact may
    · exact all_may other member
  | plain kind faithful below ih =>
    cases stack
    exact ⟨faithful, [], _, rfl, nofun, .inl ⟨rfl, below⟩⟩
  | unit kind own entry faithful owner pair below ih =>
    cases stack
    exact ⟨faithful, [], _, rfl, nofun,
      .inr ⟨own, rfl, owner, .inr ⟨_, _, _, rfl, rfl, pair, below⟩⟩⟩
  | lost kind own faithful owner gone absent =>
    cases stack
    exact ⟨faithful, [], _, rfl, nofun, .inr ⟨own, rfl, owner, .inl ⟨gone, absent⟩⟩⟩

theorem of_plain
    (aligned : Aligned handles paired between lost ((kind, none) :: frames) contexts entries) :
    Aligned handles paired between lost frames contexts entries := by
  obtain ⟨-, above, here, rfl, may, ⟨-, below⟩ | ⟨own, alone, -⟩⟩ := aligned.head
  · exact below.under may
  · cases alone

theorem of_view {view : Context I H} (pointer : view.isPointer = true)
    (aligned : Aligned handles paired between lost frames (view :: contexts) entries) :
    Aligned handles paired between lost frames contexts entries := by
  generalize stack : view :: contexts = all at aligned
  induction aligned with
  | empty => cases stack
  | between ctx may below ih =>
    cases stack
    exact below
  | plain kind faithful below ih => exact .plain kind faithful (ih stack)
  | unit kind own entry faithful owner pair below ih =>
    cases stack
    rw [pointer] at owner
    cases owner
  | lost kind own faithful owner gone absent =>
    rw [← stack] at absent
    exact .lost kind own faithful owner gone fun member =>
      absent (List.mem_cons_of_mem _ member)

theorem uncons {own top : Context I H} {entry : Nat}
    (aligned : Aligned handles paired between lost ((kind, some own) :: frames) (top :: contexts)
      (entry :: entries)) (bound : ¬ between top) :
    top = own ∧ paired own entry ∧ Aligned handles paired between lost frames contexts entries ∨
      lost own ∧ own ∉ top :: contexts := by
  cases aligned with
  | between ctx may below => exact absurd may bound
  | unit kind own entry faithful owner pair below => exact .inl ⟨rfl, pair, below⟩
  | lost kind own faithful owner gone absent => exact .inr ⟨gone, absent⟩

theorem holds {own : Context I H}
    (aligned : Aligned handles paired between (fun _ => False) ((kind, some own) :: frames) contexts
      entries) :
    own.isPointer = false ∧ own ∈ contexts ∧
      ∃ entry rest, entries = entry :: rest ∧ paired own entry := by
  obtain ⟨-, above, here, rfl, -, ⟨alone, -⟩ | ⟨other, same, owner, found⟩⟩ := aligned.head
  · cases alone
  cases same
  obtain ⟨gone, -⟩ | ⟨outer, entry, rest, rfl, rfl, pair, -⟩ := found
  · cases gone
  · exact ⟨owner, List.mem_append_right _ List.mem_cons_self, entry, rest, rfl, pair⟩

theorem leave {paired' : Context I H → Nat → Prop} {own top : Context I H} {entry : Nat}
    (aligned : Aligned handles paired (fun _ => True) (fun _ => False) ((kind, some own) :: frames)
      (top :: contexts) (entry :: entries)) (apart : (top :: contexts).Nodup)
    (pairs : ∀ other entry, other ≠ own → paired other entry → paired' other entry) :
    Aligned handles paired' (fun _ => True) (fun _ => False) frames contexts entries := by
  obtain ⟨-, above, here, split, -, ⟨alone, -⟩ | ⟨other, same, -, found⟩⟩ := aligned.head
  · cases alone
  cases same
  obtain ⟨gone, -⟩ | ⟨outer, _, _, rfl, ⟨⟩, -, below⟩ := found
  · cases gone
  rw [split] at apart
  have absent : own ∉ outer := (List.nodup_cons.mp (List.nodup_append.mp apart).2.1).1
  have kept : Aligned handles paired' (fun _ => True) (fun _ => False) frames outer entries := by
    refine below.mono (fun other member entry => pairs other entry ?_) fun _ gone => gone
    rintro rfl
    exact absent member
  cases above with
  | nil =>
    cases split
    exact kept
  | cons first above =>
    cases split
    exact (kept.between own trivial).under fun _ _ => trivial

end Aligned

/-! ### What the calls tell of contexts and trace entries -/

/-- The suspension of a registered filter: the context that the filter was entered with, the context
that was set aside with its frame, and the trace entry that was. -/
structure Suspension (I H : Type) where
  own : Context I H
  taken : Context I H
  entry : Nat

namespace Event

/-- The context of a registered command that an event entered, with its trace entry. -/
def entered? (event : Event I H) : Option (Context I H × Nat) :=
  match event.call, event.outcome, event.after.machine.trace with
  | .startCommand command _, .ok (some own), entry :: _ =>
    if command.isBoundary then some (own, entry.id) else none
  | _, _, _ => none

def suspended? (event : Event I H) : Option (Suspension I H) :=
  match event.call, event.outcome, event.before.machine.frames, event.before.machine.contexts,
    event.before.machine.trace with
  | .endCommand command _, .ok _, frame :: _, taken :: _, entry :: _ =>
    if command.isFilter then frame.opened.map (⟨·, taken, entry.id⟩) else none
  | _, _, _, _, _ => none

/-- The context with which a registered filter was entered that an event resumed. -/
def resumed? (event : Event I H) : Option (Context I H) :=
  match event.call, event.outcome, event.before.machine.suspendedFrames with
  | .startPostProcess _ _, .ok _, frame :: _ => frame.opened
  | _, _, _ => none

end Event

/-- Whether a filter was never suspended with another context than its own. -/
def Unmixed (suspended : List (Suspension I H)) (own : Context I H) : Prop :=
  ∀ suspension ∈ suspended, suspension.own = own → suspension.taken = own

def SetAside (suspended : List (Suspension I H)) (own : Context I H) (entry : Nat) : Prop :=
  (∃ suspension ∈ suspended, suspension.own = own ∧ suspension.entry = entry) ∧
    Unmixed suspended own

section

variable {suspended : List (Suspension I H)} {suspension : Suspension I H} {own : Context I H}
  {entry : Nat}

theorem Unmixed.cons (unmixed : Unmixed suspended own)
    (right : suspension.own = own → suspension.taken = own) :
    Unmixed (suspension :: suspended) own := by
  rintro other (_ | ⟨_, older⟩)
  · exact right
  · exact unmixed other older

theorem Unmixed.of_cons (unmixed : Unmixed (suspension :: suspended) own) :
    Unmixed suspended own :=
  fun other older => unmixed other (List.mem_cons_of_mem _ older)

theorem SetAside.cons (setAside : SetAside suspended own entry) (other : suspension.own ≠ own) :
    SetAside (suspension :: suspended) own entry := by
  obtain ⟨⟨found, member, same⟩, unmixed⟩ := setAside
  exact ⟨⟨found, List.mem_cons_of_mem _ member, same⟩, unmixed.cons fun same => absurd same other⟩

end

/-- The stacks in use: any context may lie in between, but no filter in use was ever suspended with
another context than its own. -/
def Active (handles : Nat → Command) (entered : List (Context I H × Nat))
    (suspended : List (Suspension I H)) :
    List (FrameKind × Option (Context I H)) → List (Context I H) → List Nat → Prop :=
  Aligned handles (fun own entry => (own, entry) ∈ entered ∧ Unmixed suspended own) (fun _ => True)
    fun _ => False

/-- The stacks of what is suspended: views may lie in between, and a filter that was suspended with
another context has lost its own. -/
def Waiting (handles : Nat → Command) (suspended : List (Suspension I H)) :
    List (FrameKind × Option (Context I H)) → List (Context I H) → List Nat → Prop :=
  Aligned handles (SetAside suspended) (fun ctx => ctx.isPointer = true)
    fun own => ¬ Unmixed suspended own

/-- Whether the stacks of a machine belong together, those in use and those suspended. -/
structure Machine.Tied (handles : Nat → Command) (entered : List (Context I H × Nat))
    (suspended : List (Suspension I H)) (m : Machine I H) : Prop where
  active : Active handles entered suspended (m.frames.map Frame.outline) m.contexts
    (m.trace.map (·.id))
  waiting : Waiting handles suspended (m.suspendedFrames.map Frame.outline) m.suspendedContexts
    (m.suspendedTrace.map (·.id))
  among : ∀ suspension ∈ suspended, (suspension.own, suspension.entry) ∈ entered

theorem Waiting.suspend {handles : Nat → Command} {suspended : List (Suspension I H)}
    {frames : List (FrameKind × Option (Context I H))} {contexts : List (Context I H)}
    {entries : List Nat} (waiting : Waiting handles suspended frames contexts entries)
    {kind : FrameKind} {own : Context I H} (faithful : Faithful handles kind (some own))
    (owner : own.isPointer = false) (absent : own ∉ contexts) (unmixed : Unmixed suspended own)
    (taken : Context I H) (entry : Nat) :
    Waiting handles (⟨own, taken, entry⟩ :: suspended) ((kind, some own) :: frames)
      (taken :: contexts) (entry :: entries) := by
  have below : Waiting handles (⟨own, taken, entry⟩ :: suspended) frames contexts entries := by
    refine waiting.mono (fun other waits _ setAside => setAside.cons ?_)
      fun other gone unmixed => gone unmixed.of_cons
    rintro rfl
    exact absent waits
  by_cases right : taken = own
  · cases right
    exact .unit _ _ _ faithful owner
      ⟨⟨_, List.mem_cons_self, rfl, rfl⟩, unmixed.cons fun _ => rfl⟩ below
  · refine .lost _ _ faithful owner ?_ ?_
    · exact fun unmixed => right (unmixed _ List.mem_cons_self rfl)
    · rintro (_ | ⟨_, waits⟩)
      · exact right rfl
      · exact absent waits

theorem Machine.marked_outlines (m : Machine I H) (ctx : Context I H) :
    (m.marked ctx).frames.map Frame.outline = m.frames.map Frame.outline := by
  unfold marked
  split
  · rename_i frames
    rw [frames]
    rfl
  · rfl

section

variable {handles : Nat → Command} {entered : List (Context I H × Nat)}
  {suspended : List (Suspension I H)} {run run' : Run I H} {call : Call I H}
  {outcome : Except ExecutionError (Option (Context I H))}

theorem kind_of_own {frame : Frame I H} {command : Command}
    (faithful : Faithful handles frame.kind frame.opened) (own : frame.isFor command = true)
    (genuine : handles command.id = command) : frame.kind = .command command := by
  unfold Frame.isFor at own
  cases kind : frame.kind with
  | global =>
    rw [kind] at own
    cases own
  | command other =>
    rw [kind] at own
    have same : other.id = command.id := by simpa [Command.same] using own
    rw [← (faithful other kind).1, same, genuine]

theorem opened_of_own {frame : Frame I H} {command : Command}
    (faithful : Faithful handles frame.kind frame.opened) (own : frame.isFor command = true)
    (genuine : handles command.id = command) : frame.opened.isSome = command.isBoundary :=
  (faithful command (kind_of_own faithful own genuine)).2

theorem Departs.outlines {undone : Run I H} {command : Command} {ctx : Context I H} {keeps : Bool}
    {frame : Frame I H} {rest : List (Frame I H)}
    (departs : Departs run call command ctx keeps undone frame rest)
    (tied : run.machine.Tied handles entered suspended)
    (genuine : ∀ command ∈ call.command?, handles command.id = command) :
    Faithful handles frame.kind frame.opened ∧ frame.opened.isSome = command.isBoundary ∧
      Active handles entered suspended ((frame.kind, frame.opened) :: rest.map Frame.outline)
        run.machine.contexts (run.machine.trace.map (·.id)) ∧
      ∀ outcome run', (Event.mk run call outcome run').entered? = none := by
  have active := tied.active
  rw [departs.frames, List.map_cons, Frame.outline] at active
  have faithful : Faithful handles frame.kind frame.opened := active.head.1
  refine ⟨faithful, opened_of_own faithful departs.own (genuine command ?_), active, ?_⟩
  · rcases Call.of_departure departs.departure with ⟨rfl, -⟩ | ⟨rfl, -⟩ <;> rfl
  · rcases Call.of_departure departs.departure with ⟨rfl, -⟩ | ⟨rfl, -⟩ <;> exact fun _ _ => rfl

theorem Departs.suspends {undone : Run I H} {command : Command} {ctx top : Context I H}
    {keeps : Bool} {frame : Frame I H} {rest : List (Frame I H)} {outer : List (Context I H)}
    {told : Option (Context I H)} {entry : TraceEntry} {entries : List TraceEntry}
    (departs : Departs run call command ctx keeps undone frame rest)
    (contexts : run.machine.contexts = top :: outer) (trace : run.machine.trace = entry :: entries)
    (run' : Run I H) :
    (Event.mk run call (.ok told) run').suspended? =
      if keeps then frame.opened.map (⟨·, top, entry.id⟩) else none := by
  rcases Call.of_departure departs.departure with ⟨rfl, rfl⟩ | ⟨rfl, rfl⟩
  · simp only [Event.suspended?, departs.frames, contexts, trace]
  · simp [Event.suspended?]

theorem Departs.suspends_none {undone : Run I H} {command : Command} {ctx : Context I H}
    {keeps : Bool} {frame : Frame I H} {rest : List (Frame I H)}
    (departs : Departs run call command ctx keeps undone frame rest) (alone : frame.opened = none)
    (outcome : Except ExecutionError (Option (Context I H))) (run' : Run I H) :
    (Event.mk run call outcome run').suspended? = none := by
  rcases Call.of_departure departs.departure with ⟨rfl, -⟩ | ⟨rfl, -⟩
  · unfold Event.suspended?
    split
    · rename_i frames contexts trace
      rw [departs.frames] at frames
      cases frames
      simp [alone]
    · rfl
  · simp [Event.suspended?]

theorem owner_openChild {w world : World I H} {current own : Context I H} {subject : Value}
    (opens : w.openChild current subject = (own, world)) : own.isPointer = false := by
  cases opens
  rfl

/-- Whether the stacks that a call leaves belong together, with what the call entered and what it
suspended. -/
def Event.Ties (handles : Nat → Command) (entered : List (Context I H × Nat))
    (suspended : List (Suspension I H)) (event : Event I H) : Prop :=
  event.after.machine.Tied handles (event.entered?.toList ++ entered)
    (event.suspended?.toList ++ suspended)

theorem Event.ties_of_tied {event : Event I H}
    (tied : event.after.machine.Tied handles entered suspended) (enters : event.entered? = none)
    (suspends : event.suspended? = none) : event.Ties handles entered suspended := by
  rw [Ties, enters, suspends]
  exact tied

section

variable {command : Command} {ctx : Context I H} {log : List LogEntry}

theorem ties_enteredUnit (tied : run.machine.Tied handles entered suspended)
    (genuine : handles command.id = command) {registration : Registration}
    (unit : command.registration = some registration) {current own : Context I H}
    {world : World I H} (opens : run.world.openChild current ctx.subject = (own, world))
    {event : Event I H} (ends : event = ⟨run, .startCommand command ctx, .ok (some own),
      Run.bound ⟨(run.machine.pushedUnit command registration own).located, world.logged log⟩ own
        command⟩)
    (new : ∀ pair, event.entered? = some pair →
      ∀ suspension ∈ suspended, suspension.own ≠ pair.1) :
    event.Ties handles entered suspended := by
  subst ends
  have boundary : command.isBoundary = true := congrArg Option.isSome unit
  have ids : (Run.bound ⟨(run.machine.pushedUnit command registration own).located,
      world.logged log⟩ own command).machine.trace.map (·.id) =
        run.machine.next :: run.machine.trace.map (·.id) := by
    simp [TraceEntry.ofRegistration]
  obtain ⟨entry, rest, trace, same, -⟩ := List.map_eq_cons_iff.mp ids
  have enters : (Event.mk run (.startCommand command ctx) (.ok (some own))
      (Run.bound ⟨(run.machine.pushedUnit command registration own).located,
        world.logged log⟩ own command)).entered? = some (own, run.machine.next) := by
    simp only [Event.entered?, trace, boundary, if_true, same]
  rw [Event.Ties, enters]
  refine ⟨?_, ?_, fun pair member => List.mem_append_right _ (tied.among pair member)⟩
  · rw [ids]
    simp only [Run.bound_frames, Run.bound_contexts, Machine.located_frames,
      Machine.located_contexts, Machine.pushedUnit, List.map_cons]
    refine .unit _ own _ ?_ (owner_openChild opens) ⟨List.mem_cons_self, ?_⟩
      (tied.active.mono ?_ fun _ gone => gone)
    · rintro other ⟨⟩
      exact ⟨genuine, boundary.symm⟩
    · exact fun suspension member same => absurd same (new _ enters suspension member)
    · exact fun other _ entry pair => ⟨List.mem_cons_of_mem _ pair.1, pair.2⟩
  · simpa [Event.suspended?] using tied.waiting

theorem ties_entered (tied : run.machine.Tied handles entered suspended)
    (genuine : handles command.id = command) (plain : command.registration = none)
    (current : Context I H) :
    (Event.mk run (.startCommand command ctx) (.ok (some current))
      (Run.bound ⟨(run.machine.pushed command current).located, run.world.logged log⟩ current
        command)).Ties handles entered suspended := by
  have within : command.isBoundary = false := congrArg Option.isSome plain
  refine Event.ties_of_tied ⟨?_, by simpa using tied.waiting, tied.among⟩ ?_ rfl
  · simp only [Run.bound_frames, Run.bound_contexts, Run.bound_trace, Machine.located_frames,
      Machine.located_contexts, Machine.located_trace_ids, Machine.pushed, List.map_cons]
    refine .plain _ ?_ tied.active
    rintro other ⟨⟩
    exact ⟨genuine, within.symm⟩
  · cases trace : (Run.bound ⟨(run.machine.pushed command current).located, run.world.logged log⟩
        current command).machine.trace with
    | nil => simp only [Event.entered?, trace]
    | cons => simp only [Event.entered?, trace, within, Bool.false_eq_true, if_false]

end

section

variable {undone : Run I H} {command : Command} {ctx : Context I H} {keeps : Bool}
  {frame : Frame I H} {rest : List (Frame I H)}

theorem Departs.finds (departs : Departs run call command ctx keeps undone frame rest)
    (tied : run.machine.Tied handles entered suspended)
    (genuine : ∀ command ∈ call.command?, handles command.id = command)
    (unit : command.isBoundary = true) :
    ∃ own, frame.opened = some own ∧ own.isPointer = false ∧ own ∈ run.machine.contexts ∧
      ∃ entry entries, run.machine.trace.map (·.id) = entry :: entries ∧
        (own, entry) ∈ entered ∧ Unmixed suspended own := by
  obtain ⟨-, opened, active, -⟩ := departs.outlines tied genuine
  obtain ⟨own, owns⟩ := Option.isSome_iff_exists.mp (opened.trans unit)
  rw [owns] at active
  exact ⟨own, owns, active.holds⟩

theorem ties_left (departs : Departs run call command ctx keeps undone frame rest)
    (tied : run.machine.Tied handles entered suspended)
    (genuine : ∀ command ∈ call.command?, handles command.id = command)
    (plain : command.isBoundary = false) (world : World I H) :
    (Event.mk run call outcome
      ⟨(undone.machine.droppedFrame keeps frame rest).located, world⟩).Ties handles entered
        suspended := by
  obtain ⟨faithful, opened, active, enters⟩ := departs.outlines tied genuine
  obtain ⟨prefixes, same⟩ := departs.machine
  have alone : frame.opened = none := by simpa [plain] using opened
  rw [alone] at active faithful
  refine Event.ties_of_tied ⟨?_, ?_, tied.among⟩ (enters _ _) (departs.suspends_none alone _ _)
  · have below : Active handles entered suspended (rest.map Frame.outline) run.machine.contexts
      (run.machine.trace.map (·.id)) := active.of_plain
    simpa [same] using below
  · cases keeps with
    | false => simpa [same] using tied.waiting
    | true =>
      have waiting : Waiting handles suspended
          ((frame.kind, none) :: run.machine.suspendedFrames.map Frame.outline)
          run.machine.suspendedContexts (run.machine.suspendedTrace.map (·.id)) :=
        .plain _ faithful tied.waiting
      simpa [same, Frame.outline, alone] using waiting

theorem Departs.tells (departs : Departs run call command ctx keeps undone frame rest)
    (quiet : run.machine.Quiet) (top : Context I H) (outer : List (Context I H))
    (entry : TraceEntry) (entries : List TraceEntry) :
    ∃ told, (((undone.machine.droppedFrame keeps frame rest).droppedContext keeps top
      outer).droppedTrace keeps entry entries).located.current.map some = .ok told := by
  obtain ⟨prefixes, same⟩ := departs.machine
  obtain ⟨global, running⟩ :=
    Option.ne_none_iff_exists'.mp (quiet.running_of_frames departs.frames)
  rw [Machine.located_current]
  cases outer <;> simp [Machine.current, same, running, Except.map]

theorem ties_leftUnit (departs : Departs run call command ctx keeps undone frame rest)
    (tied : run.machine.Tied handles entered suspended) (apart : run.machine.working.Nodup)
    (genuine : ∀ command ∈ call.command?, handles command.id = command)
    (unit : command.isBoundary = true) {top : Context I H} {outer : List (Context I H)}
    (contexts : run.machine.contexts = top :: outer) {entry : TraceEntry}
    {entries : List TraceEntry} (trace : run.machine.trace = entry :: entries)
    (told : Option (Context I H)) (world : World I H) :
    (Event.mk run call (.ok told)
      ⟨(((undone.machine.droppedFrame keeps frame rest).droppedContext keeps top
        outer).droppedTrace keeps entry entries).located, world⟩).Ties handles entered
          suspended := by
  obtain ⟨faithful, -, active, enters⟩ := departs.outlines tied genuine
  obtain ⟨own, owns, owner, member, first, others, same, entered_with, unmixed⟩ :=
    departs.finds tied genuine unit
  obtain ⟨prefixes, undoing⟩ := departs.machine
  rw [trace] at same
  cases same
  rw [Event.Ties, departs.suspends contexts trace, enters, owns]
  rw [owns] at faithful active
  rw [Machine.working, List.append_assoc, List.nodup_append] at apart
  have separate : own ∉ run.machine.suspendedContexts := fun waits =>
    apart.2.2 own member own (List.mem_append_left _ waits) rfl
  have once := apart.1
  rw [contexts] at active once
  rw [trace] at active
  cases keeps with
  | false =>
    have below : Active handles entered suspended (rest.map Frame.outline) outer
      (entries.map (·.id)) := active.leave once fun _ _ _ pair => pair
    refine ⟨?_, ?_, tied.among⟩
    · simpa [undoing] using below
    · simpa [undoing] using tied.waiting
  | true =>
    have below : Active handles entered (⟨own, top, entry.id⟩ :: suspended)
        (rest.map Frame.outline) outer (entries.map (·.id)) :=
      active.leave once fun other _ differs pair =>
        ⟨pair.1, pair.2.cons fun same => absurd same.symm differs⟩
    have waiting := tied.waiting.suspend faithful owner separate unmixed top entry.id
    refine ⟨?_, ?_, ?_⟩
    · simpa [undoing] using below
    · simpa [undoing, Frame.outline, owns] using waiting
    · rintro other (_ | ⟨_, older⟩)
      · exact entered_with
      · exact tied.among other older

end

section

variable {command : Command} {ctx : Context I H} {frame : Frame I H} {rest : List (Frame I H)}
  {log : List LogEntry}

theorem Resumes.waiting (resumes : Resumes run command ctx frame rest)
    (tied : run.machine.Tied handles entered suspended) (genuine : handles command.id = command) :
    Waiting handles suspended ((frame.kind, frame.opened) :: rest.map Frame.outline)
        run.machine.suspendedContexts (run.machine.suspendedTrace.map (·.id)) ∧
      Faithful handles frame.kind frame.opened ∧ frame.opened.isSome = command.isBoundary := by
  have waiting := tied.waiting
  rw [resumes.frames, List.map_cons, Frame.outline] at waiting
  have faithful : Faithful handles frame.kind frame.opened := waiting.head.1
  exact ⟨waiting, faithful, opened_of_own faithful resumes.own genuine⟩

theorem Resumes.own_iff (resumes : Resumes run command ctx frame rest)
    (tied : run.machine.Tied handles entered suspended) (genuine : handles command.id = command)
    {own top : Context I H} (owns : frame.opened = some own) {outer : List (Context I H)}
    (contexts : run.machine.suspendedContexts = top :: outer) {entry : TraceEntry}
    {entries : List TraceEntry} (trace : run.machine.suspendedTrace = entry :: entries) :
    (top = own ↔ top.isPointer = false ∧ Unmixed suspended own) ∧
      (top = own → own.isPointer = false ∧ SetAside suspended own entry.id ∧
        Waiting handles suspended (rest.map Frame.outline) outer (entries.map (·.id))) := by
  obtain ⟨waiting, faithful, -⟩ := resumes.waiting tied genuine
  rw [owns, contexts, trace] at waiting
  have owner : own.isPointer = false := by
    obtain ⟨-, -, -, -, -, ⟨alone, -⟩ | ⟨other, same, owner, -⟩⟩ := waiting.head
    · cases alone
    · cases same
      exact owner
  have finds (view : top.isPointer = false) :
      top = own ∧ SetAside suspended own entry.id ∧
          Waiting handles suspended (rest.map Frame.outline) outer (entries.map (·.id)) ∨
        ¬ Unmixed suspended own ∧ own ∉ top :: outer :=
    waiting.uncons (by simp [view])
  have right (same : top = own) : SetAside suspended own entry.id ∧
      Waiting handles suspended (rest.map Frame.outline) outer (entries.map (·.id)) := by
    cases same
    rcases finds owner with ⟨-, found⟩ | ⟨-, absent⟩
    · exact found
    · exact absurd List.mem_cons_self absent
  refine ⟨⟨fun same => ?_, ?_⟩, fun same => ⟨owner, right same⟩⟩
  · rw [same]
    exact ⟨owner, (right same).1.2⟩
  · rintro ⟨view, unmixed⟩
    rcases finds view with ⟨same, -⟩ | ⟨mixed, -⟩
    · exact same
    · exact absurd unmixed mixed

theorem ties_resumed (resumes : Resumes run command ctx frame rest)
    (tied : run.machine.Tied handles entered suspended) (genuine : handles command.id = command)
    (plain : command.isBoundary = false) (current : Context I H) :
    (Event.mk run (.startPostProcess command ctx) (.ok (some current))
      (Run.bound ⟨((run.machine.resumedFrame frame rest).located).marked current,
        run.world.logged log⟩ current command)).Ties handles entered suspended := by
  obtain ⟨waiting, faithful, opened⟩ := resumes.waiting tied genuine
  have alone : frame.opened = none := by simpa [plain] using opened
  rw [alone] at faithful waiting
  have below : Waiting handles suspended (rest.map Frame.outline) run.machine.suspendedContexts
    (run.machine.suspendedTrace.map (·.id)) := waiting.of_plain
  have active : Active handles entered suspended
      ((frame.kind, none) :: run.machine.frames.map Frame.outline) run.machine.contexts
      (run.machine.trace.map (·.id)) := .plain _ faithful tied.active
  refine Event.ties_of_tied ⟨?_, by simpa using below, tied.among⟩ rfl rfl
  simp only [Run.bound_frames, Machine.marked_outlines]
  simpa [Frame.outline, alone] using active

theorem ties_resumedUnit (resumes : Resumes run command ctx frame rest)
    (tied : run.machine.Tied handles entered suspended) (genuine : handles command.id = command)
    {own top : Context I H} (owns : frame.opened = some own) {outer : List (Context I H)}
    (contexts : run.machine.suspendedContexts = top :: outer) {entry : TraceEntry}
    {entries : List TraceEntry} (trace : run.machine.suspendedTrace = entry :: entries)
    (right : top = own) :
    (Event.mk run (.startPostProcess command ctx) (.ok (some top))
      (Run.bound ⟨((((run.machine.resumedFrame frame rest).resumedContext top
        outer).resumedTrace entry entries).located).marked top, run.world.logged log⟩ top
          command)).Ties handles entered suspended := by
  obtain ⟨-, faithful, -⟩ := resumes.waiting tied genuine
  obtain ⟨-, finds⟩ := resumes.own_iff tied genuine owns contexts trace
  obtain ⟨owner, ⟨⟨suspension, member, rfl, same⟩, unmixed⟩, below⟩ := finds right
  cases right
  rw [owns] at faithful
  have active : Active handles entered suspended
      ((frame.kind, some suspension.own) :: run.machine.frames.map Frame.outline)
      (suspension.own :: run.machine.contexts) (entry.id :: run.machine.trace.map (·.id)) :=
    .unit _ _ _ faithful owner ⟨same ▸ tied.among suspension member, unmixed⟩ tied.active
  refine Event.ties_of_tied ⟨?_, by simpa using below, tied.among⟩ rfl rfl
  simp only [Run.bound_frames, Machine.marked_outlines]
  simpa [Frame.outline, owns] using active

end

theorem ties_viewLeft {ctx top : Context I H} {keeps : Bool} {outer : List (Context I H)}
    (tied : run.machine.Tied handles entered suspended)
    (unviews : call.unviewing = some (ctx, keeps)) (pointer : top.isPointer = true)
    (contexts : run.machine.contexts = top :: outer) (world : World I H) :
    (Event.mk run call outcome ⟨run.machine.droppedContext keeps top outer, world⟩).Ties handles
      entered suspended := by
  have active := tied.active
  rw [contexts] at active
  refine Event.ties_of_tied ⟨active.of_view pointer, ?_, tied.among⟩ ?_ ?_
  · cases keeps with
    | false => exact tied.waiting
    | true => exact .between _ pointer tied.waiting
  · rcases Call.of_unviewing unviews with ⟨rfl, -⟩ | ⟨rfl, -⟩ <;> rfl
  · rcases Call.of_unviewing unviews with ⟨rfl, -⟩ | ⟨rfl, -⟩ <;> rfl

theorem Resumes.resumed (resumes : Resumes run command ctx frame rest)
    (told : Option (Context I H)) :
    (Event.mk run (.startPostProcess command ctx) (.ok told) run').resumed? = frame.opened := by
  simp only [Event.resumed?, resumes.frames]

theorem Call.unviewing_top {ctx top : Context I H} {keeps : Bool} {outer : List (Context I H)}
    (unviews : call.unviewing = some (ctx, keeps)) (here : run.At ctx)
    (contexts : run.machine.contexts = top :: outer)
    (stacked : ∀ ctx ∈ call.context?, ∀ top, run.machine.current = .ok top →
      top.same ctx = true → top = ctx) : top = ctx := by
  have named : ctx ∈ call.context? := by
    rcases of_unviewing unviews with ⟨rfl, -⟩ | ⟨rfl, -⟩ <;> rfl
  obtain ⟨current, now, same⟩ := here
  rw [Machine.current_of_top contexts] at now
  cases now
  exact stacked ctx named top (Machine.current_of_top contexts) same

/-- What a call does keeps the stacks together, unless it resumes a filter with a view on top, or
one that was suspended with another context than its own. -/
theorem Effect.tied (effect : Effect run call outcome run')
    (tied : run.machine.Tied handles entered suspended) (quiet : run.machine.Quiet)
    (apart : run.machine.working.Nodup)
    (stacked : ∀ ctx ∈ call.context?, ∀ top, run.machine.current = .ok top →
      top.same ctx = true → top = ctx)
    (genuine : ∀ command ∈ call.command?, handles command.id = command)
    (new : ∀ pair, (Event.mk run call outcome run').entered? = some pair →
      ∀ suspension ∈ suspended, suspension.own ≠ pair.1)
    (untangled : ∀ own, (Event.mk run call outcome run').resumed? = some own →
      (∀ top ∈ run.machine.suspendedContexts.head?, top.isPointer = false) ∧
        Unmixed suspended own) :
    (Event.mk run call outcome run').Ties handles entered suspended := by
  cases effect with
  | rejected | unused =>
    refine Event.ties_of_tied tied ?_ ?_
    · cases call <;> rfl
    · cases call <;> rfl
  | begun opens idle =>
    rename_i global world log
    have tied : (run.machine.begun global).Tied handles entered suspended :=
      ⟨.plain .global nofun tied.active, tied.waiting, tied.among⟩
    rcases Call.of_opening opens with ⟨subject, rfl⟩ | ⟨parent, rfl⟩
    · exact Event.ties_of_tied tied rfl rfl
    · exact Event.ties_of_tied tied rfl rfl
  | ended running => exact Event.ties_of_tied ⟨.empty, .empty, tied.among⟩ rfl rfl
  | enteredUnit unit now shallow opens =>
    exact ties_enteredUnit tied (genuine _ rfl) unit opens rfl new
  | entered plain => exact ties_entered tied (genuine _ rfl) plain _
  | left departs plain => exact ties_left departs tied genuine plain _
  | leftUnit departs unit contexts trace =>
    rename_i command ctx keeps undone frame rest top outer entry entries log
    obtain ⟨told, goes⟩ := departs.tells quiet top outer entry entries
    rw [goes]
    exact ties_leftUnit departs tied apart genuine unit contexts trace told _
  | tornContext departs unit contexts =>
    obtain ⟨own, -, -, member, -⟩ := departs.finds tied genuine unit
    rw [contexts] at member
    cases member
  | tornTrace departs unit contexts trace =>
    obtain ⟨own, -, -, -, entry, entries, there, -⟩ := departs.finds tied genuine unit
    rw [trace] at there
    cases there
  | resumed resumes plain => exact ties_resumed resumes tied (genuine _ rfl) plain _
  | resumedUnit resumes unit contexts trace =>
    obtain ⟨-, -, opened⟩ := resumes.waiting tied (genuine _ rfl)
    obtain ⟨own, owns⟩ := Option.isSome_iff_exists.mp (opened.trans unit)
    obtain ⟨views, unmixed⟩ := untangled own ((resumes.resumed _).trans owns)
    have right := (resumes.own_iff tied (genuine _ rfl) owns contexts trace).1.mpr
      ⟨views _ (by rw [contexts]; rfl), unmixed⟩
    exact ties_resumedUnit resumes tied (genuine _ rfl) owns contexts trace right
  | viewed here opens =>
    exact Event.ties_of_tied ⟨.between _ trivial tied.active, tied.waiting, tied.among⟩ rfl rfl
  | viewLeft unviews here pointer contexts =>
    cases Call.unviewing_top unviews here contexts stacked
    exact ties_viewLeft tied unviews pointer contexts _
  | viewResumed here pointer contexts =>
    have waiting := tied.waiting
    rw [contexts] at waiting
    exact Event.ties_of_tied
      ⟨.between _ trivial tied.active, waiting.of_view pointer, tied.among⟩ rfl rfl
  | thrown frames own =>
    have active := tied.active
    rw [frames] at active
    exact Event.ties_of_tied ⟨active, tied.waiting, tied.among⟩ rfl rfl
  | handled frames =>
    exact Event.ties_of_tied ⟨tied.active, tied.waiting, tied.among⟩ rfl rfl

end

end CommandChain
