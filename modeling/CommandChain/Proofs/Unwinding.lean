import CommandChain.Proofs.FailureReport
import CommandChain.Proofs.PrefixMirror
import Mathlib.Logic.Function.Iterate

/-!
How prefixes come back. Seen from one prefix of one layer, a binding is taken back by a step that
counts the top of the prefix stack down or puts back what it replaced. As many such steps as
bindings lie above the frames that were there lead back to what the layer said when those frames
were on top, whatever frames, views and other commands bind and undo on the layer meanwhile.
-/
namespace CommandChain

variable {I H : Type}

/-- What a layer says about a prefix: a uri, that it is masked, or nothing. -/
def World.said (w : World I H) (layer : Nat) (name : String) : Option Binding :=
  OrderedMap.find? (w.layers.get layer) name

/-- Takes back the last binding of prefixes, as far as one prefix of one layer goes. -/
def PrefixStack.stepBack (layer : Nat) (name : String) :
    PrefixStack I H × Option Binding → PrefixStack I H × Option Binding
  | ([], said) => ([], said)
  | (top :: rest, said) =>
    match top.reentries with
    | again + 1 => ({ top with reentries := again } :: rest, said)
    | 0 => (rest, if top.context.namespaces.layer = layer then
        (OrderedMap.find? top.replaced name).getD said else said)

/-- The prefix stack, and what a layer says about a prefix under it. -/
def Run.saying (run : Run I H) (layer : Nat) (name : String) :
    PrefixStack I H × Option Binding :=
  (run.machine.prefixes, run.world.said layer name)

/-- How many of the commands that frames were entered for declare prefixes. -/
def declared (entries : List (FrameKind × Context I H)) : Nat :=
  (entries.filterMap binding?).length

theorem declared_cons (command : Command) (ctx : Context I H)
    (entries : List (FrameKind × Context I H)) :
    declared ((.command command, ctx) :: entries) =
      declared entries + command.mappings.toList.length := by
  unfold declared
  rw [List.filterMap_cons, binding_command]
  cases command.mappings <;> rfl

section

variable {w : World I H} {run undone : Run I H} {ctx : Context I H} {command : Command}
  (layer : Nat) (name : String)

theorem said_restoreBindings (once : (w.layers.get ctx.namespaces.layer).keys.Nodup)
    (snapshot : Snapshot) : (w.restoreBindings ctx snapshot).said layer name =
      if ctx.namespaces.layer = layer then (OrderedMap.find? snapshot name).getD (w.said layer name)
      else w.said layer name := by
  simp only [World.said, World.restoreBindings, Namespaces.restore, get_set_layer]
  split
  · rename_i same
    subst same
    exact Namespaces.find?_restoreLayer once snapshot name
  · rfl

theorem said_overrideBindings (w : World I H) (ctx : Context I H)
    (mappings : List (String × String)) :
    (if ctx.namespaces.layer = layer then
      (OrderedMap.find? (w.overrideBindings ctx mappings).1 name).getD
        ((w.overrideBindings ctx mappings).2.said layer name)
      else (w.overrideBindings ctx mappings).2.said layer name) = w.said layer name := by
  simp only [World.said, World.overrideBindings, Namespaces.applyOverride, get_set_layer]
  split
  · rename_i same
    subst same
    exact Namespaces.find?_overrideLayer _ mappings name
  · rfl

theorem stepBack_bound (run : Run I H) (ctx : Context I H) (command : Command) :
    (PrefixStack.stepBack layer name)^[command.mappings.toList.length]
      ((run.bound ctx command).saying layer name) = run.saying layer name := by
  rcases run.bound_cases ctx command with
    ⟨silent, same⟩ | ⟨mappings, declares, ⟨top, rest, stack, again, same⟩ | ⟨text, same⟩⟩
  · rw [silent, same]
    rfl
  · rw [declares, same, Run.saying, Run.saying, stack]
    rfl
  · rw [declares, same]
    exact congrArg (Prod.mk _) (said_overrideBindings layer name run.world ctx mappings)

theorem stepBack_unbound (tidy : run.world.layers.Tidy)
    (undoes : run.unbound ctx command = .ok undone) :
    (PrefixStack.stepBack layer name)^[command.mappings.toList.length] (run.saying layer name) =
      undone.saying layer name := by
  rcases Run.unbound_cases undoes with ⟨silent, rfl⟩ |
    ⟨mappings, top, rest, declares, stack, ⟨again, entered, rfl⟩ | ⟨once, rfl⟩⟩
  · rw [silent]
    rfl
  · rw [declares, Run.saying, stack]
    simp [PrefixStack.stepBack, entered, Run.saying]
  · have restored := said_restoreBindings layer name
      (tidy.once top.context.namespaces.layer) top.replaced
    rw [declares, Run.saying, stack]
    simp [PrefixStack.stepBack, once, Run.saying, restored]

end

/-! ### Layers in order -/

section

variable {run undone : Run I H} {ctx : Context I H} {command : Command} {event : Event I H}

theorem tidy_bound (tidy : run.world.layers.Tidy)
    (inside : ctx.namespaces.layer < run.world.layers.next) (command : Command) :
    (run.bound ctx command).world.layers.Tidy := by
  rcases run.bound_cases ctx command with
    ⟨-, same⟩ | ⟨mappings, -, ⟨top, rest, -, -, same⟩ | ⟨text, same⟩⟩
  · rwa [same]
  · rwa [same]
  · rw [same]
    exact tidy.set inside (Namespaces.nodup_overrideLayer (tidy.once _) mappings)

theorem tidy_unbound (tidy : run.world.layers.Tidy)
    (inside : ∀ top rest, run.machine.prefixes = top :: rest →
      top.context.namespaces.layer < run.world.layers.next)
    (undoes : run.unbound ctx command = .ok undone) : undone.world.layers.Tidy := by
  rcases Run.unbound_cases undoes with ⟨-, rfl⟩ |
    ⟨mappings, top, rest, -, stack, ⟨again, -, rfl⟩ | ⟨-, rfl⟩⟩
  · exact tidy
  · exact tidy
  · exact tidy.set (inside top rest stack) (Namespaces.nodup_restoreLayer (tidy.once _) _)

theorem Event.Passage.tidy (passage : event.Passage) (tidy : event.before.world.layers.Tidy)
    (mirrors : event.before.machine.Mirrors)
    (inside : ∀ entry ∈ event.before.machine.entries,
      entry.2.namespaces.layer < event.before.world.layers.next) :
    event.after.world.layers.Tidy := by
  cases passage with
  | stays _ _ layers => exact layers.tidy tidy
  | begins _ _ _ _ _ _ layers => exact layers.tidy tidy
  | ends _ _ layers => rwa [layers]
  | enters command told middle _ _ _ _ _ layers inside _ binds =>
    rw [binds]
    exact tidy_bound (layers.tidy tidy) inside command
  | leaves command ctx entered undone _ undoes _ _ layers =>
    rw [layers]
    refine tidy_unbound tidy (fun top rest stack => ?_) undoes
    have member := mem_unrolled top rest
    rw [← stack, mirrors] at member
    obtain ⟨entry, among, bound⟩ := List.mem_filterMap.mp member
    have within := inside entry among
    rwa [binding_some bound] at within

end

namespace Session

variable {handles : Nat → Command} {s : Session I H}

theorem Reached.tidy (reached : Reached (Genuine handles) s) : s.run.world.layers.Tidy := by
  refine reached.induct (motive := fun s => s.run.world.layers.Tidy) ?_ ?_
  · exact fun _ _ _ => .empty
  · intro s interaction reached tidy genuine
    have housed := reached.genuine_housed
    cases interaction with
    | calls call =>
      exact (reached.passage genuine).tidy tidy reached.mirrors fun entry member =>
        (housed.handles.houses entry.2 (reached.entered entry member)).layer
    | asks request =>
      by_cases binds : ∃ ctx name uri, request = .bind ctx name uri
      · obtain ⟨ctx, name, uri, rfl⟩ := binds
        exact tidy.set (housed.handles.houses ctx (genuine.1 ctx rfl)).layer
          (OrderedMap.nodup_insert (tidy.once _) name _)
      · have spares := request.spares s.run.world
          fun ctx name uri same => binds ⟨ctx, name, uri, same⟩
        exact spares.layers.tidy tidy

end Session

/-! ### Frames above -/

/-- Whether a run has the frames in use that another has, and as many steps back as the frames above
them declare lead to what a layer says about a prefix in the other. -/
def Run.Unwinds (start run : Run I H) (layer : Nat) (name : String) : Prop :=
  ∃ above, run.machine.entries = above ++ start.machine.entries ∧
    (PrefixStack.stepBack layer name)^[declared above] (run.saying layer name) =
      start.saying layer name

section

variable {start run run' middle : Run I H} {layer : Nat} {name : String} {event : Event I H}

theorem Run.Unwinds.refl (start : Run I H) (layer : Nat) (name : String) :
    start.Unwinds start layer name := ⟨[], rfl, rfl⟩

theorem Run.Unwinds.same (unwinds : start.Unwinds run layer name)
    (entries : run'.machine.entries = run.machine.entries)
    (prefixes : run'.machine.prefixes = run.machine.prefixes)
    (said : run'.world.said layer name = run.world.said layer name) :
    start.Unwinds run' layer name := by
  obtain ⟨above, stacked, back⟩ := unwinds
  refine ⟨above, entries.trans stacked, ?_⟩
  rw [Run.saying, prefixes, said]
  exact back

theorem Run.Unwinds.bound (unwinds : start.Unwinds run layer name) {command : Command}
    {told : Context I H} (binds : run' = middle.bound told command)
    (entries : run'.machine.entries = (.command command, told) :: run.machine.entries)
    (prefixes : middle.machine.prefixes = run.machine.prefixes)
    (said : middle.world.said layer name = run.world.said layer name) :
    start.Unwinds run' layer name := by
  obtain ⟨above, stacked, back⟩ := unwinds
  refine ⟨(.command command, told) :: above, by rw [entries, stacked]; rfl, ?_⟩
  rw [declared_cons, Function.iterate_add_apply, binds, stepBack_bound, Run.saying, prefixes, said]
  exact back

theorem Run.Unwinds.unbound (unwinds : start.Unwinds run layer name) {command : Command}
    {ctx entered : Context I H} {undone : Run I H} (tidy : run.world.layers.Tidy)
    (undoes : run.unbound ctx command = .ok undone)
    (entries : run.machine.entries = (.command command, entered) :: run'.machine.entries)
    (deeper : start.machine.entries.length < run.machine.entries.length)
    (prefixes : run'.machine.prefixes = undone.machine.prefixes)
    (layers : run'.world.layers = undone.world.layers) : start.Unwinds run' layer name := by
  obtain ⟨above, stacked, back⟩ := unwinds
  cases above with
  | nil => exact absurd (congrArg List.length stacked) (Nat.ne_of_gt deeper)
  | cons top above =>
    rw [entries] at stacked
    obtain ⟨rfl, below⟩ := List.cons.inj stacked
    rw [declared_cons, Function.iterate_add_apply, stepBack_unbound layer name tidy undoes] at back
    refine ⟨above, below, ?_⟩
    rw [Run.saying, World.said, prefixes, layers]
    exact back

/-- What an event does above the frames of a run leaves them, and what leads back to it. -/
theorem Event.Passage.unwinds (passage : event.Passage)
    (unwinds : start.Unwinds event.before layer name) (tidy : event.before.world.layers.Tidy)
    (running : event.before.machine.isRunning = true)
    (inside : layer < event.before.world.layers.next) (based : start.machine.entries ≠ [])
    (deeper : start.machine.entries.length < event.before.machine.entries.length)
    (left : start.machine.entries.length ≤ event.after.machine.entries.length) :
    start.Unwinds event.after layer name := by
  have said {w : World I H} (layers : event.before.world.layers.Grows w.layers) :
      w.said layer name = event.before.world.said layer name := by
    rw [World.said, layers.same layer inside, World.said]
  cases passage with
  | stays entries prefixes layers => exact unwinds.same entries prefixes (said layers)
  | begins _ idle =>
    rw [running] at idle
    cases idle
  | ends entries =>
    rw [entries] at left
    exact absurd (List.length_eq_zero_iff.mp (Nat.le_zero.mp left)) based
  | enters command told middle _ _ _ entries prefixes layers _ _ binds =>
    exact unwinds.bound binds entries prefixes (said layers)
  | leaves command ctx entered undone _ undoes entries prefixes layers =>
    exact unwinds.unbound tidy undoes entries deeper prefixes layers

theorem Request.said {request : Request I H} {w : World I H} (inside : layer < w.layers.next)
    (spared : ∀ ctx uri, request = .bind ctx name uri → ctx.namespaces.layer ≠ layer) :
    (request.perform w).2.said layer name = w.said layer name := by
  by_cases binds : ∃ ctx other uri, request = .bind ctx other uri
  · obtain ⟨ctx, other, uri, rfl⟩ := binds
    change OrderedMap.find? ((w.layers.set _ _).get layer) name = _
    rw [get_set_layer]
    split
    · rename_i here
      have differ : other ≠ name := by
        rintro rfl
        exact spared ctx uri rfl here
      rw [here]
      exact OrderedMap.find?_insert_of_ne _ _ differ
    · rfl
  · have spares := request.spares w fun ctx other uri same => binds ⟨ctx, other, uri, same⟩
    rw [World.said, spares.layers.same layer inside, World.said]

theorem Effect.entering {call : Call I H} {outcome : Except ExecutionError (Option (Context I H))}
    (effect : Effect run call outcome run') {told : Context I H} (tells : outcome = .ok (some told))
    (enters : ∃ command ctx, call = .startCommand command ctx ∨
      call = .startPostProcess command ctx) :
    (∃ current, run.machine.current = .ok current) ∧
      run'.machine.entries.length = run.machine.entries.length + 1 := by
  obtain ⟨command, ctx, rfl | rfl⟩ := enters
  · cases effect with
    | rejected => cases tells
    | unused opens | begun opens => cases opens
    | enteredUnit unit now | entered plain now =>
      exact ⟨⟨_, now⟩, by simp [Machine.entries_length]⟩
    | left departs | leftUnit departs | tornContext departs | tornTrace departs =>
      cases departs.departure
    | viewLeft unviews => cases unviews
  · cases effect with
    | rejected => cases tells
    | unused opens | begun opens => cases opens
    | resumed resumes | resumedUnit resumes =>
      obtain ⟨current, now, -⟩ := resumes.here
      exact ⟨⟨_, now⟩, by simp [Machine.entries_length, Machine.marked_length]⟩
    | left departs | leftUnit departs | tornContext departs | tornTrace departs =>
      cases departs.departure
    | viewLeft unviews => cases unviews

end

namespace Session

variable {handles : Nat → Command} {s : Session I H}

/-- What may happen while there are frames above the lowest so many: everything, but nobody binds a
certain prefix on a certain layer. -/
def Above (handles : Nat → Command) (depth layer : Nat) (name : String) (s : Session I H)
    (interaction : Interaction I H) : Prop :=
  s.Genuine handles interaction ∧ depth < s.run.machine.frames.length ∧
    ∀ ctx uri, interaction = .asks (.bind ctx name uri) → ctx.namespaces.layer ≠ layer

/-- Whether a call enters a frame, and it stays in use until the last step, while nobody binds a
certain prefix on the layer that it was entered on. -/
structure Stay (handles : Nat → Command) (s : Session I H) (entry : Call I H)
    (entered : Context I H) (name : String) (last : Session I H) : Prop where
  genuine : s.Genuine handles (.calls entry)
  enters : ∃ command ctx, entry = .startCommand command ctx ∨ entry = .startPostProcess command ctx
  tells : (entry.perform s.run).1 = .ok (some entered)
  meanwhile : Leads (Above handles s.run.machine.frames.length entered.namespaces.layer name)
    (s.called entry) last

theorem Reached.running_above (reached : Reached (Genuine handles) s) {depth : Nat}
    (deeper : depth < s.run.machine.entries.length) : s.run.machine.isRunning = true := by
  cases frames : s.run.machine.frames with
  | nil =>
    rw [Machine.entries_length, frames] at deeper
    exact absurd deeper (Nat.not_lt_zero _)
  | cons top rest =>
    exact Option.isSome_iff_ne_none.mpr (reached.quiet.running_of_frames frames)

section

variable {entry : Call I H} {entered : Context I H} {name : String} {last : Session I H}

theorem Stay.unwinds_entry (stay : Stay handles s entry entered name last)
    (reached : Reached (Genuine handles) s) :
    s.run.Unwinds (s.called entry).run entered.namespaces.layer name := by
  obtain ⟨⟨current, now⟩, grows⟩ :=
    (Machine.perform_effect s.run entry).entering stay.tells stay.enters
  have grows : (s.called entry).run.machine.entries.length =
    s.run.machine.entries.length + 1 := grows
  cases reached.passage stay.genuine with
  | stays entries => exact absurd ((congrArg List.length entries).symm.trans grows) (by simp)
  | begins _ idle =>
    exact absurd (by simpa [Machine.isRunning] using idle) (reached.quiet.running_of_current now)
  | ends entries => exact absurd ((congrArg List.length entries).symm.trans grows) (by simp)
  | enters command told middle _ tells _ entries prefixes _ _ unspoken binds =>
    cases stay.tells.symm.trans tells
    refine (Run.Unwinds.refl s.run _ name).bound binds entries prefixes ?_
    exact congrArg (OrderedMap.find? · name) (unspoken reached.tidy)
  | leaves command ctx other undone _ _ entries =>
    have shrinks : s.run.machine.entries.length =
      (s.called entry).run.machine.entries.length + 1 := congrArg List.length entries
    omega

/-- While a frame is in use, as many steps back as bindings were made since it was entered lead to
what was said before. -/
theorem Stay.unwinds (stay : Stay handles s entry entered name last)
    (reached : Reached (Genuine handles) s)
    (there : s.run.machine.frames.length ≤ last.run.machine.frames.length) :
    s.run.Unwinds last.run entered.namespaces.layer name ∧ entered ∈ last.known := by
  have enters := stay.unwinds_entry reached
  obtain ⟨genuine, entering, tells, meanwhile⟩ := stay
  -- Before each step the frame is in use, so there are frames above those of the start.
  induction meanwhile with
  | refl => exact ⟨enters, told_known tells⟩
  | step before above ih =>
    rename_i u interaction
    obtain ⟨genuine', deeper, unbound⟩ := above
    obtain ⟨unwinds, known⟩ := ih (Nat.le_of_lt deeper)
    have through : Reached (Genuine handles) u :=
      (reached.leads (Leads.refl.step genuine)).leads (before.mono fun _ _ above => above.1)
    have inside := (through.genuine_housed.handles.houses entered known).layer
    obtain ⟨⟨current, now⟩, -⟩ := (Machine.perform_effect s.run entry).entering tells entering
    cases interaction with
    | asks request =>
      have spared : ∀ ctx uri, request = .bind ctx name uri →
          ctx.namespaces.layer ≠ entered.namespaces.layer :=
        fun ctx uri same => unbound ctx uri (congrArg Interaction.asks same)
      exact ⟨unwinds.same rfl rfl (Request.said inside spared), List.mem_append_right _ known⟩
    | calls call =>
      rw [← Machine.entries_length, ← Machine.entries_length] at deeper there
      exact ⟨(through.passage genuine').unwinds unwinds through.tidy (through.running_above deeper)
        inside (mt List.map_eq_nil_iff.mp (reached.based (reached.quiet.running_of_current now)))
        deeper there, List.mem_append_right _ known⟩

end

/-- The prefix stack mirrors the frames in use, and every binding comes back: when a frame is left,
the layer that it was entered on says about a prefix what it said before the frame was entered,
unless the prefix was bound there from outside. -/
theorem bindings_given_back (reached : Reached (Genuine handles) s) :
    s.run.machine.Mirrors ∧ (∀ event ∈ s.history, event.Tracks) ∧
      ∀ entry entered name last, Stay handles s entry entered name last →
        last.run.machine.frames.length = s.run.machine.frames.length →
        last.run.world.said entered.namespaces.layer name =
          s.run.world.said entered.namespaces.layer name := by
  refine ⟨reached.mirrors, reached.tracks, fun entry entered name last stay left => ?_⟩
  obtain ⟨⟨above, stacked, back⟩, -⟩ := stay.unwinds reached (Nat.le_of_eq left.symm)
  have none_above : above = [] := by
    have lengths := congrArg List.length stacked
    rw [List.length_append, Machine.entries_length, Machine.entries_length, left] at lengths
    exact List.length_eq_zero_iff.mp (Nat.add_eq_right.mp lengths.symm)
  rw [none_above] at back
  exact congrArg Prod.snd back

/-! ### One prefix bound over and over -/

def outerAlias : Command := (Command.named 0 "a").bind "p" "urn:a"

def innerAlias : Command := (Command.named 1 "b").bind "p" "urn:b"

def aliases (id : Nat) : Command := if id = 0 then outerAlias else innerAlias

/-- A prefix is bound on the context of a run. -/
def aliased : Session Unit Unit :=
  (fresh .empty .standard ()).play
    [.calls (.start (.int 1)), .asks (.bind filterOuter "p" (some "urn:outer"))]

/-- A command that was entered and binds it is entered again, and another within; all are left. -/
def unaliased : Session Unit Unit :=
  (aliased.called (.startCommand outerAlias filterOuter)).play
    [.calls (.startCommand outerAlias filterOuter), .calls (.startCommand innerAlias filterOuter),
      .calls (.endCommand innerAlias filterOuter), .calls (.endCommand outerAlias filterOuter),
      .calls (.endCommand outerAlias filterOuter)]

theorem alias_given_back :
    Reached (Genuine aliases) aliased ∧
      Stay aliases aliased (.startCommand outerAlias filterOuter) filterOuter "p" unaliased ∧
      aliased.run.world.said 0 "p" = some (.bound "urn:outer") ∧
      unaliased.run.world.said 0 "p" = some (.bound "urn:outer") := by
  have about {s : Session Unit Unit} {command : Command} {ctx : Context Unit Unit}
      (known : ctx ∈ s.known) (own : aliases command.id = command) :
      s.Genuine aliases (.calls (.startCommand command ctx)) ∧
        s.Genuine aliases (.calls (.endCommand command ctx)) := by
    constructor
    all_goals
      constructor
      · rintro other ⟨⟩
        exact known
      · rintro other ⟨⟩
        exact own
  have reached : Reached (Genuine aliases) aliased := by
    refine ⟨_, _, _, Permits.leads ⟨⟨nofun, nofun⟩, ⟨?_, nofun⟩, trivial⟩⟩
    rintro ctx ⟨⟩
    exact List.mem_cons_self
  have stay :
      Stay aliases aliased (.startCommand outerAlias filterOuter) filterOuter "p" unaliased := by
    refine ⟨(about List.mem_cons_self rfl).1, ⟨_, _, .inl rfl⟩, rfl, Permits.leads ?_⟩
    exact ⟨⟨(about List.mem_cons_self rfl).1, by decide, nofun⟩,
      ⟨(about List.mem_cons_self rfl).1, by decide, nofun⟩,
      ⟨(about List.mem_cons_self rfl).2, by decide, nofun⟩,
      ⟨(about List.mem_cons_self rfl).2, by decide, nofun⟩,
      ⟨(about List.mem_cons_self rfl).2, by decide, nofun⟩, trivial⟩
  exact ⟨reached, stay, rfl, ((bindings_given_back reached).2.2 _ _ _ _ stay rfl).trans rfl⟩

end Session
end CommandChain
