import CommandChain.Proofs.Machine.Passage

/-!
Whose prefixes are bound. The prefix stack counts a command that is entered again on one context
instead of pushing it again. Unrolled, it lists the frames in use whose commands declare prefixes,
one by one and in their order, each with the context it was last entered with.
-/
namespace CommandChain

variable {I H : Type}

/-- For whom prefixes are bound, innermost first, each as often as it was entered. -/
def PrefixStack.unrolled (stack : PrefixStack I H) : List (Context I H × Command) :=
  stack.flatMap fun frame => List.replicate (frame.reentries + 1) (frame.context, frame.command)

/-- The context and the command that a frame was entered with, if the command declares prefixes. -/
def binding? : FrameKind × Context I H → Option (Context I H × Command)
  | (.command command, ctx) => command.mappings.map fun _ => (ctx, command)
  | (.global, _) => none

/-- Whether the prefix stack lists the frames in use whose commands declare prefixes. -/
def Machine.Mirrors (m : Machine I H) : Prop :=
  m.prefixes.unrolled = m.entries.filterMap binding?

/-- Whether an event that puts a frame on top does so with the context that it tells and makes
current, and one that does not leaves what the frames below were entered with. -/
def Event.Tracks (event : Event I H) : Prop :=
  (∃ kind told, event.outcome = .ok (some told) ∧ event.after.machine.current = .ok told ∧
    event.after.machine.entries = (kind, told) :: event.before.machine.entries) ∨
  event.after.machine.entries <:+ event.before.machine.entries

theorem Event.Passage.tracks {event : Event I H} (passage : event.Passage) : event.Tracks := by
  cases passage with
  | stays entries =>
    rw [Event.Tracks, entries]
    exact .inr List.suffix_rfl
  | begins global _ tells now entries => exact .inl ⟨_, global, tells, now, entries⟩
  | ends entries =>
    rw [Event.Tracks, entries]
    exact .inr (List.nil_suffix)
  | enters command told _ _ tells now entries => exact .inl ⟨_, told, tells, now, entries⟩
  | leaves _ _ _ _ _ _ entries =>
    rw [Event.Tracks, entries]
    exact .inr (List.suffix_cons _ _)

section

variable {run undone : Run I H} {ctx : Context I H} {command : Command}

theorem binding_command (command : Command) (ctx : Context I H) :
    binding? (.command command, ctx) = command.mappings.map fun _ => (ctx, command) := rfl

theorem binding_some {entry : FrameKind × Context I H}
    (bound : binding? entry = some (ctx, command)) : entry = (.command command, ctx) := by
  obtain ⟨kind, here⟩ := entry
  cases kind with
  | global => cases bound
  | command other =>
    rw [binding_command] at bound
    cases mappings : other.mappings with
    | none =>
      rw [mappings] at bound
      cases bound
    | some bindings =>
      rw [mappings] at bound
      cases bound
      rfl

theorem unrolled_cons (top : PrefixFrame I H) (rest : PrefixStack I H) :
    PrefixStack.unrolled (top :: rest) =
      List.replicate (top.reentries + 1) (top.context, top.command) ++ rest.unrolled := rfl

theorem mem_unrolled (top : PrefixFrame I H) (rest : PrefixStack I H) :
    (top.context, top.command) ∈ PrefixStack.unrolled (top :: rest) := by
  rw [unrolled_cons]
  exact List.mem_append_left _ (List.mem_replicate.mpr ⟨Nat.succ_ne_zero _, rfl⟩)

theorem unrolled_bound (run : Run I H) (own : ∀ top rest, run.machine.prefixes = top :: rest →
      top.isFor ctx command = true → top.context = ctx ∧ top.command = command) :
    (run.bound ctx command).machine.prefixes.unrolled =
      (binding? (.command command, ctx)).toList ++ run.machine.prefixes.unrolled := by
  rw [binding_command]
  rcases run.bound_cases ctx command with
    ⟨silent, same⟩ | ⟨mappings, declares, ⟨top, rest, stack, again, same⟩ | ⟨text, same⟩⟩
  · rw [silent, same]
    rfl
  · obtain ⟨here, named⟩ := own top rest stack again
    rw [declares, same, stack, unrolled_cons, unrolled_cons, ← here, ← named]
    rfl
  · rw [declares, same]
    rfl

theorem unrolled_unbound (undoes : run.unbound ctx command = .ok undone) :
    ∃ gone, run.machine.prefixes.unrolled = gone ++ undone.machine.prefixes.unrolled ∧
      gone.length = command.mappings.toList.length := by
  rcases Run.unbound_cases undoes with ⟨silent, rfl⟩ |
    ⟨mappings, top, rest, declares, stack, ⟨again, entered, rfl⟩ | ⟨once, rfl⟩⟩
  · exact ⟨[], rfl, by rw [silent]; rfl⟩
  · refine ⟨[(top.context, top.command)], ?_, by rw [declares]; rfl⟩
    rw [stack, unrolled_cons, unrolled_cons, entered]
    rfl
  · refine ⟨[(top.context, top.command)], ?_, by rw [declares]; rfl⟩
    rw [stack, unrolled_cons, once]
    rfl

end

/-! ### Events -/

section

variable {handles : Nat → Command} {event : Event I H} {known : List (Context I H)}

theorem length_binding (command : Command) (ctx : Context I H) :
    (binding? (.command command, ctx)).toList.length = command.mappings.toList.length := by
  rw [binding_command]
  cases command.mappings <;> rfl

/-- What an event does with frames and prefixes keeps the prefix stack a mirror of the frames, if
contexts that are taken for the same are one. -/
theorem Event.Passage.mirrors (passage : event.Passage) (mirrors : event.before.machine.Mirrors)
    (handled : ∀ entry ∈ event.before.machine.entries, ∀ command,
      entry.1 = .command command → handles command.id = command)
    (genuine : ∀ command ∈ event.call.command?, handles command.id = command)
    (same : ∀ entry ∈ event.before.machine.entries, ∀ told, event.outcome = .ok (some told) →
      entry.2.same told = true → entry.2 = told) : event.after.machine.Mirrors := by
  unfold Machine.Mirrors at mirrors ⊢
  cases passage with
  | stays entries prefixes => rw [entries, prefixes, mirrors]
  | begins global _ _ _ entries prefixes =>
    rw [entries, prefixes, mirrors]
    rfl
  | ends entries prefixes =>
    rw [entries, prefixes]
    rfl
  | enters command told middle named tells _ entries prefixes _ _ _ binds =>
    -- What lies on top was pushed for a frame in use, so what it is taken for, it is.
    have own (top : PrefixFrame I H) (rest : PrefixStack I H)
        (stack : middle.machine.prefixes = top :: rest) (taken : top.isFor told command = true) :
        top.context = told ∧ top.command = command := by
      have member := mem_unrolled top rest
      rw [← stack, prefixes, mirrors] at member
      obtain ⟨entry, among, bound⟩ := List.mem_filterMap.mp member
      rw [binding_some bound] at among
      simp only [PrefixFrame.isFor, Bool.and_eq_true, Command.same, decide_eq_true_eq] at taken
      refine ⟨same _ among told tells taken.1, ?_⟩
      rw [← handled _ among top.command rfl, taken.2, genuine command named]
    rw [entries, binds, unrolled_bound middle own, prefixes, mirrors, List.filterMap_cons]
    cases binding? (.command command, told) <;> rfl
  | leaves command ctx entered undone named undoes entries prefixes =>
    obtain ⟨gone, unrolled, length⟩ := unrolled_unbound undoes
    have split : event.before.machine.entries.filterMap binding? =
        (binding? (.command command, entered)).toList ++
          event.after.machine.entries.filterMap binding? := by
      rw [entries, List.filterMap_cons]
      cases binding? (.command command, entered) <;> rfl
    -- As many are taken off as the frame on top has put there.
    rw [mirrors, split] at unrolled
    rw [prefixes]
    exact ((List.append_inj unrolled ((length_binding command entered).trans length.symm)).2).symm

theorem Event.Passage.entered (passage : event.Passage) :
    ∀ entry ∈ event.after.machine.entries,
      entry ∈ event.before.machine.entries ∨ event.outcome = .ok (some entry.2) := by
  intro entry member
  rcases passage.tracks with ⟨kind, told, tells, -, entries⟩ | suffix
  · rw [entries] at member
    rcases List.mem_cons.mp member with rfl | older
    · exact .inr tells
    · exact .inl older
  · exact .inl (suffix.subset member)

end

theorem Machine.Framed.handled {handles : Nat → Command} {m : Machine I H}
    (framed : m.Framed handles) : ∀ entry ∈ m.entries, ∀ command,
      entry.1 = .command command → handles command.id = command := by
  intro entry member command kind
  obtain ⟨frame, among, rfl⟩ := List.mem_map.mp member
  have faithful := framed.faithful frame.outline
    (List.mem_append_left _ (List.mem_map_of_mem among))
  exact (faithful command kind).1

namespace Session

variable {handles : Nat → Command} {s : Session I H}

theorem Reached.passage (reached : Reached (Genuine handles) s) {call : Call I H}
    (genuine : s.Genuine handles (.calls call)) :
    (Event.mk s.run call (call.perform s.run).1 (call.perform s.run).2).Passage :=
  (Machine.perform_effect s.run call).passage reached.framed reached.quiet genuine.2
    reached.genuine_housed.working

theorem Reached.entered (reached : Reached (Genuine handles) s) :
    ∀ entry ∈ s.run.machine.entries, entry.2 ∈ s.known := by
  refine reached.induct
    (motive := fun s => ∀ entry ∈ s.run.machine.entries, entry.2 ∈ s.known) ?_ ?_
  · exact fun _ _ _ entry member => absurd member List.not_mem_nil
  · intro s interaction reached entered genuine entry member
    cases interaction with
    | asks request => exact List.mem_append_right _ (entered entry member)
    | calls call =>
      rcases (reached.passage genuine).entered entry member with older | tells
      · exact List.mem_append_right _ (entered entry older)
      · exact told_known tells

/-- The prefix stack lists the frames in use whose commands declare prefixes, each with the context
that was current when it was last entered. -/
theorem Reached.mirrors (reached : Reached (Genuine handles) s) : s.run.machine.Mirrors := by
  refine reached.induct (motive := fun s => s.run.machine.Mirrors) ?_ ?_
  · exact fun _ _ _ => rfl
  · intro s interaction reached mirrors genuine
    cases interaction with
    | asks request => exact mirrors
    | calls call =>
      have after := reached.genuine_housed.after genuine.1
      refine (reached.passage genuine).mirrors mirrors reached.framed.handled genuine.2 ?_
      intro entry member told tells same
      have older : entry.2 ∈ (s.called call).known :=
        List.mem_append_right _ (reached.entered entry member)
      exact after.handles.unique entry.2 older told (told_known tells) same

theorem Reached.tracks (reached : Reached (Genuine handles) s) :
    ∀ event ∈ s.history, event.Tracks := by
  refine reached.induct (motive := fun s => ∀ event ∈ s.history, event.Tracks) ?_ ?_
  · exact fun _ _ _ event member => absurd member List.not_mem_nil
  · intro s interaction reached tracks genuine
    cases interaction with
    | asks request => exact tracks
    | calls call =>
      rintro event (_ | ⟨_, older⟩)
      · exact (reached.passage genuine).tracks
      · exact tracks event older

end Session
end CommandChain
