import CommandChain.Proofs.Machine.Alignment

/-!
What a filter finds when it is resumed. As long as every filter that is resumed was suspended with
its own context, and none is resumed while a view lies on top of the contexts that are suspended,
the context on top belongs to the frame on top, and the trace entry on top is the one that was
suspended with it.
-/
namespace CommandChain

variable {I H : Type}

namespace Session

/-- The contexts that registered commands were entered with, each with its trace entry. -/
def entries (history : List (Event I H)) : List (Context I H × Nat) :=
  history.filterMap Event.entered?

def suspensions (history : List (Event I H)) : List (Suspension I H) :=
  history.filterMap Event.suspended?

/-- Whether something holds of each event of a history together with those before it. -/
def Throughout (holds : List (Event I H) → Event I H → Prop) : List (Event I H) → Prop
  | [] => True
  | event :: older => holds older event ∧ Throughout holds older

end Session

namespace Event

/-- Whether an event, if it resumes a registered filter, tells the context that the filter was
entered with and makes it current, and puts back the trace entry that was suspended with it. -/
def Reinstates (older : List (Event I H)) (event : Event I H) : Prop :=
  ∀ own, event.resumed? = some own →
    event.outcome = .ok (some own) ∧ event.after.machine.current = .ok own ∧
    ∃ entry, (own, entry) ∈ Session.entries older ∧
      event.after.machine.trace.head?.map (·.id) = some entry ∧
      (∃ suspension ∈ Session.suspensions older, suspension.own = own) ∧
      ∀ suspension ∈ Session.suspensions older, suspension.own = own → suspension.entry = entry

/-- Whether an event, if it resumes a registered filter, finds no view on top of the contexts that
are suspended, and the filter was never suspended with another context than its own. -/
def Untangled (older : List (Event I H)) (event : Event I H) : Prop :=
  ∀ own, event.resumed? = some own →
    (∀ top ∈ event.before.machine.suspendedContexts.head?, top.isPointer = false) ∧
      Unmixed (Session.suspensions older) own

end Event

section

variable {handles : Nat → Command} {run run' : Run I H} {call : Call I H}
  {outcome : Except ExecutionError (Option (Context I H))}

theorem Effect.enters_new (effect : Effect run call outcome run') {known : List (Context I H)}
    (sound : run.world.Sound) (known_below : Handles run.world known)
    (stacked : ∀ ctx ∈ run.machine.working, ctx ∈ known) {pair : Context I H × Nat}
    (enters : (Event.mk run call outcome run').entered? = some pair) :
    outcome = .ok (some pair.1) ∧ pair.1 ∉ known := by
  unfold Event.entered? at enters
  split at enters
  · rename_i command ctx own entry rest called ended trace
    cases called
    split at enters
    · rename_i unit
      cases enters
      refine ⟨ended, fun member => ?_⟩
      cases effect with
      | rejected | tornContext | tornTrace => cases ended
      | unused opens | begun opens => cases opens
      | enteredUnit registered now shallow opens =>
        cases ended
        have inside := known_below.houses _ (stacked _ (Machine.current_working now))
        have new := (openChild_opens sound inside opens).1.id
        have old := known_below.below own member
        omega
      | entered plain => simp [Command.isBoundary, plain] at unit
      | left departs | leftUnit departs => cases departs.departure
      | viewLeft unviews => cases unviews
    · cases enters
  · cases enters

/-- A resumption of a registered filter puts back what is its own just when it is untangled. -/
theorem Effect.reinstates_iff (effect : Effect run call outcome run') {older : List (Event I H)}
    (tied : run.machine.Tied handles (Session.entries older) (Session.suspensions older))
    (genuine : ∀ command ∈ call.command?, handles command.id = command)
    (once : ∀ a ∈ Session.entries older, ∀ b ∈ Session.entries older, a.1 = b.1 → a.2 = b.2) :
    (Event.mk run call outcome run').Reinstates older ↔
      (Event.mk run call outcome run').Untangled older := by
  refine forall_congr' fun own => forall_congr' fun resumed => ?_
  unfold Event.resumed? at resumed
  split at resumed
  · rename_i command ctx told frame rest called ended frames
    cases called
    cases ended
    obtain ⟨-, error, failed⟩ | ⟨frame', rest', resumes, goes⟩ := effect.of_resumption
    · cases failed
    cases frames.symm.trans resumes.frames
    obtain ⟨-, -, opened⟩ := resumes.waiting tied (genuine _ rfl)
    obtain ⟨plain, -⟩ | ⟨-, top, outer, entry, entries, contexts, trace, told, current, put_back⟩ :=
      goes
    · rw [resumed, plain] at opened
      cases opened
    cases told
    obtain ⟨right, finds⟩ := resumes.own_iff tied (genuine _ rfl) resumed contexts trace
    have alike : (∀ ctx ∈ run.machine.suspendedContexts.head?, ctx.isPointer = false) ↔
        top.isPointer = false := by
      rw [contexts]
      simp
    rw [alike, ← right]
    constructor
    · rintro ⟨same, -⟩
      cases same
      rfl
    · rintro rfl
      obtain ⟨-, ⟨⟨suspension, member, own, same⟩, -⟩, -⟩ := finds rfl
      have among := tied.among suspension member
      rw [own, same] at among
      refine ⟨rfl, current, entry.id, among, put_back, ⟨suspension, member, own⟩, ?_⟩
      intro other suspended same
      exact once _ (tied.among other suspended) _ among same
  · cases resumed

end

namespace Session

/-- Whether an interaction is about what the embedder knows and uses commands by their handles. -/
def Genuine (handles : Nat → Command) (s : Session I H) (interaction : Interaction I H) : Prop :=
  s.Knows interaction ∧ ∀ command ∈ interaction.command?, handles command.id = command

theorem Reached.genuine_housed {handles : Nat → Command} {s : Session I H}
    (reached : Reached (Genuine handles) s) : s.Housed :=
  reached.housed fun _ _ genuine => genuine.1

/-- That the stacks belong together, and that no context was entered twice. -/
structure Orderly (handles : Nat → Command) (s : Session I H) : Prop where
  tied : s.run.machine.Tied handles (entries s.history) (suspensions s.history)
  known : ∀ pair ∈ entries s.history, pair.1 ∈ s.known
  once : ∀ a ∈ entries s.history, ∀ b ∈ entries s.history, a.1 = b.1 → a.2 = b.2

variable {handles : Nat → Command} {s : Session I H}

theorem Housed.stacked_same (housed : s.Housed) {call : Call I H} (knows : s.Knows (.calls call)) :
    ∀ ctx ∈ call.context?, ∀ top, s.run.machine.current = .ok top → top.same ctx = true →
      top = ctx := by
  intro ctx named top now same
  have working := housed.stacked top (Machine.current_working now)
  exact housed.handles.unique top working ctx (knows ctx named) same

theorem Housed.entered_new (housed : s.Housed) {call : Call I H} {pair : Context I H × Nat}
    (enters : (Event.mk s.run call (call.perform s.run).1 (call.perform s.run).2).entered? =
      some pair) : pair.1 ∈ (s.called call).known ∧ pair.1 ∉ s.known := by
  obtain ⟨told, new⟩ := (Machine.perform_effect s.run call).enters_new housed.sound housed.handles
    housed.stacked enters
  exact ⟨told_known told, new⟩

theorem Orderly.called (orderly : s.Orderly handles) (housed : s.Housed)
    (quiet : s.run.machine.Quiet) {call : Call I H} (genuine : s.Genuine handles (.calls call))
    (untangled : (Event.mk s.run call (call.perform s.run).1 (call.perform s.run).2).Untangled
      s.history) : (s.called call).Orderly handles := by
  let event : Event I H := ⟨s.run, call, (call.perform s.run).1, (call.perform s.run).2⟩
  have entering : entries (s.called call).history = event.entered?.toList ++ entries s.history := by
    simp only [entries, Session.called, List.filterMap_cons]
    cases event.entered? <;> rfl
  have suspending :
      suspensions (s.called call).history = event.suspended?.toList ++ suspensions s.history := by
    simp only [suspensions, Session.called, List.filterMap_cons]
    cases event.suspended? <;> rfl
  have new : ∀ pair, event.entered? = some pair →
      ∀ suspension ∈ suspensions s.history, suspension.own ≠ pair.1 := by
    intro pair enters suspension member same
    have older := orderly.known _ (orderly.tied.among suspension member)
    rw [same] at older
    exact (housed.entered_new enters).2 older
  have tied : event.Ties handles (entries s.history) (suspensions s.history) :=
    (Machine.perform_effect s.run call).tied orderly.tied quiet housed.apart
      (housed.stacked_same genuine.1) genuine.2 new untangled
  rw [Event.Ties, ← entering, ← suspending] at tied
  have among : ∀ pair ∈ entries (s.called call).history,
      event.entered? = some pair ∨ pair ∈ entries s.history := by
    intro pair member
    rw [entering, List.mem_append, Option.mem_toList] at member
    exact member
  refine ⟨tied, fun pair member => ?_, fun a member b member' same => ?_⟩
  · rcases among pair member with enters | older
    · exact (housed.entered_new enters).1
    · exact List.mem_append_right _ (orderly.known pair older)
  · rcases among a member with enters | older <;> rcases among b member' with enters' | older'
    · rw [enters] at enters'
      cases enters'
      rfl
    · exact absurd (same ▸ orderly.known b older') (housed.entered_new enters).2
    · exact absurd (same ▸ orderly.known a older) (housed.entered_new enters').2
    · exact orderly.once a older b older' same

theorem Reached.orderly (reached : Reached (Genuine handles) s)
    (untangled : Throughout Event.Untangled s.history) : s.Orderly handles := by
  revert untangled
  refine reached.induct
    (motive := fun s => Throughout Event.Untangled s.history → s.Orderly handles) ?_ ?_
  · exact fun _ _ _ _ => ⟨⟨.empty, .empty, nofun⟩, nofun, nofun⟩
  · intro s interaction reached ih genuine untangled
    cases interaction with
    | asks request =>
      obtain ⟨tied, known, once⟩ := ih untangled
      exact ⟨tied, fun pair member => List.mem_append_right _ (known pair member), once⟩
    | calls call =>
      exact (ih untangled.2).called reached.genuine_housed reached.quiet genuine untangled.1

/-- A resumption that fails changes nothing. The resumptions of a session all put back what is the
filter's own, its context and its trace entry, just when none of them finds a view on top of the
contexts that are suspended, or resumes a filter that was suspended with another context than its
own. -/
theorem resumes_own (reached : Reached (Genuine handles) s) :
    (∀ (command : Command) (ctx : Context I H) error,
      ((Call.startPostProcess command ctx).perform s.run).1 = .error error →
        ((Call.startPostProcess command ctx).perform s.run).2 = s.run) ∧
    (Throughout Event.Reinstates s.history ↔ Throughout Event.Untangled s.history) := by
  constructor
  · intro command ctx error failed
    have effect := Machine.perform_effect s.run (.startPostProcess command ctx)
    rw [failed] at effect
    rcases effect.of_resumption with ⟨same, -⟩ | ⟨frame, rest, -, goes⟩
    · exact same
    · obtain ⟨-, current, ended⟩ | ⟨-, top, outer, entry, entries, -, -, ended, -⟩ := goes
      all_goals cases ended
  · refine reached.induct (motive := fun s =>
      Throughout Event.Reinstates s.history ↔ Throughout Event.Untangled s.history) ?_ ?_
    · exact fun _ _ _ => Iff.rfl
    · intro s interaction reached ih genuine
      cases interaction with
      | asks request => exact ih
      | calls call =>
        have effect := Machine.perform_effect s.run call
        constructor
        · rintro ⟨reinstates, older⟩
          have orderly := reached.orderly (ih.mp older)
          exact ⟨(effect.reinstates_iff orderly.tied genuine.2 orderly.once).mp reinstates,
            ih.mp older⟩
        · rintro ⟨untangled, older⟩
          have orderly := reached.orderly older
          exact ⟨(effect.reinstates_iff orderly.tied genuine.2 orderly.once).mpr untangled,
            ih.mpr older⟩

/-! ### A filter and a view -/

def sampleFilter : Command := ⟨0, "f", .filter, some ⟨"f.xml", ⟨"urn:sample", "f"⟩⟩, none, none⟩

def filterOuter : Context Unit Unit := ⟨⟨0, 0, .execution, .empty, .int 1, ⟨0, []⟩, true⟩, []⟩

def filterOwn : Context Unit Unit :=
  ⟨⟨1, 1, .chain, .empty, .int 1, ⟨1, [0]⟩, true⟩, [filterOuter.node]⟩

def filterView : Context Unit Unit :=
  ⟨{ filterOuter.node with id := 2, subject := .int 2, owner := false }, []⟩

/-- A filter is suspended, and then a view. -/
def suspending : List (Interaction Unit Unit) :=
  [.calls (.start (.int 1)), .calls (.startCommand sampleFilter filterOuter),
    .calls (.endCommand sampleFilter filterOwn), .calls (.startPointer filterOuter (.int 2)),
    .calls (.suspendPointer filterView)]

def resumingFrom (ctx : Context Unit Unit) : Interaction Unit Unit :=
  .calls (.startPostProcess sampleFilter ctx)

/-- The view is resumed before the filter is. -/
def besideView : Session Unit Unit :=
  (fresh .empty .standard ()).play
    (suspending ++ [.calls (.resumePointer filterOuter), resumingFrom filterView])

/-- The filter is resumed while the view lies on top. -/
def beneathView : Session Unit Unit :=
  (fresh .empty .standard ()).play (suspending ++ [resumingFrom filterOuter])

theorem reached_suspending {last : List (Interaction Unit Unit)}
    (permits : Permits (Genuine fun _ => sampleFilter)
      ((fresh .empty .standard ()).play suspending) last) :
    Reached (Genuine fun _ => sampleFilter)
      ((fresh .empty .standard ()).play (suspending ++ last)) := by
  -- Each call is about the context that was told last.
  refine ⟨_, _, _, Permits.leads ⟨⟨nofun, nofun⟩, ⟨?_, ?_⟩, ⟨?_, ?_⟩, ⟨?_, nofun⟩, ⟨?_, nofun⟩,
    permits⟩⟩
  case refine_2 | refine_4 =>
    rintro command ⟨⟩
    rfl
  all_goals
    rintro ctx ⟨⟩
    exact List.mem_cons_self

theorem resumes_own_beside_view :
    Reached (Genuine fun _ => sampleFilter) besideView ∧
      besideView.history.head?.bind Event.resumed? = some filterOwn ∧
      Throughout Event.Reinstates besideView.history := by
  have reached : Reached (Genuine fun _ => sampleFilter) besideView := by
    refine reached_suspending ⟨⟨?_, nofun⟩, ⟨?_, ?_⟩, trivial⟩
    case refine_3 =>
      rintro command ⟨⟩
      rfl
    all_goals
      rintro ctx ⟨⟩
      exact List.mem_cons_self
  refine ⟨reached, rfl, (resumes_own reached).2.mpr ⟨?_, nofun, nofun, nofun, nofun, nofun, nofun,
    trivial⟩⟩
  rintro own ⟨⟩
  constructor
  · rintro top ⟨⟩
    rfl
  · rintro suspension (_ | ⟨_, ⟨⟩⟩) same
    rfl

theorem resumed_with_view :
    Reached (Genuine fun _ => sampleFilter) beneathView ∧
      beneathView.history.head?.bind Event.resumed? = some filterOwn ∧
      beneathView.history.head?.map (·.outcome) = some (.ok (some filterView)) ∧
      filterView.same filterOwn = false ∧ ¬ Throughout Event.Reinstates beneathView.history := by
  have reached : Reached (Genuine fun _ => sampleFilter) beneathView := by
    refine reached_suspending ⟨⟨?_, ?_⟩, trivial⟩
    · rintro ctx ⟨⟩
      exact List.mem_cons_self
    · rintro command ⟨⟩
      rfl
  refine ⟨reached, rfl, rfl, rfl, ?_⟩
  rintro ⟨reinstates, -⟩
  obtain ⟨told, -⟩ := reinstates filterOwn rfl
  cases told

end Session
end CommandChain
