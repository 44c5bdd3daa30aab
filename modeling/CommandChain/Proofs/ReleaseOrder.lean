import CommandChain.Proofs.Machine.Tape

/-!
In which order the end of a run releases its contexts. It ends the contexts in use from the top
down, then those suspended from the top down, and the global one last. A context in use is ended
before all that enclose it. One that is suspended is ended after all that enclose it but the global
one: they lie before it on the tape, and so they are in use or higher among the suspended.
-/
namespace CommandChain

variable {I H : Type}

namespace World

/-- Whether a context was released, and all its instances that nobody held have run their end hooks.
-/
structure Ended (w w' : World I H) (ctx : Context I H) : Prop where
  released : w'.isReleased ctx = true
  ran : ∀ entry, w.Caches ctx.node.table entry → ¬ w.Held entry.2.ref.id →
    w'.endRuns entry.2.ref.id = entry.2.descriptor.endHookNames

/-- Whether the table of a context is as it was, and none of its instances has run an end hook. -/
structure Awaits (w w' : World I H) (ctx : Context I H) : Prop where
  table : w'.tableOf ctx = w.tableOf ctx
  unended : ∀ entry, w.Caches ctx.node.table entry → w'.endRuns entry.2.ref.id = []

/-- Whether ending contexts in order comes to a moment at which the first of two is ended and the
second one still awaits its end. -/
def EndsBefore (w : World I H) (contexts : List (Context I H)) (first second : Context I H) :
    Prop :=
  ∃ ended rest, contexts = ended ++ rest ∧ w.Ended (w.endContexts ended) first ∧
    w.Awaits (w.endContexts ended) second

section

variable {w : World I H} {contexts : List (Context I H)} {first second ctx : Context I H}

theorem endContexts_append (w : World I H) (front back : List (Context I H)) :
    w.endContexts (front ++ back) = (w.endContexts front).endContexts back :=
  List.foldl_append

theorem table_endContexts {table : Nat}
    (apart : ∀ ctx ∈ contexts, ctx.isPointer = false → ctx.node.table ≠ table) :
    (w.endContexts contexts).table table = w.table table := by
  induction contexts generalizing w with
  | nil => rfl
  | cons ctx rest ih =>
    rw [endContexts_cons, ih fun other member => apart other (List.mem_cons_of_mem _ member)]
    by_cases pointer : ctx.isPointer = true
    · rw [endContext_eq, if_pos (.inl pointer)]
    · exact table_endContext_of_ne
        (apart ctx List.mem_cons_self (Bool.not_eq_true _ ▸ pointer))

theorem free_endContexts {id : Nat} (free : w.Free id) : (w.endContexts contexts).Free id := by
  induction contexts generalizing w with
  | nil => exact free
  | cons ctx rest ih => exact ih (free_endContext free)

theorem endRuns_endContext (ctx : Context I H) {id : Nat} (unclaimed : w.Unclaimed id) :
    (w.endContext ctx).Unclaimed id ∧ (w.endContext ctx).endRuns id = w.endRuns id := by
  refine ⟨fun table entry caches => unclaimed table entry (caches_endContext caches), ?_⟩
  rw [endContext_eq]
  split
  · rfl
  · refine (runs_releaseTable w ctx.node.table).others id fun member => ?_
    obtain ⟨entry, caches, same⟩ := List.mem_map.mp member
    exact unclaimed ctx.node.table entry caches same

theorem endRuns_endContexts {id : Nat} (unclaimed : w.Unclaimed id) :
    (w.endContexts contexts).endRuns id = w.endRuns id := by
  induction contexts generalizing w with
  | nil => rfl
  | cons ctx rest ih =>
    obtain ⟨still, same⟩ := endRuns_endContext ctx unclaimed
    exact (ih still).trans same

/-- A context that is live and owns its table is ended when its turn comes. -/
theorem Sound.ended (sound : w.Sound) (inside : ∀ ctx ∈ contexts, ctx.node.table < w.tables.next)
    (apart : ∀ a ∈ contexts, ∀ b ∈ contexts, a.isPointer = false → b.isPointer = false →
      a.node.table = b.node.table → a = b)
    (once : contexts.Nodup) (member : first ∈ contexts) (owner : first.isPointer = false)
    (live : w.isReleased first = false) : w.Ended (w.endContexts contexts) first := by
  obtain ⟨front, back, rfl⟩ := List.append_of_mem member
  have alone : first ∉ front := by
    intro again
    exact (List.nodup_append.mp once).2.2 first again first List.mem_cons_self rfl
  have front_sound : (w.endContexts front).Sound :=
    sound.endContexts fun ctx among => inside ctx (List.mem_append_left _ among)
  have table : (w.endContexts front).tableOf first = w.tableOf first := by
    refine table_endContexts fun ctx among owns same => alone ?_
    rw [← apart ctx (List.mem_append_left _ among) first member owns owner same]
    exact among
  have here : (w.endContexts front).isReleased first = false := by
    rw [isReleased, table]
    exact live
  rw [endContexts_append, endContexts_cons]
  have ending : ((w.endContexts front).endContext first) =
      (((w.endContexts front).releaseTable first.node.table).retired first).note .debug
        ("released " ++ first.scope.name ++ " scope context") := by
    rw [endContext_eq, if_neg]
    rw [owner, here]
    exact fun either => either.elim Bool.false_ne_true Bool.false_ne_true
  refine ⟨released_endContexts (.inl (released_endContext owner)), fun entry caches unheld => ?_⟩
  have cached : (w.endContexts front).Caches first.node.table entry := by
    rw [Caches, ← tableOf, table]
    exact caches
  have ran := endRuns_releaseTable front_sound cached
    (free_endContexts (sound.free caches unheld))
  have unclaimed : ((w.endContexts front).endContext first).Unclaimed entry.2.ref.id := by
    intro other claims holds same
    have emptied : (((w.endContexts front).releaseTable first.node.table).retired first).Caches
        other claims := by
      rw [ending] at holds
      exact holds
    obtain ⟨differ, before⟩ := caches_releaseTable.mp (caches_retired.mp emptied)
    exact differ (front_sound.home cached before same.symm)
  rw [endRuns_endContexts unclaimed, ending]
  exact ran

theorem Sound.awaits (sound : w.Sound) (inside : ∀ ctx ∈ contexts, ctx.node.table < w.tables.next)
    (apart : ∀ ctx ∈ contexts, ctx.isPointer = false → ctx.node.table ≠ second.node.table) :
    w.Awaits (w.endContexts contexts) second := by
  have table := table_endContexts (w := w) apart
  refine ⟨table, fun entry caches => ?_⟩
  refine (sound.endContexts inside).unended second.node.table entry ?_
  rw [Caches, table]
  exact caches

theorem EndsBefore.asymm (live : w.isReleased first = false) (live' : w.isReleased second = false)
    (before : w.EndsBefore contexts first second) : ¬ w.EndsBefore contexts second first := by
  rintro ⟨ended', rest', split', done', waits'⟩
  obtain ⟨ended, rest, split, done, waits⟩ := before
  -- Whichever moment is the later one, the context that was ended at the earlier one stays released.
  have still {a b : Context I H} {front more : List (Context I H)}
      (done : w.Ended (w.endContexts front) a) (waits : w.Awaits (w.endContexts (front ++ more)) a)
      (live : w.isReleased a = false) : False := by
    have released := released_mono_all (w.endContexts front) more done.released
    have table := waits.table
    rw [endContexts_append, tableOf] at table
    rw [table] at released
    rw [isReleased, tableOf] at live
    exact Bool.false_ne_true (live.symm.trans released)
  rcases List.append_eq_append_iff.mp (split.symm.trans split') with
    ⟨more, rfl, -⟩ | ⟨more, rfl, -⟩
  · exact still (b := second) done waits' live
  · exact still (b := first) done' waits live'

end
end World

theorem Effect.global {run run' : Run I H} {call : Call I H}
    {outcome : Except ExecutionError (Option (Context I H))} (effect : Effect run call outcome run')
    {global : Context I H} (running : run'.machine.global = some global) :
    run.machine.global = some global ∨
      call.opensContext = true ∧ outcome = .ok (some global) := by
  cases effect with
  | rejected | unused | viewed | viewLeft | viewResumed | thrown | handled => exact .inl running
  | ended => cases running
  | begun opens =>
    cases running
    rcases Call.of_opening opens with ⟨subject, rfl⟩ | ⟨parent, rfl⟩ <;> exact .inr ⟨rfl, rfl⟩
  | enteredUnit | entered | resumed | resumedUnit => exact .inl (by simpa using running)
  | left departs | leftUnit departs | tornContext departs | tornTrace departs =>
    obtain ⟨prefixes, same⟩ := departs.machine
    exact .inl (by simpa [same] using running)

theorem Machine.Layered.encloser {m : Machine I H} (layered : m.Layered)
    {front back : List (Context I H)} {outer inner : Context I H}
    (tape : m.tape = front ++ inner :: back) (encloses : outer.Encloses inner)
    (member : outer ∈ m.working) (owner : outer.isPointer = false) (other : outer ≠ inner) :
    outer ∈ front := by
  rw [← Machine.mem_tape, tape] at member
  rw [Machine.Layered, tape] at layered
  rcases List.mem_append.mp member with here | behind
  · exact here
  rcases List.mem_cons.mp behind with same | behind
  · exact absurd same other
  · have precedes := (List.pairwise_cons.mp (List.pairwise_append.mp layered).2.1).1 outer behind
    exact absurd (List.mem_cons_of_mem _ encloses) (precedes owner)

namespace Session

/-- Whether a context was opened for a run and is still to be released. -/
def Pending (s : Session I H) (ctx : Context I H) : Prop :=
  ctx ∈ s.opened ∧ s.run.world.isReleased ctx = false

/-- Whether the end of the run would end a context before another one. -/
def EndsBefore (s : Session I H) (first second : Context I H) : Prop :=
  s.run.world.EndsBefore s.run.machine.working first second

variable {s : Session I H} {global outer inner first second : Context I H}

theorem Reached.endsBefore (reached : Reached Knows s) {ended rest : List (Context I H)}
    (split : s.run.machine.working = ended ++ rest) (before : first ∈ ended)
    (after : second ∈ rest) (owner : first.isPointer = false)
    (owner' : second.isPointer = false) : s.EndsBefore first second := by
  have housed := reached.known_housed
  have among : ∀ ctx ∈ ended, ctx ∈ s.run.machine.working := by
    intro ctx member
    rw [split]
    exact List.mem_append_left _ member
  have second_there : second ∈ s.run.machine.working := by
    rw [split]
    exact List.mem_append_right _ after
  have once := housed.apart
  rw [split] at once
  have inside : ∀ ctx ∈ ended, ctx.node.table < s.run.world.tables.next :=
    fun ctx member => (housed.working ctx (among ctx member)).table
  have apart : ∀ a ∈ s.run.machine.working, ∀ b ∈ s.run.machine.working, a.isPointer = false →
      b.isPointer = false → a.node.table = b.node.table → a = b :=
    fun a member b member' =>
      reached.known_apart a (housed.stacked a member) b (housed.stacked b member')
  refine ⟨ended, rest, split, ?_, ?_⟩
  · exact housed.sound.ended inside (fun a member b member' =>
      apart a (among a member) b (among b member')) (List.nodup_append.mp once).1 before owner
      (reached.live first (among first before) owner)
  · refine housed.sound.awaits inside fun ctx member owns same => ?_
    rw [apart ctx (among ctx member) second second_there owns owner' same] at member
    exact (List.nodup_append.mp once).2.2 second member second after rfl

theorem Reached.pending (reached : Reached Knows s) {ctx : Context I H} (pending : s.Pending ctx) :
    ctx ∈ s.run.machine.working ∧ ctx.isPointer = false := by
  obtain ⟨opened, live⟩ := pending
  obtain ⟨owner, there | released⟩ := reached.known_retains ctx opened
  · exact ⟨there, owner⟩
  · rw [live] at released
    cases released

theorem Reached.global_opened (reached : Reached Knows s) :
    ∀ {global}, s.run.machine.global = some global → global ∈ s.opened := by
  refine reached.induct (motive := fun s => ∀ {global : Context I H},
    s.run.machine.global = some global → global ∈ s.opened) ?_ ?_
  · exact fun _ _ _ => nofun
  · intro s interaction _ ih _ global running
    cases interaction with
    | asks request => exact ih running
    | calls call =>
      rcases (Machine.perform_effect s.run call).global running with older | ⟨opens, told⟩
      · obtain ⟨event, among, opened⟩ := List.mem_filterMap.mp (ih older)
        exact List.mem_filterMap.mpr ⟨event, List.mem_cons_of_mem _ among, opened⟩
      · refine List.mem_filterMap.mpr ⟨_, List.mem_cons_self, ?_⟩
        exact Event.opened?_eq_some.mpr ⟨opens, told⟩

theorem Reached.global_last (reached : Reached Knows s)
    (running : s.run.machine.global = some global) (pending : s.Pending first) (other : first ≠ global) : s.EndsBefore first global := by
  have owner := (reached.known_retains global (reached.global_opened running)).1
  have split : s.run.machine.working =
      (s.run.machine.contexts ++ s.run.machine.suspendedContexts) ++ [global] := by
    rw [Machine.working, running]
    rfl
  obtain ⟨there, owns⟩ := reached.pending pending
  rw [split] at there
  rcases List.mem_append.mp there with before | last
  · exact reached.endsBefore split before (List.mem_singleton_self global) owns owner
  · exact absurd (List.mem_singleton.mp last) other

/-- A context in use is ended before those around it. -/
theorem Reached.active_first (reached : Reached Knows s) (around : s.Pending outer)
    (within : s.Pending inner) (encloses : outer.Encloses inner) (other : outer ≠ inner)
    (active : inner ∈ s.run.machine.contexts) : s.EndsBefore inner outer := by
  obtain ⟨there, owner⟩ := reached.pending around
  obtain ⟨-, owner'⟩ := reached.pending within
  obtain ⟨above, below, contexts⟩ := List.append_of_mem active
  have tape : s.run.machine.tape = (s.run.machine.global.toList ++ below.reverse) ++
      inner :: (above.reverse ++ s.run.machine.suspendedContexts) := by
    simp [Machine.tape, Machine.entered, contexts]
  have left := reached.layered.encloser tape encloses there owner other
  have split : s.run.machine.working = (above ++ [inner]) ++
      (below ++ s.run.machine.suspendedContexts ++ s.run.machine.global.toList) := by
    simp [Machine.working, contexts]
  refine reached.endsBefore split (by simp) ?_ owner' owner
  rcases List.mem_append.mp left with global | lower
  · exact List.mem_append_right _ global
  · simp [List.mem_reverse.mp lower]

/-- A context that is suspended is ended after those around it, except for the global one. -/
theorem Reached.suspended_last (reached : Reached Knows s)
    (running : s.run.machine.global = some global) (around : s.Pending outer)
    (within : s.Pending inner) (encloses : outer.Encloses inner) (other : outer ≠ inner)
    (unit : outer ≠ global) (suspended : inner ∈ s.run.machine.suspendedContexts) :
    s.EndsBefore outer inner := by
  obtain ⟨there, owner⟩ := reached.pending around
  obtain ⟨-, owner'⟩ := reached.pending within
  obtain ⟨above, below, contexts⟩ := List.append_of_mem suspended
  have tape : s.run.machine.tape = (s.run.machine.entered ++ above) ++ inner :: below := by
    simp [Machine.tape, contexts]
  have left := reached.layered.encloser tape encloses there owner other
  have split : s.run.machine.working = (s.run.machine.contexts ++ above) ++
      (inner :: below ++ s.run.machine.global.toList) := by
    simp [Machine.working, contexts]
  refine reached.endsBefore split ?_ (by simp) owner owner'
  simp only [Machine.entered, running, Option.toList_some, List.mem_append, List.mem_singleton,
    List.mem_reverse] at left
  rcases left with (same | active) | higher
  · exact absurd same unit
  · exact List.mem_append_left _ active
  · exact List.mem_append_right _ higher

/-- A context is another one than those that enclose it, and the global one is enclosed by none of
its run. -/
theorem Reached.enclosed (reached : Reached Knows s)
    (running : s.run.machine.global = some global) (around : s.Pending outer)
    (within : s.Pending inner) (encloses : outer.Encloses inner) :
    outer ≠ inner ∧ (inner ∈ s.run.machine.contexts ∨ inner ∈ s.run.machine.suspendedContexts) := by
  obtain ⟨there, owner⟩ := reached.pending around
  obtain ⟨there', -⟩ := reached.pending within
  have chains := reached.known_chains inner (reached.known_housed.stacked inner there')
  have other : outer ≠ inner := by
    rintro rfl
    exact (List.nodup_cons.mp chains.apart).1 encloses
  refine ⟨other, ?_⟩
  rcases Machine.mem_working.mp there' with active | suspended | same
  · exact .inl active
  · exact .inr suspended
  · cases running.symm.trans same
    have tape : s.run.machine.tape =
        [] ++ global :: (s.run.machine.contexts.reverse ++ s.run.machine.suspendedContexts) := by
      simp [Machine.tape, Machine.entered, running]
    exact absurd (reached.layered.encloser tape encloses there owner other) List.not_mem_nil

/-- The end of a run ends what is on the stacks in order, and the global context last. Of two
contexts of the run of which one encloses the other, the inner one is ended first just when it is
in use or the outer one is the global context. -/
theorem ends_inner_first_iff (reached : Reached Knows s)
    (running : s.run.machine.global = some global) :
    (∃ log, (s.called .finish).run.world =
      (s.run.world.endContexts s.run.machine.working).logged log) ∧
    (∀ ctx, s.Pending ctx → ctx ≠ global → s.EndsBefore ctx global) ∧
    ∀ outer inner, s.Pending outer → s.Pending inner → outer.Encloses inner →
      (s.EndsBefore inner outer ↔ inner ∈ s.run.machine.contexts ∨ outer = global) ∧
      (s.EndsBefore outer inner ↔
        inner ∈ s.run.machine.suspendedContexts ∧ outer ≠ global) := by
  refine ⟨?_, fun ctx pending other => reached.global_last running pending other, ?_⟩
  · have started : s.run.machine.isRunning = true := by
      rw [Machine.isRunning, running]
      rfl
    obtain ⟨-, _, log, same, ends⟩ := (Machine.perform_effect s.run .finish).of_finish started
    refine ⟨log, (congrArg Run.world ends).trans ?_⟩
    rw [Machine.endContexts_working same]
  intro outer inner around within encloses
  obtain ⟨other, stacked⟩ := reached.enclosed running around within encloses
  have inner_first (holds : inner ∈ s.run.machine.contexts ∨ outer = global) :
      s.EndsBefore inner outer := by
    rcases holds with active | rfl
    · exact reached.active_first around within encloses other active
    · exact reached.global_last running within other.symm
  have outer_first (suspended : inner ∈ s.run.machine.suspendedContexts) (unit : outer ≠ global) :
      s.EndsBefore outer inner :=
    reached.suspended_last running around within encloses other unit suspended
  refine ⟨⟨fun before => ?_, inner_first⟩, ⟨fun before => ?_, fun holds => ?_⟩⟩
  · by_cases unit : outer = global
    · exact .inr unit
    · refine .inl (stacked.resolve_right fun suspended => ?_)
      exact before.asymm within.2 around.2 (outer_first suspended unit)
  · have neither : ¬ (inner ∈ s.run.machine.contexts ∨ outer = global) := fun holds =>
      before.asymm around.2 within.2 (inner_first holds)
    exact ⟨stacked.resolve_left fun active => neither (.inl active),
      fun same => neither (.inr same)⟩
  · exact outer_first holds.1 holds.2

/-! ### A filter within a unit -/

def enclosingUnit : Command := ⟨1, "u", .plain, some ⟨"u.xml", ⟨"urn:sample", "u"⟩⟩, none, none⟩

def enclosedOwn : Context Unit Unit :=
  ⟨⟨2, 2, .chain, flakyRegistry, .int 1, ⟨2, [1, 0]⟩, true⟩, flakyOwn.nodes⟩

/-- A filter is entered within a unit, and a component is made in the context of each. -/
def enclosing : List (Interaction Unit Unit) :=
  [.calls (.start (.int 1)), .calls (.startCommand enclosingUnit flakyGlobal),
    .asks (.component flakyOwn flaky.name), .calls (.startCommand flakyFilter flakyOwn),
    .asks (.component enclosedOwn flaky.name)]

def filterInUse : Session Unit Unit := (fresh flakyRegistry .standard ()).play enclosing

def filterSuspended : Session Unit Unit :=
  (fresh flakyRegistry .standard ()).play
    (enclosing ++ [.calls (.endCommand flakyFilter enclosedOwn)])

theorem permits_enclosing (last : List (Interaction Unit Unit))
    (permits : Permits Knows filterInUse last) :
    Permits Knows (fresh flakyRegistry .standard ()) (enclosing ++ last) := by
  refine ⟨nofun, ?_, ?_, ?_, ?_, permits⟩
  all_goals
    rintro ctx ⟨⟩
    exact List.mem_cons_self

theorem ends_filter_before_unit :
    Reached Knows filterInUse ∧ filterInUse.run.machine.global = some flakyGlobal ∧
      filterInUse.Pending flakyOwn ∧ filterInUse.Pending enclosedOwn ∧
      flakyOwn.Encloses enclosedOwn ∧ filterInUse.EndsBefore enclosedOwn flakyOwn := by
  have reached : Reached Knows filterInUse := ⟨_, _, _, (permits_enclosing [] trivial).leads⟩
  have around : filterInUse.Pending flakyOwn :=
    ⟨List.mem_cons_of_mem _ List.mem_cons_self, rfl⟩
  have within : filterInUse.Pending enclosedOwn := ⟨List.mem_cons_self, rfl⟩
  have encloses : flakyOwn.Encloses enclosedOwn := List.mem_cons_self
  have running : filterInUse.run.machine.global = some flakyGlobal := rfl
  have order := (ends_inner_first_iff reached running).2.2 _ _ around within encloses
  exact ⟨reached, running, around, within, encloses, order.1.mpr (.inl List.mem_cons_self)⟩

/-- A unit is ended before the filter that was suspended within it, and the end hooks of its
component run first. -/
theorem ends_unit_before_filter :
    Reached Knows filterSuspended ∧ filterSuspended.run.machine.global = some flakyGlobal ∧
      filterSuspended.Pending flakyOwn ∧ filterSuspended.Pending enclosedOwn ∧
      flakyOwn.Encloses enclosedOwn ∧ ¬ filterSuspended.EndsBefore enclosedOwn flakyOwn ∧
      (filterSuspended.called .finish).run.world.hookRuns.reverse =
        [⟨0, .end, "first"⟩, ⟨0, .end, "second"⟩, ⟨1, .end, "first"⟩, ⟨1, .end, "second"⟩] := by
  have reached : Reached Knows filterSuspended := by
    have permits : Permits Knows filterInUse [.calls (.endCommand flakyFilter enclosedOwn)] := by
      refine ⟨?_, trivial⟩
      rintro ctx ⟨⟩
      exact List.mem_cons_self
    exact ⟨_, _, _, (permits_enclosing _ permits).leads⟩
  have around : filterSuspended.Pending flakyOwn :=
    ⟨List.mem_cons_of_mem _ List.mem_cons_self, rfl⟩
  have within : filterSuspended.Pending enclosedOwn := ⟨List.mem_cons_self, rfl⟩
  have encloses : flakyOwn.Encloses enclosedOwn := List.mem_cons_self
  have running : filterSuspended.run.machine.global = some flakyGlobal := rfl
  have before := reached.suspended_last running around within encloses nofun nofun
    List.mem_cons_self
  exact ⟨reached, running, around, within, encloses, before.asymm around.2 within.2, rfl⟩

end Session
end CommandChain
