import CommandChain.Context.Release
import CommandChain.Proofs.World.Instances

/-!
What a release does to the instances of a world. A release empties a table and runs the end hooks of
what was in it. An instance that nobody holds has each of them run once, in order, whichever fails;
one that was not in the table is left alone. `Tended` is what all changes to a sound world have in
common: an instance stays where it is until its end hooks have run, and nothing happens to it after.
-/
namespace CommandChain

variable {I H : Type}

namespace World

def Held (w : World I H) (id : Nat) : Prop :=
  ∃ cell, w.cells.get? id = some cell ∧ cell.borrow ≠ .free

def Free (w : World I H) (id : Nat) : Prop :=
  ∃ cell, w.cells.get? id = some cell ∧ cell.borrow = .free

/-- Whether a change is one of instances and hooks alone, with end hooks of none but some instances.
-/
structure Runs (ids : List Nat) (w w' : World I H) : Prop where
  layers : w'.layers = w.layers
  nextNode : w'.nextNode = w.nextNode
  tables : w'.tables = w.tables
  nextCell : w'.cells.next = w.cells.next
  kept : ∀ id, (w.cells.get? id).isSome = true → (w'.cells.get? id).isSome = true
  free : ∀ id, w.Free id → w'.Free id
  others : ∀ id, id ∉ ids → w'.endRuns id = w.endRuns id

theorem Runs.refl (ids : List Nat) (w : World I H) : Runs ids w w :=
  ⟨rfl, rfl, rfl, rfl, fun _ there => there, fun _ free => free, fun _ _ => rfl⟩

theorem Runs.trans {ids : List Nat} {w middle last : World I H} (first : Runs ids w middle)
    (second : Runs ids middle last) : Runs ids w last where
  layers := second.layers.trans first.layers
  nextNode := second.nextNode.trans first.nextNode
  tables := second.tables.trans first.tables
  nextCell := second.nextCell.trans first.nextCell
  kept id there := second.kept id (first.kept id there)
  free id free := second.free id (first.free id free)
  others id outside := (second.others id outside).trans (first.others id outside)

theorem Runs.mono {ids more : List Nat} {w w' : World I H} (runs : Runs ids w w')
    (among : ∀ id ∈ ids, id ∈ more) : Runs more w w' :=
  { runs with others := fun id outside => runs.others id fun member => outside (among id member) }

theorem runs_note (ids : List Nat) (w : World I H) (level : LogLevel) (text : String) :
    Runs ids w (w.note level text) :=
  ⟨rfl, rfl, rfl, rfl, fun _ there => there, fun _ free => free, fun _ _ => rfl⟩

theorem runs_noteFailures (ids : List Nat) (w : World I H) (name : QName)
    (failures : List LifecycleError) : Runs ids w (w.noteFailures name failures) := by
  unfold noteFailures
  induction failures generalizing w with
  | nil => exact .refl ids w
  | cons failure rest ih => exact (runs_note ids w _ _).trans (ih _)

theorem runs_left (ids : List Nat) (w : World I H) (id : Nat) (typeName : String) (left : I)
    (host : H) :
    Runs ids w { w with cells := w.cells.set id ⟨typeName, left, .free⟩, host } := by
  refine ⟨rfl, rfl, rfl, rfl, fun _ there => isSome_set _ _ _ _ there, ?_, fun _ _ => rfl⟩
  rintro other ⟨cell, there, free⟩
  by_cases same : id = other
  · subst same
    exact ⟨_, Store.get?_set_self _ _ _, rfl⟩
  · exact ⟨cell, by rw [← there]; exact Store.get?_set_of_ne _ _ same, free⟩

theorem runs_runOn {α : Type} (ids : List Nat) (w : World I H) (ref : ComponentRef)
    (action : Action I H α) : Runs ids w (w.runOn ref action).2 := by
  rcases w.runOn_spec ref action with ⟨typeName, _, _, left, host, -, -, ran⟩ | ⟨-, idle⟩
  · rw [ran]
    exact runs_left ids w ref.id typeName left host
  · rw [idle]
    exact .refl ids w

theorem runHook_same (w : World I H) (ref : ComponentRef) (phase : HookPhase) (hook : Hook I H) :
    (w.runHook ref phase hook).2.layers = w.layers ∧
      (w.runHook ref phase hook).2.tables = w.tables := by
  rcases w.runHook_spec ref phase hook with ⟨_, _, _, _, _, -, -, ran⟩ | ⟨-, idle⟩
  · rw [ran]
    exact ⟨rfl, rfl⟩
  · rw [idle]
    exact ⟨rfl, rfl⟩

theorem runs_endHook (w : World I H) (ref : ComponentRef) (hook : Hook I H) :
    Runs [ref.id] w (w.runHook ref .end hook).2 := by
  rcases w.runHook_spec ref .end hook with ⟨typeName, _, _, left, host, -, -, ran⟩ | ⟨-, idle⟩
  · rw [ran]
    refine (runs_left [ref.id] w ref.id typeName left host).trans
      ⟨rfl, rfl, rfl, rfl, fun _ there => there, fun _ free => free, ?_⟩
    intro id outside
    have apart : ref.id ≠ id := fun same => outside (by simp [same])
    simp [endRuns, apart]
  · rw [idle]
    exact .refl _ w

theorem endHook_free {w : World I H} {ref : ComponentRef} (free : w.Free ref.id)
    (hook : Hook I H) : ∃ outcome, (w.runHook ref .end hook).1 = some outcome ∧
      (w.runHook ref .end hook).2.endRuns ref.id = w.endRuns ref.id ++ [hook.name] := by
  obtain ⟨⟨typeName, content, _⟩, there, rfl⟩ := free
  rcases w.runHook_spec ref .end hook with ⟨_, _, outcome, _, _, -, -, ran⟩ | ⟨held, -⟩
  · rw [ran]
    exact ⟨outcome, rfl, by simp [endRuns]⟩
  · exact absurd there (held typeName content)

theorem runs_endHooks (w : World I H) (ref : ComponentRef) (name : QName)
    (hooks : List (Hook I H)) : Runs [ref.id] w (Lifecycle.endHooks w ref name hooks).2 := by
  induction hooks generalizing w with
  | nil => exact .refl _ w
  | cons hook rest ih =>
    have ran := runs_endHook w ref hook
    unfold Lifecycle.endHooks
    cases runs : w.runHook ref .end hook with
    | mk outcome w' =>
      rw [runs] at ran
      rcases outcome with _ | _ | _
      · exact ran
      · exact ran.trans (ih w')
      · exact ran.trans (ih w')

/-- An instance that nobody holds has all of its hooks run, also after one that fails. -/
theorem endHooks_free {w : World I H} {ref : ComponentRef} (free : w.Free ref.id) (name : QName)
    (hooks : List (Hook I H)) :
    (Lifecycle.endHooks w ref name hooks).2.endRuns ref.id =
      w.endRuns ref.id ++ hooks.map (·.name) := by
  induction hooks generalizing w with
  | nil => simp [Lifecycle.endHooks]
  | cons hook rest ih =>
    obtain ⟨outcome, ran, added⟩ := endHook_free free hook
    have after := runs_endHook w ref hook
    unfold Lifecycle.endHooks
    cases runs : w.runHook ref .end hook with
    | mk outcome' w' =>
      rw [runs] at ran added after
      cases ran
      have rest_ran := ih (after.free _ free)
      rw [added] at rest_ran
      cases outcome with
      | error cause => simpa using rest_ran
      | ok _ => simpa using rest_ran

/-! ### Tables -/

def ids (entries : List (QName × Cached I H)) : List Nat := entries.map (·.2.ref.id)

def finished (w : World I H) (name : QName) (cached : Cached I H) : World I H :=
  let (failures, w) := Lifecycle.finish w cached.ref cached.descriptor
  w.noteFailures name failures

theorem finishAll_cons (w : World I H) (name : QName) (cached : Cached I H)
    (rest : List (QName × Cached I H)) :
    w.finishAll ((name, cached) :: rest) = (w.finished name cached).finishAll rest := rfl

theorem runs_finished (w : World I H) (name : QName) (cached : Cached I H) :
    Runs [cached.ref.id] w (w.finished name cached) :=
  (runs_endHooks w cached.ref cached.descriptor.name cached.descriptor.endHooks).trans
    (runs_noteFailures _ _ name _)

theorem finished_free {w : World I H} {cached : Cached I H} (free : w.Free cached.ref.id)
    (name : QName) : (w.finished name cached).endRuns cached.ref.id =
      w.endRuns cached.ref.id ++ cached.descriptor.endHookNames := by
  rw [Descriptor.endHookNames, ← endHooks_free free cached.descriptor.name]
  exact (runs_noteFailures [] _ name _).others _ (by simp)

theorem runs_finishAll (w : World I H) (entries : List (QName × Cached I H)) :
    Runs (ids entries) w (w.finishAll entries) := by
  induction entries generalizing w with
  | nil => exact .refl _ w
  | cons entry rest ih =>
    obtain ⟨name, cached⟩ := entry
    rw [finishAll_cons]
    refine Runs.trans ((runs_finished w name cached).mono (by simp [ids])) ?_
    exact (ih _).mono fun id member => List.mem_cons_of_mem _ member

/-- Every instance that nobody holds has its end hooks run, whoever holds the others. -/
theorem finishAll_free {w : World I H} {entries : List (QName × Cached I H)}
    (apart : (ids entries).Nodup) {entry : QName × Cached I H} (member : entry ∈ entries)
    (free : w.Free entry.2.ref.id) : (w.finishAll entries).endRuns entry.2.ref.id =
      w.endRuns entry.2.ref.id ++ entry.2.descriptor.endHookNames := by
  induction entries generalizing w with
  | nil => cases member
  | cons first rest ih =>
    obtain ⟨name, cached⟩ := first
    obtain ⟨alone, apart⟩ := List.nodup_cons.mp apart
    have ran := runs_finished w name cached
    rw [finishAll_cons]
    rcases List.mem_cons.mp member with rfl | member
    · rw [(runs_finishAll _ rest).others _ alone]
      exact finished_free free name
    · have other : entry.2.ref.id ≠ cached.ref.id := by
        intro same
        exact alone (List.mem_map.mpr ⟨entry, member, same⟩)
      rw [ih apart member (ran.free _ free), ran.others _ (by simpa using other)]

section

variable {w : World I H} {id : Nat}

theorem runs_releaseTable (w : World I H) (id : Nat) :
    Runs (ids (w.table id).components) (w.setTable id { w.table id with components := [] })
      (w.releaseTable id) :=
  runs_finishAll _ _

theorem endRuns_releaseTable (sound : w.Sound) {entry : QName × Cached I H}
    (caches : w.Caches id entry) (free : w.Free entry.2.ref.id) :
    (w.releaseTable id).endRuns entry.2.ref.id = entry.2.descriptor.endHookNames := by
  have still : (w.setTable id { w.table id with components := [] }).Free entry.2.ref.id := free
  have unended : (w.setTable id { w.table id with components := [] }).endRuns entry.2.ref.id =
      [] := sound.unended id entry caches
  have ran := finishAll_free (sound.apart id) caches still
  rw [unended, List.nil_append] at ran
  exact ran

theorem table_releaseTable (w : World I H) (id other : Nat) :
    (w.releaseTable id).table other =
      if id = other then { w.table id with components := [] } else w.table other := by
  rw [← table_setTable, World.table, (runs_releaseTable w id).tables]
  rfl

theorem caches_releaseTable {table : Nat} {entry : QName × Cached I H} :
    (w.releaseTable id).Caches table entry ↔ id ≠ table ∧ w.Caches table entry := by
  rw [Caches, table_releaseTable]
  split <;> simp_all [Caches]

theorem released_releaseTable (table : Nat) :
    ((w.releaseTable id).table table).released = (w.table table).released := by
  rw [table_releaseTable]
  split <;> simp_all

theorem Sound.other (sound : w.Sound) {table : Nat} {entry : QName × Cached I H}
    (differ : id ≠ table) (caches : w.Caches table entry) :
    entry.2.ref.id ∉ ids (w.table id).components := by
  intro member
  obtain ⟨entry', caches', same⟩ := List.mem_map.mp member
  exact differ (sound.home caches' caches same)

theorem Sound.releaseTable (sound : w.Sound) (inside : id < w.tables.next) :
    (w.releaseTable id).Sound := by
  have runs := runs_releaseTable w id
  constructor
  case unborn =>
    intro table outside
    rw [runs.tables] at outside ⊢
    have apart : id ≠ table := by
      have beyond : w.tables.next ≤ table := outside
      omega
    exact (Store.get?_set_of_ne _ _ apart).trans (sound.unborn table outside)
  case vacant =>
    intro table released
    rw [released_releaseTable] at released
    rw [table_releaseTable]
    split
    · rfl
    · exact sound.vacant table released
  case placed =>
    intro table entry caches
    obtain ⟨below, there⟩ := sound.placed table entry (caches_releaseTable.mp caches).2
    exact ⟨by rw [runs.nextCell]; exact below, runs.kept _ there⟩
  case apart =>
    intro table
    rw [table_releaseTable]
    split
    · exact List.nodup_nil
    · exact sound.apart table
  case home =>
    intro table table' entry entry' caches caches' same
    exact sound.home (caches_releaseTable.mp caches).2 (caches_releaseTable.mp caches').2 same
  case unended =>
    intro table entry caches
    obtain ⟨differ, caches⟩ := caches_releaseTable.mp caches
    rw [runs.others _ (sound.other differ caches)]
    exact sound.unended table entry caches
  case past =>
    intro other outside
    rw [runs.nextCell] at outside
    rw [runs.others other]
    · exact sound.past other outside
    · intro member
      obtain ⟨entry, caches, rfl⟩ := List.mem_map.mp member
      exact Nat.not_lt.mpr outside (sound.placed id entry caches).1

end

/-! ### What all changes have in common -/

/-- Whether no table holds an instance. -/
def Unclaimed (w : World I H) (id : Nat) : Prop :=
  ∀ table entry, w.Caches table entry → entry.2.ref.id ≠ id

structure Tended (w w' : World I H) : Prop where
  nextCell : w.cells.next ≤ w'.cells.next
  released : ∀ table, (w.table table).released = true → (w'.table table).released = true
  /-- An instance stays, or its end hooks have run and it is held by no table. -/
  stays : ∀ table entry, w.Caches table entry → w'.Caches table entry ∨
    w'.Unclaimed entry.2.ref.id ∧ w'.endRuns entry.2.ref.id = entry.2.descriptor.endHookNames
  settled : ∀ id < w.cells.next, w.Unclaimed id → w'.Unclaimed id ∧ w'.endRuns id = w.endRuns id

theorem Tended.trans {w middle last : World I H} (sound : w.Sound) (first : w.Tended middle)
    (second : middle.Tended last) : w.Tended last where
  nextCell := Nat.le_trans first.nextCell second.nextCell
  released table released := second.released table (first.released table released)
  stays table entry caches := by
    rcases first.stays table entry caches with stayed | ⟨unclaimed, ran⟩
    · exact second.stays table entry stayed
    · have below := Nat.lt_of_lt_of_le (sound.placed table entry caches).1 first.nextCell
      obtain ⟨unclaimed', same⟩ := second.settled _ below unclaimed
      exact .inr ⟨unclaimed', same.trans ran⟩
  settled id below unclaimed := by
    obtain ⟨unclaimed', same⟩ := first.settled id below unclaimed
    obtain ⟨unclaimed'', same'⟩ :=
      second.settled id (Nat.lt_of_lt_of_le below first.nextCell) unclaimed'
    exact ⟨unclaimed'', same'.trans same⟩

theorem Grows.tended {busy : List Mark} {w w' : World I H} (grows : Grows busy w w') :
    w.Tended w' where
  nextCell := grows.nextCell
  released table released := by
    rw [grows.released]
    exact released
  stays table entry caches := by
    obtain ⟨gained, grown, -⟩ := grows.gains table
    exact .inl (by rw [Caches, grown]; exact List.mem_append_left _ caches)
  settled id below unclaimed := by
    refine ⟨fun table entry caches => ?_, grows.endRuns id⟩
    obtain ⟨gained, grown, fresh⟩ := grows.gains table
    rw [Caches, grown, List.mem_append] at caches
    rcases caches with old | new
    · exact unclaimed table entry old
    · have beyond := (fresh entry new).2
      omega

theorem Calm.tended {w w' : World I H} (calm : w.Calm w') : w.Tended w' := (calm.grows []).tended

theorem Sound.free {w : World I H} (sound : w.Sound) {table : Nat} {entry : QName × Cached I H}
    (caches : w.Caches table entry) (unheld : ¬ w.Held entry.2.ref.id) : w.Free entry.2.ref.id := by
  obtain ⟨cell, there⟩ := Option.isSome_iff_exists.mp (sound.placed table entry caches).2
  exact ⟨cell, there, Decidable.byContradiction fun borrowed => unheld ⟨cell, there, borrowed⟩⟩

theorem Sound.released_below {w : World I H} (sound : w.Sound) {table : Nat}
    (released : (w.table table).released = true) : table < w.tables.next := by
  refine Nat.lt_of_not_le fun outside => ?_
  rw [World.table, Store.get, sound.unborn table outside] at released
  cases released

theorem tended_releaseTable {w : World I H} (sound : w.Sound) {id : Nat}
    (free : ∀ entry, w.Caches id entry → w.Free entry.2.ref.id) :
    w.Tended (w.releaseTable id) where
  nextCell := Nat.le_of_eq (runs_releaseTable w id).nextCell.symm
  released table released := by
    rw [released_releaseTable]
    exact released
  stays table entry caches := by
    by_cases same : id = table
    · subst same
      refine .inr ⟨fun table other claims same => ?_, ?_⟩
      · obtain ⟨differ, claims⟩ := caches_releaseTable.mp claims
        exact differ (sound.home caches claims same.symm)
      · exact endRuns_releaseTable sound caches (free entry caches)
    · exact .inl (caches_releaseTable.mpr ⟨same, caches⟩)
  settled other below unclaimed := by
    refine ⟨fun table entry caches => unclaimed table entry (caches_releaseTable.mp caches).2, ?_⟩
    refine (runs_releaseTable w id).others other fun member => ?_
    obtain ⟨entry, caches, same⟩ := List.mem_map.mp member
    exact unclaimed id entry caches same

/-! ### Contexts -/

section

variable {w : World I H} {ctx : Context I H}

def retired (w : World I H) (ctx : Context I H) : World I H :=
  w.changeTable ctx ({ · with released := true })

theorem table_retired (w : World I H) (ctx : Context I H) (table : Nat) :
    (w.retired ctx).table table =
      if ctx.node.table = table then { w.table table with released := true }
      else w.table table :=
  table_changeTable w ctx _ table

theorem caches_retired {table : Nat} {entry : QName × Cached I H} :
    (w.retired ctx).Caches table entry ↔ w.Caches table entry := by
  rw [Caches, table_retired]
  split <;> rfl

theorem Sound.retired (sound : w.Sound) (inside : ctx.node.table < w.tables.next)
    (empty : (w.tableOf ctx).components = []) : (w.retired ctx).Sound := by
  constructor
  case unborn =>
    intro table outside
    have apart : ctx.node.table ≠ table := by
      have beyond : w.tables.next ≤ table := outside
      omega
    exact (Store.get?_set_of_ne _ _ apart).trans (sound.unborn table outside)
  case vacant =>
    intro table released
    rw [table_retired] at released ⊢
    split
    · rename_i same
      rw [tableOf, same] at empty
      exact empty
    · rename_i differ
      rw [if_neg differ] at released
      exact sound.vacant table released
  case placed => exact fun table entry caches => sound.placed table entry (caches_retired.mp caches)
  case apart =>
    intro table
    rw [table_retired]
    split <;> exact sound.apart table
  case home =>
    exact fun caches caches' same =>
      sound.home (caches_retired.mp caches) (caches_retired.mp caches') same
  case unended =>
    exact fun table entry caches => sound.unended table entry (caches_retired.mp caches)
  case past => exact sound.past

theorem tended_retired (w : World I H) (ctx : Context I H) : w.Tended (w.retired ctx) where
  nextCell := Nat.le_refl _
  released table released := by
    rw [table_retired]
    split
    · rfl
    · exact released
  stays _ _ caches := .inl (caches_retired.mpr caches)
  settled id below unclaimed :=
    ⟨fun table entry caches => unclaimed table entry (caches_retired.mp caches), rfl⟩

theorem endContext_eq (w : World I H) (ctx : Context I H) :
    w.endContext ctx = if ctx.isPointer = true ∨ w.isReleased ctx = true then w
      else ((w.releaseTable ctx.node.table).retired ctx).note .debug
        ("released " ++ ctx.scope.name ++ " scope context") := by
  unfold endContext
  simp only [Bool.or_eq_true]
  rfl

theorem caches_endContext {table : Nat} {entry : QName × Cached I H}
    (caches : (w.endContext ctx).Caches table entry) : w.Caches table entry := by
  rw [endContext_eq] at caches
  split at caches
  · exact caches
  · exact (caches_releaseTable.mp (caches_retired.mp caches)).2

theorem released_endContext (owner : ctx.isPointer = false) :
    (w.endContext ctx).isReleased ctx = true := by
  rw [endContext_eq]
  split
  · rename_i settled
    rcases settled with pointer | released
    · rw [owner] at pointer
      cases pointer
    · exact released
  · change (((w.releaseTable ctx.node.table).retired ctx).table ctx.node.table).released = true
    rw [table_retired, if_pos rfl]

theorem layers_endContext (w : World I H) (ctx : Context I H) :
    (w.endContext ctx).layers = w.layers := by
  rw [endContext_eq]
  split
  · rfl
  · exact (runs_releaseTable w ctx.node.table).layers

theorem next_endContext (w : World I H) (ctx : Context I H) :
    (w.endContext ctx).nextNode = w.nextNode ∧
      (w.endContext ctx).tables.next = w.tables.next := by
  have runs := runs_releaseTable w ctx.node.table
  rw [endContext_eq]
  split
  · exact ⟨rfl, rfl⟩
  · refine ⟨runs.nextNode, ?_⟩
    change (w.releaseTable ctx.node.table).tables.next = _
    rw [runs.tables]
    rfl

theorem free_endContext {id : Nat} (free : w.Free id) : (w.endContext ctx).Free id := by
  rw [endContext_eq]
  split
  · exact free
  · exact (runs_releaseTable w ctx.node.table).free id free

theorem Sound.endContext (sound : w.Sound) (inside : ctx.node.table < w.tables.next) :
    (w.endContext ctx).Sound := by
  rw [endContext_eq]
  split
  · exact sound
  · have runs := runs_releaseTable w ctx.node.table
    have emptied : (w.releaseTable ctx.node.table).Sound := sound.releaseTable inside
    have ended : ((w.releaseTable ctx.node.table).retired ctx).Sound := by
      refine emptied.retired ?_ ?_
      · rw [runs.tables]
        exact inside
      · rw [tableOf, table_releaseTable, if_pos rfl]
    exact (calm_note _ _ _).sound ended

theorem tended_endContext (sound : w.Sound) (inside : ctx.node.table < w.tables.next)
    (free : ∀ entry, w.Caches ctx.node.table entry → w.Free entry.2.ref.id) :
    w.Tended (w.endContext ctx) := by
  rw [endContext_eq]
  split
  · exact (Calm.refl w).tended
  · refine (tended_releaseTable sound free).trans sound ?_
    refine (tended_retired _ ctx).trans (sound.releaseTable inside) ?_
    exact (calm_note _ _ _).tended

theorem endContexts_cons (w : World I H) (ctx : Context I H) (rest : List (Context I H)) :
    w.endContexts (ctx :: rest) = (w.endContext ctx).endContexts rest := rfl

theorem layers_endContexts (w : World I H) (contexts : List (Context I H)) :
    (w.endContexts contexts).layers = w.layers := by
  induction contexts generalizing w with
  | nil => rfl
  | cons ctx rest ih => rw [endContexts_cons, ih, layers_endContext]

theorem next_endContexts (w : World I H) (contexts : List (Context I H)) :
    (w.endContexts contexts).nextNode = w.nextNode ∧
      (w.endContexts contexts).tables.next = w.tables.next := by
  induction contexts generalizing w with
  | nil => exact ⟨rfl, rfl⟩
  | cons ctx rest ih =>
    obtain ⟨node, table⟩ := next_endContext w ctx
    rw [endContexts_cons, (ih _).1, (ih _).2]
    exact ⟨node, table⟩

theorem Sound.endContexts {contexts : List (Context I H)} (sound : w.Sound)
    (inside : ∀ ctx ∈ contexts, ctx.node.table < w.tables.next) :
    (w.endContexts contexts).Sound := by
  induction contexts generalizing w with
  | nil => exact sound
  | cons ctx rest ih =>
    refine ih (sound.endContext (inside ctx (List.mem_cons_self ..))) fun other member => ?_
    rw [(next_endContext w ctx).2]
    exact inside other (List.mem_cons_of_mem _ member)

theorem tended_endContexts {contexts : List (Context I H)} (sound : w.Sound)
    (inside : ∀ ctx ∈ contexts, ctx.node.table < w.tables.next)
    (free : ∀ ctx ∈ contexts, ∀ entry, w.Caches ctx.node.table entry → w.Free entry.2.ref.id) :
    w.Tended (w.endContexts contexts) := by
  induction contexts generalizing w with
  | nil => exact (Calm.refl w).tended
  | cons ctx rest ih =>
    have first := List.mem_cons_self (a := ctx) (l := rest)
    refine (tended_endContext sound (inside ctx first) (free ctx first)).trans sound ?_
    refine ih (sound.endContext (inside ctx first)) (fun other member => ?_)
      fun other member entry caches => ?_
    · rw [(next_endContext w ctx).2]
      exact inside other (List.mem_cons_of_mem _ member)
    · exact free_endContext
        (free other (List.mem_cons_of_mem _ member) entry (caches_endContext caches))

theorem released_mono (w : World I H) (ctx : Context I H) {table : Nat}
    (released : (w.table table).released = true) :
    ((w.endContext ctx).table table).released = true := by
  rw [endContext_eq]
  split
  · exact released
  · change (((w.releaseTable ctx.node.table).retired ctx).table table).released = true
    rw [table_retired]
    split
    · rfl
    · rw [released_releaseTable]
      exact released

theorem released_mono_all (w : World I H) (contexts : List (Context I H)) {table : Nat}
    (released : (w.table table).released = true) :
    ((w.endContexts contexts).table table).released = true := by
  induction contexts generalizing w with
  | nil => exact released
  | cons ctx rest ih => exact ih _ (released_mono w ctx released)

theorem released_endContexts {contexts : List (Context I H)}
    (ended : w.isReleased ctx = true ∨ ctx ∈ contexts ∧ ctx.isPointer = false) :
    (w.endContexts contexts).isReleased ctx = true := by
  rcases ended with released | ⟨member, owner⟩
  · exact released_mono_all w contexts released
  induction contexts generalizing w with
  | nil => cases member
  | cons first rest ih =>
    rcases List.mem_cons.mp member with rfl | later
    · exact released_mono_all _ rest (released_endContext owner)
    · exact ih later

end

end World
end CommandChain
