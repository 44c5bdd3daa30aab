import CommandChain.Proofs.World.Lookup

/-!
The instances in the tables of a world. In a sound world every cached instance has a place of its
own and none of its end hooks has run; a released table holds none. `Calm` changes leave the
instances alone, lookups only add new ones, and what a lookup adds for a name under a mark is
nothing.
-/
namespace CommandChain

variable {I H : Type}

namespace World

/-- The end hooks that were run on an instance, oldest first. -/
def endRuns (w : World I H) (id : Nat) : List String :=
  (w.hookRuns.reverse.filter fun run => run.component = id ∧ run.phase = .end).map (·.hook)

def Caches (w : World I H) (table : Nat) (entry : QName × Cached I H) : Prop :=
  entry ∈ (w.table table).components

structure Sound (w : World I H) : Prop where
  /-- Tables that were not handed out are not there. -/
  unborn : ∀ table, w.tables.next ≤ table → w.tables.get? table = none
  vacant : ∀ table, (w.table table).released = true → (w.table table).components = []
  placed : ∀ table entry, w.Caches table entry →
    entry.2.ref.id < w.cells.next ∧ (w.cells.get? entry.2.ref.id).isSome = true
  apart : ∀ table, ((w.table table).components.map (·.2.ref.id)).Nodup
  home : ∀ {table table' entry entry'}, w.Caches table entry → w.Caches table' entry' →
    entry.2.ref.id = entry'.2.ref.id → table = table'
  unended : ∀ table entry, w.Caches table entry → w.endRuns entry.2.ref.id = []
  past : ∀ id, w.cells.next ≤ id → w.endRuns id = []

theorem Sound.start (host : H) : (World.start (I := I) host).Sound where
  unborn _ _ := rfl
  vacant _ released := by cases released
  placed _ _ caches := by cases caches
  apart _ := List.nodup_nil
  home caches := by cases caches
  unended _ _ caches := by cases caches
  past _ _ := rfl

theorem table_setTable (w : World I H) (id : Nat) (table : Table I H) (other : Nat) :
    (w.setTable id table).table other = if id = other then table else w.table other := by
  unfold World.table setTable Store.get
  split
  · subst other
    rw [Store.get?_set_self]
    rfl
  · rw [Store.get?_set_of_ne _ _ ‹_›]

theorem table_changeTable (w : World I H) (ctx : Context I H) (change : Table I H → Table I H)
    (table : Nat) : (w.changeTable ctx change).table table =
      if ctx.node.table = table then change (w.table table) else w.table table := by
  rw [changeTable, table_setTable]
  split
  · rename_i same
    rw [tableOf, same]
  · rfl

/-! ### Changes that leave the instances alone -/

/-- Whether a change leaves the instances in tables, and what was done to them, as they were. -/
structure Calm (w w' : World I H) : Prop where
  nextLayer : w.layers.next ≤ w'.layers.next
  nextNode : w.nextNode ≤ w'.nextNode
  nextTable : w.tables.next ≤ w'.tables.next
  unborn : ∀ table, w'.tables.next ≤ table → w.tables.get? table = none →
    w'.tables.get? table = none
  components : ∀ table, (w'.table table).components = (w.table table).components
  released : ∀ table, (w'.table table).released = (w.table table).released
  nextCell : w.cells.next ≤ w'.cells.next
  kept : ∀ id, (w.cells.get? id).isSome = true → (w'.cells.get? id).isSome = true
  endRuns : ∀ id, w'.endRuns id = w.endRuns id

theorem Alike.calm {w w' : World I H} (same : w.Alike w') : w.Calm w' := by
  obtain ⟨nextLayer, tables, cells, hookRuns, nextNode⟩ := same
  constructor <;> simp_all [World.table, World.endRuns]

theorem Calm.caches_iff {w w' : World I H} (calm : w.Calm w') (table : Nat)
    (entry : QName × Cached I H) : w'.Caches table entry ↔ w.Caches table entry := by
  unfold Caches
  rw [calm.components]

theorem Calm.sound {w w' : World I H} (calm : w.Calm w') (sound : w.Sound) : w'.Sound where
  unborn table outside :=
    calm.unborn table outside (sound.unborn table (Nat.le_trans calm.nextTable outside))
  vacant table released := by
    rw [calm.released] at released
    rw [calm.components]
    exact sound.vacant table released
  placed table entry caches := by
    obtain ⟨below, there⟩ := sound.placed table entry ((calm.caches_iff _ _).mp caches)
    exact ⟨Nat.lt_of_lt_of_le below calm.nextCell, calm.kept _ there⟩
  apart table := by
    rw [calm.components]
    exact sound.apart table
  home caches caches' same :=
    sound.home ((calm.caches_iff _ _).mp caches) ((calm.caches_iff _ _).mp caches') same
  unended table entry caches := by
    rw [calm.endRuns]
    exact sound.unended table entry ((calm.caches_iff _ _).mp caches)
  past id outside := by
    rw [calm.endRuns]
    exact sound.past id (Nat.le_trans calm.nextCell outside)

theorem calm_changeTable {w : World I H} {ctx : Context I H} (here : ctx.node.table < w.tables.next)
    {change : Table I H → Table I H}
    (components : ∀ table, (change table).components = table.components)
    (released : ∀ table, (change table).released = table.released) :
    w.Calm (w.changeTable ctx change) where
  nextLayer := Nat.le_refl _
  nextNode := Nat.le_refl _
  nextTable := Nat.le_refl _
  unborn table outside absent := by
    have beyond : w.tables.next ≤ table := outside
    unfold changeTable setTable
    rw [Store.get?_set_of_ne _ _ (by omega)]
    exact absent
  components table := by
    rw [table_changeTable]
    split
    · exact components _
    · rfl
  released table := by
    rw [table_changeTable]
    split
    · exact released _
    · rfl
  nextCell := Nat.le_refl _
  kept _ there := there
  endRuns _ := rfl

theorem calm_beginMaking {w : World I H} {ctx : Context I H}
    (here : ctx.node.table < w.tables.next) (name : QName) : w.Calm (w.beginMaking ctx name) :=
  calm_changeTable here (fun _ => rfl) fun _ => rfl

theorem isSome_set {α : Type} (store : Store α) (id other : Nat) (value : α)
    (there : (store.get? other).isSome = true) :
    ((store.set id value).get? other).isSome = true := by
  by_cases same : id = other
  · subst other
    rw [Store.get?_set_self]
    rfl
  · rw [Store.get?_set_of_ne _ _ same]
    exact there

theorem calm_setCell (w : World I H) (id : Nat) (cell : Cell I) (host : H) :
    w.Calm { w with cells := w.cells.set id cell, host } where
  nextLayer := Nat.le_refl _
  nextNode := Nat.le_refl _
  nextTable := Nat.le_refl _
  unborn _ _ absent := absent
  components _ := rfl
  released _ := rfl
  nextCell := Nat.le_refl _
  kept _ there := isSome_set _ _ _ _ there
  endRuns _ := rfl

theorem Calm.refl (w : World I H) : w.Calm w := Alike.calm ⟨rfl, rfl, rfl, rfl, rfl⟩

theorem calm_note (w : World I H) (level : LogLevel) (text : String) : w.Calm (w.note level text) :=
  Alike.calm ⟨rfl, rfl, rfl, rfl, rfl⟩

theorem Calm.trans {w middle last : World I H} (first : w.Calm middle)
    (second : middle.Calm last) : w.Calm last where
  nextLayer := Nat.le_trans first.nextLayer second.nextLayer
  nextNode := Nat.le_trans first.nextNode second.nextNode
  nextTable := Nat.le_trans first.nextTable second.nextTable
  unborn table outside absent :=
    second.unborn table outside
      (first.unborn table (Nat.le_trans second.nextTable outside) absent)
  components table := (second.components table).trans (first.components table)
  released table := (second.released table).trans (first.released table)
  nextCell := Nat.le_trans first.nextCell second.nextCell
  kept id there := second.kept id (first.kept id there)
  endRuns id := (second.endRuns id).trans (first.endRuns id)

theorem calm_endMaking {w : World I H} {ctx : Context I H}
    (here : ctx.node.table < w.tables.next) (name : QName) (made : Option ComponentRef) :
    w.Calm (w.endMaking ctx name made) := by
  have changed : w.Calm (w.changeTable ctx (·.endMaking name)) :=
    calm_changeTable here (fun _ => rfl) fun _ => rfl
  exact changed.trans (Alike.calm ⟨rfl, rfl, rfl, rfl, rfl⟩)

theorem calm_runOn {α : Type} (w : World I H) (ref : ComponentRef) (action : Action I H α) :
    w.Calm (w.runOn ref action).2 := by
  rcases w.runOn_spec ref action with ⟨_, _, _, _, _, -, -, ran⟩ | ⟨-, idle⟩
  · rw [ran]
    exact calm_setCell w _ _ _
  · rw [idle]
    exact .refl w

theorem calm_addCell (w : World I H) (typeName : String) (content : I) :
    w.Calm (w.addCell typeName content).2 where
  nextLayer := Nat.le_refl _
  nextNode := Nat.le_refl _
  nextTable := Nat.le_refl _
  unborn _ _ absent := absent
  components _ := rfl
  released _ := rfl
  nextCell := Nat.le_succ _
  kept id there := by
    change ((w.cells.add _).2.get? id).isSome = true
    by_cases same : w.cells.next = id
    · subst id
      exact Option.isSome_iff_exists.mpr ⟨_, Store.get?_add_self w.cells _⟩
    · rw [Store.get?_add_of_ne _ _ same]
      exact there
  endRuns _ := rfl

theorem calm_beginRun (w : World I H) (component : Nat) (hook : String) :
    w.Calm { w with hookRuns := ⟨component, .begin, hook⟩ :: w.hookRuns } where
  nextLayer := Nat.le_refl _
  nextNode := Nat.le_refl _
  nextTable := Nat.le_refl _
  unborn _ _ absent := absent
  components _ := rfl
  released _ := rfl
  nextCell := Nat.le_refl _
  kept _ there := there
  endRuns id := by simp [endRuns]

theorem calm_beginHook (w : World I H) (ref : ComponentRef) (hook : Hook I H) :
    w.Calm (w.runHook ref .begin hook).2 := by
  rcases w.runHook_spec ref .begin hook with ⟨_, _, _, _, _, -, -, ran⟩ | ⟨-, idle⟩
  · rw [ran]
    exact (calm_setCell w _ _ _).trans (calm_beginRun _ ref.id hook.name)
  · rw [idle]
    exact .refl w

/-! ### Lookups -/

/-- That tables have only gained instances, new ones, and under none of the marks. -/
structure Grows (busy : List Mark) (w w' : World I H) : Prop where
  nextLayer : w.layers.next ≤ w'.layers.next
  nextNode : w.nextNode ≤ w'.nextNode
  nextTable : w.tables.next ≤ w'.tables.next
  released : ∀ table, (w'.table table).released = (w.table table).released
  nextCell : w.cells.next ≤ w'.cells.next
  kept : ∀ id, (w.cells.get? id).isSome = true → (w'.cells.get? id).isSome = true
  endRuns : ∀ id, w'.endRuns id = w.endRuns id
  gains : ∀ table, ∃ gained,
    (w'.table table).components = (w.table table).components ++ gained ∧
    ∀ entry ∈ gained, (table, entry.1) ∉ busy ∧ w.cells.next ≤ entry.2.ref.id

theorem Calm.grows {w w' : World I H} (calm : w.Calm w') (busy : List Mark) : Grows busy w w' where
  nextLayer := calm.nextLayer
  nextNode := calm.nextNode
  nextTable := calm.nextTable
  released := calm.released
  nextCell := calm.nextCell
  kept := calm.kept
  endRuns := calm.endRuns
  gains table := ⟨[], by rw [calm.components, List.append_nil], fun _ member => by cases member⟩

theorem Grows.trans {busy : List Mark} {w middle last : World I H} (first : Grows busy w middle)
    (second : Grows busy middle last) : Grows busy w last where
  nextLayer := Nat.le_trans first.nextLayer second.nextLayer
  nextNode := Nat.le_trans first.nextNode second.nextNode
  nextTable := Nat.le_trans first.nextTable second.nextTable
  released table := (second.released table).trans (first.released table)
  nextCell := Nat.le_trans first.nextCell second.nextCell
  kept id there := second.kept id (first.kept id there)
  endRuns id := (second.endRuns id).trans (first.endRuns id)
  gains table := by
    obtain ⟨early, grown, fresh⟩ := first.gains table
    obtain ⟨late, grown', fresh'⟩ := second.gains table
    refine ⟨early ++ late, by rw [grown', grown, List.append_assoc], ?_⟩
    intro entry member
    rcases List.mem_append.mp member with member | member
    · exact fresh entry member
    · obtain ⟨unmarked, above⟩ := fresh' entry member
      exact ⟨unmarked, Nat.le_trans first.nextCell above⟩

theorem Grows.unmark {busy : List Mark} {mark : Mark} {w w' : World I H}
    (grows : Grows (mark :: busy) w w') : Grows busy w w' where
  nextLayer := grows.nextLayer
  nextNode := grows.nextNode
  nextTable := grows.nextTable
  released := grows.released
  nextCell := grows.nextCell
  kept := grows.kept
  endRuns := grows.endRuns
  gains table := by
    obtain ⟨gained, grown, fresh⟩ := grows.gains table
    refine ⟨gained, grown, fun entry member => ?_⟩
    obtain ⟨unmarked, above⟩ := fresh entry member
    exact ⟨fun marked => unmarked (List.mem_cons_of_mem _ marked), above⟩

/-- A sound world with so many tables grows into a sound one. -/
def Growth (limit : Nat) (busy : List Mark) (w w' : World I H) : Prop :=
  w.Sound → limit ≤ w.tables.next → w'.Sound ∧ Grows busy w w'

theorem Calm.growth {w w' : World I H} (calm : w.Calm w') (limit : Nat) (busy : List Mark) :
    Growth limit busy w w' :=
  fun sound _ => ⟨calm.sound sound, calm.grows busy⟩

theorem insert_of_absent {κ ν : Type} [DecidableEq κ] {entries : OrderedMap κ ν} {key : κ}
    (value : ν) (absent : OrderedMap.find? entries key = none) :
    OrderedMap.insert entries key value = entries ++ [(key, value)] := by
  induction entries with
  | nil => rfl
  | cons pair rest ih =>
    obtain ⟨k, v⟩ := pair
    by_cases same : k = key
    · simp [OrderedMap.find?, same] at absent
    · simp only [OrderedMap.find?, same, if_false] at absent
      simp [OrderedMap.insert, same, ih absent]

theorem find?_append_absent {κ ν : Type} [DecidableEq κ] {entries more : OrderedMap κ ν} {key : κ}
    (absent : OrderedMap.find? entries key = none) (new : ∀ entry ∈ more, entry.1 ≠ key) :
    OrderedMap.find? (entries ++ more) key = none := by
  induction entries with
  | nil =>
    induction more with
    | nil => rfl
    | cons pair rest ih =>
      have differ := new pair (List.mem_cons_self ..)
      simp only [List.nil_append, OrderedMap.find?, differ, if_false]
      exact ih fun entry member => new entry (List.mem_cons_of_mem _ member)
  | cons pair rest ih =>
    obtain ⟨k, v⟩ := pair
    by_cases same : k = key
    · simp [OrderedMap.find?, same] at absent
    · simp only [OrderedMap.find?, same, if_false] at absent
      simp only [List.cons_append, OrderedMap.find?, same, if_false]
      exact ih absent

theorem component?_cache (w : World I H) (ctx : Context I H) (name : QName) (cached : Cached I H)
    (table : Nat) (other : QName) :
    ((w.changeTable ctx (·.cache name cached)).table table).component? other =
      if ctx.node.table = table ∧ name = other then some cached.ref
      else (w.table table).component? other := by
  rw [table_changeTable]
  split
  · rename_i here
    by_cases same : name = other
    · rw [if_pos ⟨here, same⟩, same, Table.component?, Table.cache, OrderedMap.find?_insert_self]
      rfl
    · rw [if_neg fun both => same both.2, Table.component?, Table.cache,
        OrderedMap.find?_insert_of_ne _ _ same, Table.component?]
  · rename_i elsewhere
    rw [if_neg fun both => elsewhere both.1]

section

variable {w : World I H} {ctx : Context I H} {name : QName} {cached : Cached I H}

theorem components_cache (nameless : (w.tableOf ctx).component? name = none) (table : Nat) :
    ((w.changeTable ctx (·.cache name cached)).table table).components =
      (w.table table).components ++ if ctx.node.table = table then [(name, cached)] else [] := by
  have absent : OrderedMap.find? (w.tableOf ctx).components name = none := by
    simpa [Table.component?] using nameless
  rw [changeTable, table_setTable]
  split
  · rename_i same
    rw [Table.cache, insert_of_absent _ absent, tableOf, same]
  · rw [List.append_nil]

theorem released_cache (table : Nat) :
    ((w.changeTable ctx (·.cache name cached)).table table).released =
      (w.table table).released := by
  rw [table_changeTable]
  split <;> rfl

theorem Sound.cache (sound : w.Sound) (here : ctx.node.table < w.tables.next)
    (live : w.isReleased ctx = false) (nameless : (w.tableOf ctx).component? name = none)
    (placed : cached.ref.id < w.cells.next ∧ (w.cells.get? cached.ref.id).isSome = true)
    (new : ∀ table entry, w.Caches table entry → entry.2.ref.id ≠ cached.ref.id)
    (unended : w.endRuns cached.ref.id = []) : (w.changeTable ctx (·.cache name cached)).Sound := by
  have caches_iff : ∀ table entry, (w.changeTable ctx (·.cache name cached)).Caches table entry ↔
      w.Caches table entry ∨ ctx.node.table = table ∧ entry = (name, cached) := by
    intro table entry
    rw [Caches, components_cache nameless, List.mem_append]
    split <;> simp_all [Caches]
  constructor
  case unborn =>
    intro table outside
    have apart : ctx.node.table ≠ table := by
      have : w.tables.next ≤ table := outside
      omega
    rw [changeTable, setTable, Store.get?_set_of_ne _ _ apart]
    exact sound.unborn table outside
  case vacant =>
    intro table released
    rw [released_cache] at released
    rw [components_cache nameless, sound.vacant table released, List.nil_append, if_neg]
    intro same
    rw [isReleased, tableOf, same, released] at live
    cases live
  case placed =>
    intro table entry caches
    rcases (caches_iff _ _).mp caches with old | ⟨-, rfl⟩
    · exact sound.placed table entry old
    · exact placed
  case apart =>
    intro table
    rw [components_cache nameless, List.map_append, List.nodup_append]
    refine ⟨sound.apart table, by split <;> simp, ?_⟩
    intro id member id' member' same
    obtain ⟨entry, caches, rfl⟩ := List.mem_map.mp member
    split at member'
    · have at_place : id' = cached.ref.id := by simpa using member'
      exact new table entry caches (same.trans at_place)
    · cases member'
  case home =>
    intro table table' entry entry' caches caches' same
    rcases (caches_iff _ _).mp caches with old | ⟨here, rfl⟩ <;>
      rcases (caches_iff _ _).mp caches' with old' | ⟨here', rfl⟩
    · exact sound.home old old' same
    · exact absurd same (new table entry old)
    · exact absurd same.symm (new table' entry' old')
    · exact here.symm.trans here'
  case unended =>
    intro table entry caches
    rcases (caches_iff _ _).mp caches with old | ⟨-, rfl⟩
    · exact sound.unended table entry old
    · exact unended
  case past => exact sound.past

end

theorem growth_cache {busy : List Mark} {ctx : Context I H} {name : QName} {d : Descriptor I H}
    {content : I} {w made w' : World I H} {limit : Nat} (here : ctx.node.table < limit)
    (free : (ctx.node.table, name) ∉ busy) (live : w.isReleased ctx = false)
    (absent : (w.tableOf ctx).component? name = none)
    (same : (w.beginMaking ctx name).Alike made)
    (marked : Growth limit ((ctx.node.table, name) :: busy)
      (made.addCell d.typeName content).2 w') :
    Growth limit busy w
      ((w'.endMaking ctx name (some (made.addCell d.typeName content).1)).changeTable ctx
        (·.cache name ⟨(made.addCell d.typeName content).1, d⟩)) := by
  intro sound bounded
  have placing := (calm_beginMaking (Nat.lt_of_lt_of_le here bounded) name).trans
    (same.calm.trans (calm_addCell made d.typeName content))
  obtain ⟨sound', grows⟩ := marked (placing.sound sound)
    (Nat.le_trans bounded placing.nextTable)
  have inside : ctx.node.table < w'.tables.next :=
    Nat.lt_of_lt_of_le here
      (Nat.le_trans bounded (Nat.le_trans placing.nextTable grows.nextTable))
  have ending := calm_endMaking inside name (some (made.addCell d.typeName content).1)
  replace sound' := ending.sound sound'
  replace grows := grows.trans (ending.grows _)
  generalize w'.endMaking ctx name _ = w' at *
  have there : (w'.cells.get? made.cells.next).isSome = true :=
    grows.kept _ (Option.isSome_iff_exists.mpr ⟨_, Store.get?_add_self made.cells _⟩)
  have place : made.cells.next = w.cells.next := by
    rw [same.cells]
    rfl
  have above : made.cells.next + 1 ≤ w'.cells.next := grows.nextCell
  have new : ∀ table entry, w'.Caches table entry → entry.2.ref.id ≠ made.cells.next := by
    intro table entry caches at_place
    obtain ⟨gained, grown, fresh⟩ := grows.gains table
    rw [Caches, grown, placing.components, List.mem_append] at caches
    rcases caches with old | new
    · have below := (sound.placed table entry old).1
      omega
    · have beyond : made.cells.next + 1 ≤ _ := (fresh entry new).2
      omega
  have nameless : (w'.tableOf ctx).component? name = none := by
    obtain ⟨gained, grown, fresh⟩ := grows.gains ctx.node.table
    have missing : OrderedMap.find? (w'.table ctx.node.table).components name = none := by
      rw [grown, placing.components]
      refine find?_append_absent (by simpa [Table.component?, tableOf] using absent)
        fun entry member same => ?_
      exact (fresh entry member).1 (by rw [same]; exact List.mem_cons_self ..)
    rw [Table.component?, tableOf, missing]
    rfl
  have unended : w'.endRuns made.cells.next = [] := by
    rw [grows.endRuns, placing.endRuns]
    exact sound.past _ (by omega)
  have live' : w'.isReleased ctx = false := by
    rw [isReleased, tableOf, grows.released, placing.released]
    exact live
  have inside : ctx.node.table < w'.tables.next :=
    Nat.lt_of_lt_of_le here
      (Nat.le_trans bounded (Nat.le_trans placing.nextTable grows.nextTable))
  refine ⟨sound'.cache inside live' nameless ⟨above, there⟩ new unended, ?_⟩
  exact {
    nextLayer := Nat.le_trans placing.nextLayer grows.nextLayer
    nextNode := Nat.le_trans placing.nextNode grows.nextNode
    nextTable := Nat.le_trans placing.nextTable grows.nextTable
    released := fun table => (released_cache table).trans
      ((grows.released table).trans (placing.released table))
    nextCell := Nat.le_trans placing.nextCell grows.nextCell
    kept := fun id there => grows.kept id (placing.kept id there)
    endRuns := fun id => (grows.endRuns id).trans (placing.endRuns id)
    gains := by
      intro table
      obtain ⟨gained, grown, fresh⟩ := grows.gains table
      refine ⟨_, by
        rw [components_cache nameless, grown, placing.components, List.append_assoc], ?_⟩
      intro entry member
      rcases List.mem_append.mp member with member | member
      · obtain ⟨unmarked, beyond⟩ := fresh entry member
        exact ⟨fun marked => unmarked (List.mem_cons_of_mem _ marked),
          Nat.le_trans placing.nextCell beyond⟩
      · split at member
        · rename_i at_home
          cases List.mem_singleton.mp member
          exact ⟨at_home ▸ free, Nat.le_of_eq place.symm⟩
        · cases member }

theorem growth_fail {busy : List Mark} {ctx : Context I H} {name : QName} {w w' : World I H}
    {limit : Nat} (here : ctx.node.table < limit)
    (marked : Growth limit ((ctx.node.table, name) :: busy) (w.beginMaking ctx name) w') :
    Growth limit busy w (w'.endMaking ctx name none) := by
  intro sound bounded
  have starting := calm_beginMaking (Nat.lt_of_lt_of_le here bounded) name
  obtain ⟨sound', grows⟩ := marked (starting.sound sound) bounded
  have ending := calm_endMaking
    (Nat.lt_of_lt_of_le here (Nat.le_trans bounded grows.nextTable)) name none
  exact ⟨ending.sound sound', (starting.grows busy).trans (grows.unmark.trans (ending.grows busy))⟩

theorem growth_bracket {limit : Nat} {busy : List Mark} {w w' : World I H} {ctx : Context I H}
    {mappings : List (String × String)} {snapshot : Snapshot}
    (inner : Growth limit busy (w.overrideBindings ctx mappings).2 w') :
    Growth limit busy w (w'.restoreBindings ctx snapshot) := by
  intro sound bounded
  have before : w.Alike (w.overrideBindings ctx mappings).2 := ⟨rfl, rfl, rfl, rfl, rfl⟩
  have after : w'.Alike (w'.restoreBindings ctx snapshot) := ⟨rfl, rfl, rfl, rfl, rfl⟩
  obtain ⟨sound', grows⟩ := inner (before.calm.sound sound) bounded
  exact ⟨after.calm.sound sound',
    (before.calm.grows busy).trans (grows.trans (after.calm.grows busy))⟩

theorem growth_rules (limit : Nat) :
    DeclaringRules (I := I) (H := H) (fun node => node.table < limit) (fun _ _ _ => True)
      (Growth limit) where
  steady busy := {
    refl := fun w => (Calm.refl w).growth limit busy
    trans := by
      intro w middle last first second sound bounded
      obtain ⟨sound', grows⟩ := first sound bounded
      obtain ⟨sound'', grows'⟩ := second sound' (Nat.le_trans bounded grows.nextTable)
      exact ⟨sound'', grows.trans grows'⟩ }
  own _ _ _ := trivial
  twin same := same.toAlike.calm.growth limit _
  bracket _ inner := growth_bracket inner
  construct w typeName content := (calm_addCell w typeName content).growth limit _
  run w ref action := (calm_runOn w ref action).growth limit _
  hook w ref hook := (calm_beginHook w ref hook).growth limit _
  declare here w change := by
    intro sound bounded
    refine Calm.growth (calm_changeTable ?_ ?_ ?_) limit _ sound bounded
    · exact Nat.lt_of_lt_of_le here bounded
    · exact fun _ => rfl
    · exact fun _ => rfl
  fail here _ _ marked := growth_fail here marked
  cache here _ free _ live absent same marked :=
    growth_cache here free live absent same.toAlike marked

end World
end CommandChain
