import CommandChain.Proofs.World.Overrides

/-!
What a layer says about one prefix. A layer holds each prefix once, so to put back one prefix leaves
all others alone, and what an override replaced is what a layer said before, whatever was bound
under other prefixes in the meantime.
-/
namespace CommandChain

namespace OrderedMap

variable {κ ν : Type} [DecidableEq κ]

theorem mem_keys_insert (entries : OrderedMap κ ν) (key : κ) (value : ν) (other : κ) :
    other ∈ keys (insert entries key value) ↔ other = key ∨ other ∈ keys entries := by
  induction entries with
  | nil => simp [insert, keys]
  | cons entry rest ih =>
    obtain ⟨first, old⟩ := entry
    unfold insert
    split
    · rename_i same
      subst same
      simp [keys]
    · simp only [keys, List.map_cons, List.mem_cons] at ih ⊢
      rw [ih]
      exact or_left_comm

theorem nodup_insert {entries : OrderedMap κ ν} (once : (keys entries).Nodup) (key : κ)
    (value : ν) : (keys (insert entries key value)).Nodup := by
  induction entries with
  | nil => exact List.pairwise_singleton _ key
  | cons entry rest ih =>
    obtain ⟨first, old⟩ := entry
    obtain ⟨absent, once⟩ := List.nodup_cons.mp once
    unfold insert
    split
    · exact List.nodup_cons.mpr ⟨absent, once⟩
    · rename_i differ
      refine List.nodup_cons.mpr ⟨fun member => ?_, ih once⟩
      rcases (mem_keys_insert rest key value first).mp member with same | there
      · exact differ same
      · exact absent there

theorem keys_erase_sublist (entries : OrderedMap κ ν) (key : κ) :
    (keys (erase entries key)).Sublist (keys entries) := by
  induction entries with
  | nil => exact List.Sublist.refl _
  | cons entry rest ih =>
    obtain ⟨first, old⟩ := entry
    unfold erase
    split
    · exact List.sublist_cons_self first _
    · exact ih.cons_cons first

theorem find?_absent {entries : OrderedMap κ ν} {key : κ} (absent : key ∉ keys entries) :
    find? entries key = none := by
  induction entries with
  | nil => rfl
  | cons entry rest ih =>
    obtain ⟨first, old⟩ := entry
    obtain ⟨differ, absent⟩ := not_or.mp (mt List.mem_cons.mpr absent)
    rw [find?, if_neg (Ne.symm differ), ih absent]

theorem not_mem_keys_iff (entries : OrderedMap κ ν) (key : κ) :
    key ∉ keys entries ↔ find? entries key = none := by
  refine ⟨find?_absent, fun nothing member => ?_⟩
  induction entries with
  | nil => cases member
  | cons first rest ih =>
    obtain ⟨k, v⟩ := first
    by_cases same : k = key
    · simp [find?, same] at nothing
    · rw [find?, if_neg same] at nothing
      rcases List.mem_cons.mp member with rfl | later
      · exact same rfl
      · exact ih nothing later

theorem find?_erase_self {entries : OrderedMap κ ν} (once : (keys entries).Nodup) (key : κ) :
    find? (erase entries key) key = none := by
  induction entries with
  | nil => rfl
  | cons entry rest ih =>
    obtain ⟨first, old⟩ := entry
    obtain ⟨absent, once⟩ := List.nodup_cons.mp once
    unfold erase
    split
    · rename_i same
      subst same
      exact find?_absent absent
    · rename_i differ
      rw [find?, if_neg differ, ih once]

theorem mem_of_mem_insert {entries : OrderedMap κ ν} {key : κ} {value : ν} {entry : κ × ν}
    (member : entry ∈ insert entries key value) : entry ∈ entries ∨ entry = (key, value) := by
  induction entries with
  | nil => exact .inr (List.mem_singleton.mp member)
  | cons first rest ih =>
    unfold insert at member
    split at member
    · rename_i same
      rcases List.mem_cons.mp member with rfl | later
      · exact .inr (by rw [same])
      · exact .inl (List.mem_cons_of_mem _ later)
    · rcases List.mem_cons.mp member with rfl | later
      · exact .inl List.mem_cons_self
      · exact (ih later).imp_left (List.mem_cons_of_mem _)

theorem mem_of_find? {entries : OrderedMap κ ν} {key : κ} {value : ν}
    (found : find? entries key = some value) : (key, value) ∈ entries := by
  induction entries with
  | nil => cases found
  | cons first rest ih =>
    unfold find? at found
    split at found
    · rename_i same
      cases found
      rw [← same]
      exact List.mem_cons_self
    · exact List.mem_cons_of_mem _ (ih found)

theorem mem_iff_find? {entries : OrderedMap κ ν} (once : (keys entries).Nodup) {key : κ}
    {value : ν} : (key, value) ∈ entries ↔ find? entries key = some value := by
  refine ⟨fun member => ?_, mem_of_find?⟩
  induction entries with
  | nil => cases member
  | cons first rest ih =>
    obtain ⟨k, v⟩ := first
    obtain ⟨absent, once⟩ := List.nodup_cons.mp once
    rcases List.mem_cons.mp member with same | later
    · cases same
      simp [find?]
    · have differ : k ≠ key := by
        intro same
        subst same
        exact absent (List.mem_map.mpr ⟨(k, value), later, rfl⟩)
      rw [find?, if_neg differ]
      exact ih once later

theorem find?_append_some {entries more : OrderedMap κ ν} {key : κ} {value : ν}
    (found : find? entries key = some value) : find? (entries ++ more) key = some value := by
  induction entries with
  | nil => cases found
  | cons first rest ih =>
    unfold find? at found
    rw [List.cons_append]
    unfold find?
    split at found
    · rename_i same
      rwa [if_pos same]
    · rename_i differ
      rw [if_neg differ]
      exact ih found

theorem find?_append_none {entries more : OrderedMap κ ν} {key : κ}
    (absent : find? entries key = none) : find? (entries ++ more) key = find? more key := by
  induction entries with
  | nil => rfl
  | cons first rest ih =>
    unfold find? at absent
    rw [List.cons_append]
    split at absent
    · cases absent
    · rename_i differ
      rw [find?, if_neg differ]
      exact ih absent

theorem nodup_ofPairs (pairs : List (κ × ν)) : (keys (ofPairs pairs)).Nodup :=
  List.foldlRecOn (motive := fun entries => (keys entries).Nodup) pairs _ List.nodup_nil
    fun _ once pair _ => nodup_insert once pair.1 pair.2

end OrderedMap

namespace Namespaces

open OrderedMap

theorem nodup_overrideLayer {layer : Layer} (once : (keys layer).Nodup)
    (mappings : List (String × String)) : (keys (overrideLayer layer mappings).2).Nodup := by
  induction mappings generalizing layer with
  | nil => exact once
  | cons mapping rest ih => exact ih (nodup_insert once mapping.1 _)

theorem nodup_restoreEntry {layer : Layer} (once : (keys layer).Nodup) (name : String)
    (previous : Option Binding) : (keys (restoreEntry layer name previous)).Nodup := by
  cases previous with
  | none => exact once.sublist (keys_erase_sublist layer name)
  | some binding => exact nodup_insert once name binding

theorem restoreLayer_cons (layer : Layer) (name : String) (previous : Option Binding)
    (rest : Snapshot) : restoreLayer layer ((name, previous) :: rest) =
      restoreEntry (restoreLayer layer rest) name previous := by
  simp [restoreLayer]

theorem nodup_restoreLayer {layer : Layer} (once : (keys layer).Nodup) (snapshot : Snapshot) :
    (keys (restoreLayer layer snapshot)).Nodup := by
  induction snapshot with
  | nil => exact once
  | cons entry rest ih =>
    obtain ⟨name, previous⟩ := entry
    rw [restoreLayer_cons]
    exact nodup_restoreEntry ih name previous

theorem find?_restoreEntry {layer : Layer} (once : (keys layer).Nodup) (name : String)
    (previous : Option Binding) (other : String) :
    find? (restoreEntry layer name previous) other =
      if name = other then previous else find? layer other := by
  split
  · rename_i same
    subst same
    cases previous with
    | none => exact find?_erase_self once name
    | some binding => exact find?_insert_self layer name binding
  · rename_i differ
    cases previous with
    | none => exact find?_erase_of_ne layer differ
    | some binding => exact find?_insert_of_ne layer binding differ

/-- What a restored layer says about a prefix: what the snapshot says was replaced first, if it says
so. -/
theorem find?_restoreLayer {layer : Layer} (once : (keys layer).Nodup) (snapshot : Snapshot)
    (name : String) : find? (restoreLayer layer snapshot) name =
      (find? snapshot name).getD (find? layer name) := by
  induction snapshot with
  | nil => rfl
  | cons entry rest ih =>
    obtain ⟨first, previous⟩ := entry
    rw [restoreLayer_cons, find?_restoreEntry (nodup_restoreLayer once rest), ih, find?]
    split <;> rfl

theorem find?_overrideLayer (layer : Layer) (mappings : List (String × String)) (name : String) :
    (find? (overrideLayer layer mappings).1 name).getD
      (find? (overrideLayer layer mappings).2 name) = find? layer name := by
  induction mappings generalizing layer with
  | nil => rfl
  | cons mapping rest ih =>
    obtain ⟨first, uri⟩ := mapping
    simp only [overrideLayer, find?]
    split
    · rename_i same
      rw [same]
      rfl
    · rename_i differ
      rw [ih, find?_insert_of_ne layer _ differ]

end Namespaces

/-- Whether a layer that was not handed out says nothing, and no layer holds a prefix twice. -/
structure Layers.Tidy (layers : Layers) : Prop where
  unborn : ∀ id, layers.next ≤ id → layers.get id = []
  once : ∀ id, (OrderedMap.keys (layers.get id)).Nodup

namespace Layers.Tidy

variable {layers : Layers}

theorem empty : Layers.Tidy .empty := ⟨fun _ _ => rfl, fun _ => List.nodup_nil⟩

theorem set (tidy : layers.Tidy) {id : Nat} (inside : id < layers.next) {layer : Layer}
    (once : (OrderedMap.keys layer).Nodup) : Layers.Tidy (layers.set id layer) where
  unborn other outside := by
    have beyond : layers.next ≤ other := outside
    rw [get_set_layer, if_neg (Nat.ne_of_lt (Nat.lt_of_lt_of_le inside beyond))]
    exact tidy.unborn other beyond
  once other := by
    rw [get_set_layer]
    split
    · exact once
    · exact tidy.once other

theorem add (tidy : layers.Tidy) {layer : Layer} (once : (OrderedMap.keys layer).Nodup) :
    Layers.Tidy (layers.add layer).2 where
  unborn other outside := by
    have beyond : layers.next + 1 ≤ other := outside
    rw [Store.get_add_of_ne _ _ (Nat.ne_of_lt beyond)]
    exact tidy.unborn other (Nat.le_of_succ_le beyond)
  once other := by
    by_cases new : layers.next = other
    · rw [← new]
      exact (Store.get_add_self layers layer).symm ▸ once
    · rw [Store.get_add_of_ne _ _ new]
      exact tidy.once other

end Layers.Tidy

/-- Whether layers are what they were, whatever came beside them. -/
structure Layers.Grows (layers layers' : Layers) : Prop where
  next : layers.next ≤ layers'.next
  same : Layers.Same layers.next layers layers'
  tidy : layers.Tidy → layers'.Tidy

namespace Layers.Grows

variable {layers last : Layers}

theorem refl (layers : Layers) : layers.Grows layers := ⟨Nat.le_refl _, fun _ _ => rfl, id⟩

theorem of_get (next : last.next = layers.next) (same : ∀ id, last.get id = layers.get id) :
    layers.Grows last where
  next := Nat.le_of_eq next.symm
  same id _ := same id
  tidy tidy := by
    refine ⟨fun id outside => ?_, fun id => ?_⟩
    · rw [same]
      exact tidy.unborn id (next ▸ outside)
    · rw [same]
      exact tidy.once id

theorem add (layers : Layers) {layer : Layer} (once : (OrderedMap.keys layer).Nodup) :
    layers.Grows (layers.add layer).2 where
  next := Nat.le_succ _
  same _ below := Store.get_add_of_ne layers layer (Nat.ne_of_gt below)
  tidy tidy := tidy.add once

end Layers.Grows
end CommandChain
