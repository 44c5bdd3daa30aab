import CommandChain.Proofs.World.Bindings

/-!
What is left of an override once it is taken back. While it is in force, prefixes may be registered
in the layer and other overrides may come and go, one within the other. To take it back gives each
of its own prefixes the entry that it had; of what was registered, all lasts that was not registered
within an override of the very prefix. Without registrations the layer is the same to the letter.
-/
namespace CommandChain

/-- What is done to one layer, one thing after the other: a prefix is registered, or mappings are
put in force, something is done within, and what they replaced is put back. -/
inductive LayerWork where
  | done
  | register (name : String) (uri : Option String) (rest : LayerWork)
  | override (mappings : List (String × String)) (inside rest : LayerWork)

namespace LayerWork

open OrderedMap

/-- Does the work on the layer of a handle. -/
def perform (ns : Namespaces) : LayerWork → Layers → Layers
  | .done, layers => layers
  | .register name uri rest, layers => rest.perform ns (ns.register layers name uri)
  | .override mappings inside rest, layers =>
    let (snapshot, overridden) := ns.applyOverride layers mappings
    rest.perform ns (ns.restore (inside.perform ns overridden) snapshot)

/-- Every registration with its uri, in order. -/
def registrations : LayerWork → List (String × Option String)
  | .done => []
  | .register name uri rest => (name, uri) :: rest.registrations
  | .override _ inside rest => inside.registrations ++ rest.registrations

/-- The uris that a prefix was registered with, in order, but not within an override of it. -/
def lasting (name : String) : LayerWork → List (Option String)
  | .done => []
  | .register other uri rest => (if other = name then [uri] else []) ++ rest.lasting name
  | .override mappings inside rest =>
    (if name ∈ mappings.map Prod.fst then [] else inside.lasting name) ++ rest.lasting name

/-- The entry of a prefix that had the entry `before` and was registered with the uris since. -/
def entryAfter (before : Option Binding) (uris : List (Option String)) : Option Binding :=
  match uris.getLast? with
  | some uri => some (.ofUri? uri)
  | none => before

theorem entryAfter_append (before : Option Binding) (uris more : List (Option String)) :
    entryAfter before (uris ++ more) = entryAfter (entryAfter before uris) more := by
  unfold entryAfter
  rw [List.getLast?_append]
  cases more.getLast? <;> rfl

/-- The work as far as the layer itself goes. -/
def onLayer : LayerWork → Layer → Layer
  | .done, layer => layer
  | .register name uri rest, layer => rest.onLayer (insert layer name (.ofUri? uri))
  | .override mappings inside rest, layer =>
    let (snapshot, overridden) := Namespaces.overrideLayer layer mappings
    rest.onLayer (Namespaces.restoreLayer (inside.onLayer overridden) snapshot)

theorem perform_get (ns : Namespaces) (work : LayerWork) (layers : Layers) :
    (work.perform ns layers).get ns.layer = work.onLayer (layers.get ns.layer) := by
  induction work generalizing layers with
  | done => rfl
  | register name uri rest ih => simp [perform, onLayer, ih, Namespaces.register, get_set_layer]
  | override mappings inside rest ih_inside ih =>
    simp [perform, onLayer, ih, ih_inside, Namespaces.restore, Namespaces.applyOverride,
      get_set_layer]

theorem nodup_onLayer (work : LayerWork) {layer : Layer} (once : (keys layer).Nodup) :
    (keys (work.onLayer layer)).Nodup := by
  induction work generalizing layer with
  | done => exact once
  | register name uri rest ih => exact ih (nodup_insert once name _)
  | override mappings inside rest ih_inside ih =>
    apply ih
    apply Namespaces.nodup_restoreLayer
    exact ih_inside (Namespaces.nodup_overrideLayer once mappings)

theorem keys_snapshot (layer : Layer) (mappings : List (String × String)) :
    keys (Namespaces.overrideLayer layer mappings).1 = mappings.map Prod.fst := by
  induction mappings generalizing layer with
  | nil => rfl
  | cons mapping rest ih =>
    have later := ih (insert layer mapping.1 (.bound mapping.2))
    simp only [Namespaces.overrideLayer, keys, List.map_cons] at later ⊢
    rw [later]

theorem find?_restored {layer changed : Layer} (once : (keys changed).Nodup)
    (mappings : List (String × String)) (name : String) :
    find? (Namespaces.restoreLayer changed (Namespaces.overrideLayer layer mappings).1) name =
      if name ∈ mappings.map Prod.fst then find? layer name else find? changed name := by
  have replaced := Namespaces.find?_overrideLayer layer mappings name
  rw [Namespaces.find?_restoreLayer once]
  split
  · rename_i member
    rw [← keys_snapshot layer mappings] at member
    cases found : find? (Namespaces.overrideLayer layer mappings).1 name with
    | none => exact absurd member ((not_mem_keys_iff _ _).mpr found)
    | some previous =>
      rw [found] at replaced
      exact replaced
  · rename_i outside
    rw [← keys_snapshot layer mappings] at outside
    rw [find?_absent outside]
    rfl

/-- The entry of a prefix after the work is what the lasting registrations made of it. -/
theorem find?_onLayer (work : LayerWork) {layer : Layer} (once : (keys layer).Nodup)
    (name : String) :
    find? (work.onLayer layer) name = entryAfter (find? layer name) (work.lasting name) := by
  induction work generalizing layer with
  | done => rfl
  | register other uri rest ih =>
    rw [onLayer, ih (nodup_insert once other _), lasting, entryAfter_append]
    by_cases same : other = name
    · subst same
      simp [entryAfter, find?_insert_self]
    · simp [entryAfter, same, find?_insert_of_ne layer _ same]
  | override mappings inside rest ih_inside ih =>
    have overridden := Namespaces.nodup_overrideLayer once mappings
    have changed := inside.nodup_onLayer overridden
    rw [onLayer, ih (Namespaces.nodup_restoreLayer changed _), lasting, entryAfter_append,
      find?_restored changed]
    by_cases member : name ∈ mappings.map Prod.fst
    · simp only [if_pos member]
      rfl
    · have untouched : find? (Namespaces.overrideLayer layer mappings).2 name =
          find? layer name := by
        have replaced := Namespaces.find?_overrideLayer layer mappings name
        rw [find?_absent (by rwa [keys_snapshot])] at replaced
        exact replaced
      simp only [if_neg member]
      rw [ih_inside overridden, untouched]

/-- Overrides alone, each taken back, leave the layer as it is, the order of its entries included. -/
theorem onLayer_unregistered (work : LayerWork) (silent : work.registrations = [])
    (layer : Layer) : work.onLayer layer = layer := by
  induction work generalizing layer with
  | done => rfl
  | register name uri rest ih => cases silent
  | override mappings inside rest ih_inside ih =>
    obtain ⟨within, later⟩ := List.append_eq_nil_iff.mp silent
    simp only [onLayer]
    rw [ih later, ih_inside within, Namespaces.restore_overrideLayer]

end LayerWork

namespace Namespaces

open OrderedMap

variable {layers overridden : Layers} {ns : Namespaces} {mappings : List (String × String)}
  {snapshot : Snapshot}

/-- To take an override back, after any work on its layer, gives each of its prefixes the entry from
before and leaves every other one the entry that the lasting registrations made of it; without any
registrations all entries are as before, in the same order. -/
theorem restore_undoes_override (once : (keys (layers.get ns.layer)).Nodup)
    (overrides : ns.applyOverride layers mappings = (snapshot, overridden)) (inside : LayerWork) :
    let before := layers.get ns.layer
    let after := (ns.restore (inside.perform ns overridden) snapshot).get ns.layer
    (∀ name ∈ mappings.map Prod.fst, find? after name = find? before name) ∧
    (∀ name ∉ mappings.map Prod.fst,
      find? after name = LayerWork.entryAfter (find? before name) (inside.lasting name)) ∧
    (inside.registrations = [] → after = before) := by
  intro before after
  let work : LayerWork := .override mappings inside .done
  have restored : after = work.onLayer before := by
    cases overrides
    exact work.perform_get ns layers
  have entry (name : String) : find? after name =
      LayerWork.entryAfter (find? before name) (work.lasting name) := by
    rw [restored]
    exact work.find?_onLayer once name
  refine ⟨fun name member => ?_, fun name outside => ?_, fun silent => ?_⟩
  · have none_lasts : work.lasting name = [] := by simp [work, LayerWork.lasting, member]
    rw [entry, none_lasts]
    rfl
  · have inner : work.lasting name = inside.lasting name := by
      simp [work, LayerWork.lasting, outside]
    rw [entry, inner]
  · have silent' : work.registrations = [] := by simp [work, LayerWork.registrations, silent]
    rw [restored, work.onLayer_unregistered silent']

def bindingAndMask : Layers := (Store.empty.add [("a", .bound "urn:a"), ("b", .masked)]).2

/-- Registrations of all kinds, and an override within which a prefix is registered that it does not
have. -/
def busyWork : LayerWork :=
  .register "a" (some "urn:late") (.override [("b", "urn:inner"), ("a", "urn:inner")]
    (.register "c" (some "urn:c") .done) (.register "b" none .done))

theorem restore_undoes_busy :
    let ns : Namespaces := ⟨0, []⟩
    let mappings := [("a", "urn:x"), ("b", "urn:y"), ("a", "urn:z")]
    let (snapshot, overridden) := ns.applyOverride bindingAndMask mappings
    let after := (ns.restore (busyWork.perform ns overridden) snapshot).get ns.layer
    (keys (bindingAndMask.get ns.layer)).Nodup ∧
    find? after "a" = some (.bound "urn:a") ∧ find? after "b" = some .masked ∧
    find? after "c" = some (.bound "urn:c") := by
  intro ns mappings
  have once : (keys (bindingAndMask.get ns.layer)).Nodup := by decide
  have overrides : ns.applyOverride bindingAndMask mappings =
      ((ns.applyOverride bindingAndMask mappings).1,
        (ns.applyOverride bindingAndMask mappings).2) := rfl
  obtain ⟨own, others, -⟩ := restore_undoes_override once overrides busyWork
  refine ⟨once, own "a" (by decide), own "b" (by decide), others "c" (by decide)⟩

/-- A registration does not last if it is made within an override of its prefix: what the override
replaced is put back over it. -/
theorem registration_within_override_undone :
    ¬ ∀ (layers overridden : Layers) (ns : Namespaces) (mappings : List (String × String))
      (snapshot : Snapshot) (inside : LayerWork), (keys (layers.get ns.layer)).Nodup →
      ns.applyOverride layers mappings = (snapshot, overridden) →
      ∀ name ∉ mappings.map Prod.fst,
        find? ((ns.restore (inside.perform ns overridden) snapshot).get ns.layer) name =
          LayerWork.entryAfter (find? (layers.get ns.layer) name)
            ((inside.registrations.filter (·.1 = name)).map Prod.snd) := by
  intro claimed
  have lasts := claimed .empty _ ⟨0, []⟩ [] _
    (.override [("a", "urn:inner")] (.register "a" (some "urn:late") .done) .done)
    List.nodup_nil rfl "a" (by decide)
  exact absurd lasts (by decide)

end Namespaces
end CommandChain
