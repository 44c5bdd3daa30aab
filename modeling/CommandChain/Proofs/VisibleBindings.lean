import CommandChain.Proofs.World.Bindings

/-!
Two views of the bindings in force. The uri of one prefix is looked for from the innermost layer
outwards, and the first layer that says something about the prefix decides. The map of all bindings
is laid up from the outermost layer inwards, one layer over the other. In whatever way the layers
came to be, the two agree.
-/
namespace CommandChain

namespace Namespaces

open OrderedMap

variable {layers : Layers} {outer : OrderedMap String String}

theorem overlay_bound (outer : OrderedMap String String) (name uri : String) (rest : Layer) :
    overlay outer ((name, .bound uri) :: rest) = overlay (insert outer name uri) rest := rfl

theorem overlay_masked (outer : OrderedMap String String) (name : String) (rest : Layer) :
    overlay outer ((name, .masked) :: rest) = overlay (erase outer name) rest := rfl

theorem nodup_overlay (seen : (keys outer).Nodup) (layer : Layer) :
    (keys (overlay outer layer)).Nodup := by
  induction layer generalizing outer with
  | nil => exact seen
  | cons entry rest ih =>
    obtain ⟨name, binding⟩ := entry
    cases binding with
    | bound uri =>
      rw [overlay_bound]
      exact ih (nodup_insert seen name uri)
    | masked =>
      rw [overlay_masked]
      exact ih (seen.sublist (keys_erase_sublist outer name))

theorem find?_overlay (seen : (keys outer).Nodup) {layer : Layer} (once : (keys layer).Nodup)
    (name : String) : find? (overlay outer layer) name =
      ((find? layer name).map Binding.uri?).getD (find? outer name) := by
  induction layer generalizing outer with
  | nil => rfl
  | cons entry rest ih =>
    obtain ⟨key, binding⟩ := entry
    obtain ⟨absent, later⟩ := List.nodup_cons.mp once
    cases binding with
    | bound uri =>
      rw [overlay_bound, ih (nodup_insert seen key uri) later]
      by_cases same : key = name
      · subst same
        simp [find?_absent absent, find?_insert_self, find?, Binding.uri?]
      · simp [find?_insert_of_ne outer uri same, find?, same]
    | masked =>
      rw [overlay_masked, ih (seen.sublist (keys_erase_sublist outer key)) later]
      by_cases same : key = name
      · subst same
        simp [find?_absent absent, find?_erase_self seen, find?, Binding.uri?]
      · simp [find?_erase_of_ne outer same, find?, same]

/-- The bindings in force in layers that lie one in the other, innermost first. -/
def laid (layers : Layers) (ids : List Nat) : OrderedMap String String :=
  ids.foldr (fun id seen => overlay seen (layers.get id)) []

theorem nodup_laid (layers : Layers) (ids : List Nat) : (keys (laid layers ids)).Nodup := by
  induction ids with
  | nil => exact List.nodup_nil
  | cons id rest ih => exact nodup_overlay ih (layers.get id)

/-- What the innermost layer says that says something is what is in force. -/
theorem find?_laid (once : ∀ id, (keys (layers.get id)).Nodup) (ids : List Nat) (name : String) :
    find? (laid layers ids) name = (findBinding? layers ids name).bind Binding.uri? := by
  induction ids with
  | nil => rfl
  | cons id rest ih =>
    have step : find? (laid layers (id :: rest)) name =
        ((find? (layers.get id) name).map Binding.uri?).getD (find? (laid layers rest) name) :=
      find?_overlay (nodup_laid layers rest) (once id) name
    rw [step, ih, findBinding?]
    cases find? (layers.get id) name <;> rfl

/-! ### Any sequence of operations -/

/-- The layers and the handles on them after any sequence of operations. A restoration may be given
any snapshot, whatever override of whatever layer has told it. -/
inductive Reached : Layers → List Namespaces → Prop where
  | start : Reached .empty []
  | root {layers handles} (reached : Reached layers handles) (defaults : OrderedMap String String) :
    Reached (root layers defaults).2 ((root layers defaults).1 :: handles)
  | child {layers handles ns} (reached : Reached layers handles) (handle : ns ∈ handles) :
    Reached (ns.child layers).2 ((ns.child layers).1 :: handles)
  | register {layers handles ns} (reached : Reached layers handles) (handle : ns ∈ handles)
    (name : String) (uri : Option String) : Reached (ns.register layers name uri) handles
  | override {layers handles ns} (reached : Reached layers handles) (handle : ns ∈ handles)
    (mappings : List (String × String)) : Reached (ns.applyOverride layers mappings).2 handles
  | restore {layers handles ns} (reached : Reached layers handles) (handle : ns ∈ handles)
    (snapshot : Snapshot) : Reached (ns.restore layers snapshot) handles

namespace Reached

variable {handles : List Namespaces}

theorem inside (reached : Reached layers handles) : ∀ ns ∈ handles, ns.layer < layers.next := by
  induction reached with
  | start => simp
  | root reached defaults ih =>
    intro ns member
    rcases List.mem_cons.mp member with rfl | older
    · exact Nat.lt_succ_self _
    · exact Nat.lt_succ_of_lt (ih ns older)
  | child reached handle ih =>
    intro ns member
    rcases List.mem_cons.mp member with rfl | older
    · exact Nat.lt_succ_self _
    · exact Nat.lt_succ_of_lt (ih ns older)
  | register reached handle name uri ih => exact ih
  | override reached handle mappings ih => exact ih
  | restore reached handle snapshot ih => exact ih

theorem tidy (reached : Reached layers handles) : layers.Tidy := by
  induction reached with
  | start => exact .empty
  | root reached defaults ih => exact ih.add (nodup_ofPairs _)
  | child reached handle ih => exact ih.add List.nodup_nil
  | register reached handle name uri ih =>
    exact ih.set (reached.inside _ handle) (nodup_insert (ih.once _) name _)
  | override reached handle mappings ih =>
    exact ih.set (reached.inside _ handle) (nodup_overrideLayer (ih.once _) mappings)
  | restore reached handle snapshot ih =>
    exact ih.set (reached.inside _ handle) (nodup_restoreLayer (ih.once _) snapshot)

end Reached

/-- In every layer, after any sequence of operations, the map of all bindings holds a prefix with a
uri exactly when the prefix is looked up with that uri, and does not hold it exactly when nothing is
found. -/
theorem visible_agrees {handles : List Namespaces} (reached : Reached layers handles) :
    ∀ ns ∈ handles, ∀ name,
      (∀ uri, (name, uri) ∈ ns.visible layers ↔ ns.uri? layers name = some uri) ∧
      (name ∉ keys (ns.visible layers) ↔ ns.uri? layers name = none) := by
  intro ns _ name
  have same : find? (ns.visible layers) name = ns.uri? layers name :=
    find?_laid reached.tidy.once (ns.layer :: ns.outer) name
  have once : (keys (ns.visible layers)).Nodup := nodup_laid layers (ns.layer :: ns.outer)
  constructor
  · intro uri
    rw [mem_iff_find? once, same]
  · rw [not_mem_keys_iff, same]

/-- A layer with an override, in a layer that masks a prefix of the outermost one. -/
def withinMask : Namespaces × Layers :=
  let (outermost, layers) := root .empty [("a", "urn:a"), ("b", "urn:b")]
  let (masking, layers) := outermost.child layers
  let (innermost, layers) := masking.child (masking.register layers "a" none)
  (innermost, (innermost.applyOverride layers [("b", "urn:other"), ("c", "urn:c")]).2)

theorem reached_withinMask :
    Reached withinMask.2 [withinMask.1, ⟨1, [0]⟩, ⟨0, []⟩] := by
  have masked : Reached _ [⟨1, [0]⟩, ⟨0, []⟩] :=
    .register (.child (.root .start [("a", "urn:a"), ("b", "urn:b")]) List.mem_cons_self)
      List.mem_cons_self "a" none
  exact .override (.child masked List.mem_cons_self) List.mem_cons_self
    [("b", "urn:other"), ("c", "urn:c")]

theorem visible_agrees_withinMask :
    Reached withinMask.2 [withinMask.1, ⟨1, [0]⟩, ⟨0, []⟩] ∧
    ("b", "urn:other") ∈ withinMask.1.visible withinMask.2 ∧
    "a" ∉ keys (withinMask.1.visible withinMask.2) := by
  have agrees := visible_agrees reached_withinMask withinMask.1 List.mem_cons_self
  refine ⟨reached_withinMask, ?_, ?_⟩
  · exact ((agrees "b").1 "urn:other").mpr rfl
  · exact (agrees "a").2.mpr rfl

end Namespaces
end CommandChain
