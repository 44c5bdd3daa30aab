import CommandChain.Store
import CommandChain.Text.Quoted

/-!
Bindings of prefixes to namespace uris, in layers: a scope boundary opens a new layer, and a prefix
that a layer says nothing about is looked up in the layer it was opened from. What is bound in a
layer is seen by every handle on it and by the layers opened from it, and by no other.
-/
namespace CommandChain

/-- What a layer says about a prefix. A mask hides the bindings of outer layers. -/
inductive Binding where
  | bound (uri : String)
  | masked
  deriving DecidableEq, Repr

namespace Binding

def uri? : Binding → Option String
  | .bound uri => some uri
  | .masked => none

def ofUri? : Option String → Binding
  | some uri => .bound uri
  | none => .masked

end Binding

abbrev Layer := OrderedMap String Binding

abbrev Layers := Store Layer

instance : Inhabited Layer := ⟨[]⟩

/-- What an override replaced: for each prefix, in the order of application, what the layer had said
about it. -/
abbrev Snapshot := List (String × Option Binding)

/-- A layer and the layers it was opened from, innermost first. -/
structure Namespaces where
  layer : Nat
  outer : List Nat
  deriving DecidableEq, Repr

namespace Namespaces

def root (layers : Layers) (defaults : OrderedMap String String) : Namespaces × Layers :=
  let (id, layers) := layers.add (OrderedMap.ofPairs (defaults.map fun (p, u) => (p, .bound u)))
  (⟨id, []⟩, layers)

def child (layers : Layers) (ns : Namespaces) : Namespaces × Layers :=
  let (id, layers) := layers.add []
  (⟨id, ns.layer :: ns.outer⟩, layers)

def findBinding? (layers : Layers) : List Nat → String → Option Binding
  | [], _ => none
  | id :: outer, name =>
    match OrderedMap.find? (layers.get id) name with
    | some binding => some binding
    | none => findBinding? layers outer name

def uri? (layers : Layers) (ns : Namespaces) (name : String) : Option String :=
  (findBinding? layers (ns.layer :: ns.outer) name).bind Binding.uri?

/-- Binds a prefix in this layer, or masks it. -/
def register (layers : Layers) (ns : Namespaces) (name : String) (uri : Option String) : Layers :=
  layers.set ns.layer (OrderedMap.insert (layers.get ns.layer) name (.ofUri? uri))

/-- Applies bindings to a layer one after the other and notes what each replaced. -/
def overrideLayer : Layer → List (String × String) → Snapshot × Layer
  | layer, [] => ([], layer)
  | layer, (name, uri) :: rest =>
    let (snapshot, result) := overrideLayer (OrderedMap.insert layer name (.bound uri)) rest
    ((name, OrderedMap.find? layer name) :: snapshot, result)

def restoreEntry (layer : Layer) (name : String) (previous : Option Binding) : Layer :=
  match previous with
  | some binding => OrderedMap.insert layer name binding
  | none => OrderedMap.erase layer name

/-- Puts back what an override replaced, the last replacement first. -/
def restoreLayer (layer : Layer) (snapshot : Snapshot) : Layer :=
  snapshot.reverse.foldl (fun layer (name, previous) => restoreEntry layer name previous) layer

def applyOverride (layers : Layers) (ns : Namespaces) (mappings : List (String × String)) :
    Snapshot × Layers :=
  let (snapshot, layer) := overrideLayer (layers.get ns.layer) mappings
  (snapshot, layers.set ns.layer layer)

def restore (layers : Layers) (ns : Namespaces) (snapshot : Snapshot) : Layers :=
  layers.set ns.layer (restoreLayer (layers.get ns.layer) snapshot)

/-- The bindings seen through a layer over those of the layers around it. -/
def overlay (outer : OrderedMap String String) (layer : Layer) : OrderedMap String String :=
  layer.foldl (fun seen (name, binding) =>
    match binding with
    | .bound uri => OrderedMap.insert seen name uri
    | .masked => OrderedMap.erase seen name) outer

/-- Every binding in force: the layers laid over one another, the innermost last. -/
def visible (layers : Layers) (ns : Namespaces) : OrderedMap String String :=
  (ns.layer :: ns.outer).foldr (fun id seen => overlay seen (layers.get id)) []

def sameLayer (a b : Namespaces) : Bool := a.layer = b.layer

def debugText (layers : Layers) (ns : Namespaces) : String := Text.quotedMap (visible layers ns)

end Namespaces
end CommandChain
