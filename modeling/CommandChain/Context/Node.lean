import CommandChain.World

/-!
Context nodes. A context is a node together with the nodes around it, from its parent outward. What
a node refers to never changes; what can change of it lies in the world, under the numbers of its
table and of its namespace layers. A pointer view is a node of its own over the table and the layers
of another, with a different subject.
-/
namespace CommandChain

structure Node (I H : Type) where
  id : Nat
  table : Nat
  scope : Scope
  registry : Registry I H
  /-- What selectors are evaluated against. -/
  subject : Value
  namespaces : Namespaces
  /-- Views do not own the table they look into and never release it. -/
  owner : Bool

structure Context (I H : Type) where
  node : Node I H
  /-- Innermost first. -/
  ancestors : List (Node I H)

namespace Context

variable {I H : Type}

def id (ctx : Context I H) : Nat := ctx.node.id

def scope (ctx : Context I H) : Scope := ctx.node.scope

def registry (ctx : Context I H) : Registry I H := ctx.node.registry

def subject (ctx : Context I H) : Value := ctx.node.subject

def namespaces (ctx : Context I H) : Namespaces := ctx.node.namespaces

def isPointer (ctx : Context I H) : Bool := !ctx.node.owner

def parent? (ctx : Context I H) : Option (Context I H) :=
  match ctx.ancestors with
  | [] => none
  | node :: rest => some ⟨node, rest⟩

def nodes (ctx : Context I H) : List (Node I H) := ctx.node :: ctx.ancestors

def same (a b : Context I H) : Bool := a.id = b.id

def sharesVariables (a b : Context I H) : Bool := a.node.table = b.node.table

end Context

namespace World

variable {I H : Type}

def tableOf (w : World I H) (ctx : Context I H) : Table I H := w.table ctx.node.table

def changeTable (w : World I H) (ctx : Context I H) (change : Table I H → Table I H) : World I H :=
  w.setTable ctx.node.table (change (w.tableOf ctx))

def beginMaking (w : World I H) (ctx : Context I H) (name : QName) : World I H :=
  w.changeTable ctx (·.beginMaking name)

def endMaking (w : World I H) (ctx : Context I H) (name : QName) (made : Option ComponentRef) :
    World I H :=
  (w.changeTable ctx (·.endMaking name)).recordAttempt ⟨ctx.node.table, name, made⟩

/-- A new node at a scope, with a table of its own and a namespace layer of its own: one opened from
the parent's, or an outermost one with the default prefixes of the registry. -/
def newContext (w : World I H) (scope : Scope) (registry : Registry I H) (subject : Value)
    (parent? : Option (Context I H)) (warns : Bool) : Context I H × World I H :=
  let (namespaces, layers) := match parent? with
    | some parent => Namespaces.child w.layers parent.namespaces
    | none => Namespaces.root w.layers registry.prefixes
  let (table, tables) := w.tables.add (.empty scope warns)
  let node : Node I H := ⟨w.nextNode, table, scope, registry, subject, namespaces, true⟩
  let ancestors := match parent? with
    | some parent => parent.nodes
    | none => []
  (⟨node, ancestors⟩,
    { w with layers, tables, nextNode := w.nextNode + 1 }.note .debug
      ("created " ++ scope.name ++ " scope context"))

/-- A node that complains about components left in it. -/
def openContext (w : World I H) (scope : Scope) (registry : Registry I H) (subject : Value)
    (parent? : Option (Context I H)) : Context I H × World I H :=
  w.newContext scope registry subject parent? true

def openRoot (w : World I H) (registry : Registry I H) (subject : Value) :
    Context I H × World I H :=
  w.openContext .request registry subject none

def openChildIn (w : World I H) (ctx : Context I H) (scope : Scope) (subject : Value) :
    Context I H × World I H :=
  w.newContext scope ctx.registry subject (some ctx) (w.tableOf ctx).warns

def openChild (w : World I H) (ctx : Context I H) (subject : Value) : Context I H × World I H :=
  w.openChildIn ctx ctx.scope.child subject

/-- A view of a node with a different subject, which must not be null. -/
def openView (w : World I H) (ctx : Context I H) (subject : Value) :
    Except SelectorError (Context I H) × World I H :=
  if subject.isNull then (.error .nullSubject, w)
  else
    (.ok ⟨{ ctx.node with id := w.nextNode, subject, owner := false }, ctx.ancestors⟩,
      { w with nextNode := w.nextNode + 1 })

def isReleased (w : World I H) (ctx : Context I H) : Bool := (w.tableOf ctx).released

def setWarns (w : World I H) (ctx : Context I H) (warns : Bool) : World I H :=
  w.changeTable ctx ({ · with warns })

def namespaceUri? (w : World I H) (ctx : Context I H) (name : String) : Option String :=
  ctx.namespaces.uri? w.layers name

/-- Binds a prefix in the layer of a context, or masks it. -/
def registerNamespace (w : World I H) (ctx : Context I H) (name : String) (uri : Option String) :
    World I H :=
  { w with layers := ctx.namespaces.register w.layers name uri }

def overrideBindings (w : World I H) (ctx : Context I H) (mappings : List (String × String)) :
    Snapshot × World I H :=
  let (snapshot, layers) := ctx.namespaces.applyOverride w.layers mappings
  (snapshot, { w with layers })

def restoreBindings (w : World I H) (ctx : Context I H) (snapshot : Snapshot) : World I H :=
  { w with layers := ctx.namespaces.restore w.layers snapshot }

def visibleBindings (w : World I H) (ctx : Context I H) : OrderedMap String String :=
  ctx.namespaces.visible w.layers

def cachedComponents (w : World I H) (ctx : Context I H) : List QName :=
  OrderedMap.keys (w.tableOf ctx).components

def debugText (w : World I H) (ctx : Context I H) : String :=
  Text.record "ScopeContext" [
    ("scope", ctx.scope.debugText),
    ("pointer", toString ctx.isPointer),
    ("released", toString (w.isReleased ctx)),
    ("declared", Text.bracketed ((OrderedMap.keys (w.tableOf ctx).declared).map QName.debugText)),
    ("components", Text.bracketed ((w.cachedComponents ctx).map QName.debugText)),
    ("parent", Text.optional (ctx.parent?.map (·.scope.debugText)))]

end World
end CommandChain
