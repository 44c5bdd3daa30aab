import CommandChain.Context.Resolve

/-!
Variables, components and selectors as a context offers them. A name is given as text, to be read
with the bindings in force at the context, or already qualified; and it is looked for at the context
itself or at the nearest node of a given scope.
-/
namespace CommandChain

inductive VariableName where
  | text (text : String)
  | qualified (name : QName)
  deriving DecidableEq, Repr

namespace Context

variable {I H : Type}

def qname (ctx : Context I H) (text : String) : WorldM I H ResolveError QName :=
  (Resolve.readName ctx text).adaptExcept .qname

def resolveName (ctx : Context I H) : VariableName → WorldM I H ResolveError QName
  | .text text => ctx.qname text
  | .qualified name => pure name

def nearest? (scope : Scope) : List (Node I H) → Option (Context I H)
  | [] => none
  | node :: rest => if node.scope = scope then some ⟨node, rest⟩ else nearest? scope rest

def atScope (ctx : Context I H) (scope : Scope) : WorldM I H ResolveError (Context I H) :=
  match nearest? scope ctx.nodes with
  | some found => pure found
  | none => throw (.unreachable scope)

/-- This node, or the nearest one of a scope. -/
def target (ctx : Context I H) : Option Scope → WorldM I H ResolveError (Context I H)
  | none => pure ctx
  | some scope => ctx.atScope scope

def get (ctx : Context I H) (name : VariableName) (scope : Option Scope) :
    WorldM I H ResolveError (Option Value) := do
  let name ← ctx.resolveName name
  Resolve.lookup [] (← ctx.target scope) name

/-- Declares a variable, in place of any of that name. -/
def declareHere (ctx : Context I H) (name : QName) (value : Value) :
    WorldM I H ResolveError Unit := do
  Resolve.ensureLive ctx
  if (ctx.registry.descriptorIn? name ctx.scope).isSome then throw (.shadowsComponent name)
  modify (·.changeTable ctx fun table =>
    { table with declared := OrderedMap.insert table.declared name value })

def declare (ctx : Context I H) (name : VariableName) (value : Value) (scope : Option Scope) :
    WorldM I H ResolveError Unit := do
  let name ← ctx.resolveName name
  (← ctx.target scope).declareHere name value

def undeclareHere (ctx : Context I H) (name : QName) : WorldM I H ResolveError (Option Value) := do
  Resolve.ensureLive ctx
  let value := OrderedMap.find? ((← MonadState.get).tableOf ctx).declared name
  modify (·.changeTable ctx fun table =>
    { table with declared := OrderedMap.erase table.declared name })
  pure value

def undeclare (ctx : Context I H) (name : VariableName) (scope : Option Scope) :
    WorldM I H ResolveError (Option Value) := do
  let name ← ctx.resolveName name
  (← ctx.target scope).undeclareHere name

/-- Whether a name is declared, or names a component of the node's scope. -/
def isDeclared (ctx : Context I H) (name : VariableName) (scope : Option Scope) :
    WorldM I H ResolveError Bool := do
  let name ← ctx.resolveName name
  let found ← ctx.target scope
  if (found.registry.descriptorIn? name found.scope).isSome then pure true
  else pure (OrderedMap.contains ((← MonadState.get).tableOf found).declared name)

/-- The component of a name in the table of this very node, made if it is not there. -/
def component? (ctx : Context I H) (name : QName) :
    WorldM I H ResolveError (Option ComponentRef) :=
  Resolve.fetch [] ctx name fun d _ _ =>
    Resolve.createAndCache ctx name d (Resolve.lookup [(ctx.node.table, name)] ctx)

def environment (ctx : Context I H) : Selector.Environment (World I H) :=
  Resolve.environment ctx (Resolve.lookup [] ctx)

def evaluate (ctx : Context I H) : Lifecycle.Evaluator I H :=
  Resolve.evaluateWith ctx (Resolve.lookup [] ctx)

/-- A view of this node with a different subject. -/
def relative (ctx : Context I H) (subject : Value) : WorldM I H ResolveError (Context I H) := do
  match ← modifyGet (·.openView ctx subject) with
  | .ok view => pure view
  | .error error => throw (.selector error)

/-- A new component that is not cached. -/
def createComponent (ctx : Context I H) (d : Descriptor I H) :
    WorldM I H LifecycleError ComponentRef :=
  Lifecycle.create ctx.evaluate d ctx

def inject (ctx : Context I H) (ref : ComponentRef) (d : Descriptor I H) :
    WorldM I H LifecycleError Unit :=
  Lifecycle.inject ctx.evaluate ref d ctx

end Context
end CommandChain
