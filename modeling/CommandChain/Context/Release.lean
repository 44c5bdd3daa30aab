import CommandChain.Component.Lifecycle

/-!
Release of components: their end hooks run and the table forgets them. A context that owns its table
is released once, and nothing is found in it from then on. A table that nothing refers to any more
goes away; one that goes away with components in it releases them, after a complaint if it was to
complain.
-/
namespace CommandChain.World

variable {I H : Type}

def noteFailures (w : World I H) (name : QName) (failures : List LifecycleError) : World I H :=
  failures.foldl (fun w failure => w.note .error
    ("error releasing component " ++ name.text ++ ": " ++
      Failure.chainText failure.message failure.causes)) w

/-- Runs the end hooks of components, in the order in which they were made. -/
def finishAll (w : World I H) : List (QName × Cached I H) → World I H
  | [] => w
  | (name, cached) :: rest =>
    let (failures, w) := Lifecycle.finish w cached.ref cached.descriptor
    finishAll (w.noteFailures name failures) rest

/-- Empties a table of its components and runs their end hooks. -/
def releaseTable (w : World I H) (id : Nat) : World I H :=
  let table := w.table id
  (w.setTable id { table with components := [] }).finishAll table.components

def releaseComponents (w : World I H) (ctx : Context I H) : World I H :=
  w.releaseTable ctx.node.table

/-- Releases a node that owns its table, unless it is released already. -/
def endContext (w : World I H) (ctx : Context I H) : World I H :=
  if ctx.isPointer || w.isReleased ctx then w
  else
    ((w.releaseComponents ctx).changeTable ctx ({ · with released := true })).note .debug
      ("released " ++ ctx.scope.name ++ " scope context")

def endContexts (w : World I H) (contexts : List (Context I H)) : World I H :=
  contexts.foldl endContext w

def dropTable (w : World I H) (id : Nat) : World I H :=
  let table := w.table id
  if table.components.isEmpty then w
  else
    (if table.warns then
      w.note .warn ("components at scope " ++ table.scope.name ++ " were not properly released")
    else w).releaseTable id

/-- Whether a context refers to a table, by its own node or by one around it. -/
def refersTo (ctx : Context I H) (table : Nat) : Bool := ctx.nodes.any (·.table = table)

/-- The tables with components in them that none of the contexts refers to, newest first. -/
def unusedTables (w : World I H) (used : List (Context I H)) : List Nat :=
  (w.tables.entries.filter fun (id, table) =>
    !table.components.isEmpty && !used.any fun ctx => refersTo ctx id).map Prod.fst

/-- Lets every table go away that none of the contexts refers to, a table before the older ones. One
without components leaves no trace. -/
def dropUnused (w : World I H) (used : List (Context I H)) : World I H :=
  (w.unusedTables used).foldl dropTable w

end CommandChain.World
