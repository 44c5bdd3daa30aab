import CommandChain.Machine.Invocation

/-!
Workspaces: the names under which an embedder keeps contexts, values, faults and machines. One
machine at a time is at hand, and what is done on a machine is done on that one; each other has a
seat: under its name, or among those whose bodies run, where a name means the innermost of that name
and goes before a machine that waits under it. What nothing refers to any more, by a name or from a
machine, goes away.
-/
namespace CommandChain

variable {I H X : Type}

/-- Where a machine belongs while another is at hand. -/
inductive Seat where
  | waiting (name : String)
  /-- Among those whose bodies run, counted from the outermost. -/
  | running (depth : Nat)
  deriving DecidableEq, Repr

structure Workspace (I H X : Type) where
  contexts : OrderedMap String (Context I H)
  values : OrderedMap String Value
  faults : OrderedMap String Fault
  /-- The machines that wait. -/
  machines : OrderedMap String (Machine I H)
  /-- The seat of the machine at hand. -/
  atHand : Option Seat
  /-- The machines whose bodies run, innermost first; the seat of the one at hand is empty. -/
  running : List (String × Option (Machine I H))
  /-- Contexts kept by what is going on, beside those that have names. -/
  held : List (Context I H)
  /-- Prefixes bound outside of any machine. -/
  prefixes : PrefixStack I H
  /-- What else the embedder keeps. -/
  extra : X

abbrev WorkspaceM (I H X ε α : Type) := Program I H (Workspace I H X) ε α

namespace Workspace

def empty (extra : X) : Workspace I H X := ⟨[], [], [], [], none, [], [], [], extra⟩

def contextName? (ws : Workspace I H X) (ctx : Context I H) : Option String :=
  OrderedMap.findKey? ws.contexts ctx.same

def componentName? (ws : Workspace I H X) (ref : ComponentRef) : Option String :=
  OrderedMap.findKey? ws.values fun value => (value.component?.map (·.id)) = some ref.id

def faultName? (ws : Workspace I H X) (fault : Fault) : Option String :=
  OrderedMap.findKey? ws.faults fault.same

/-- The machine that works unless another is asked for. -/
def defaultMachine (ws : Workspace I H X) : String := (ws.running.head?.map Prod.fst).getD "m"

/-- The seat of the innermost running machine of a name. -/
def runningSeat? (name : String) : List (String × Option (Machine I H)) → Option Seat
  | [] => none
  | (own, _) :: outer =>
    if own = name then some (.running outer.length) else runningSeat? name outer

def seat? (ws : Workspace I H X) (name : String) : Option Seat :=
  (runningSeat? name ws.running).or
    (if ws.atHand = some (.waiting name) ∨ OrderedMap.contains ws.machines name then
      some (.waiting name)
    else none)

/-- Changes the seat of a running machine, counted from the outermost. -/
def changeSeat (change : Option (Machine I H) → Option (Machine I H)) (depth : Nat) :
    List (String × Option (Machine I H)) → List (String × Option (Machine I H))
  | [] => []
  | (name, m) :: outer =>
    if outer.length = depth then (name, change m) :: outer
    else (name, m) :: changeSeat change depth outer

def seated? (ws : Workspace I H X) : Seat → Option (Machine I H)
  | .waiting name => OrderedMap.find? ws.machines name
  | .running depth => (ws.running.reverse[depth]?).bind Prod.snd

def settle (ws : Workspace I H X) (m : Machine I H) : Seat → Workspace I H X
  | .waiting name => { ws with machines := OrderedMap.insert ws.machines name m }
  | .running depth => { ws with running := changeSeat (fun _ => some m) depth ws.running }

def vacate (ws : Workspace I H X) : Seat → Workspace I H X
  | .waiting name => { ws with machines := OrderedMap.erase ws.machines name }
  | .running depth => { ws with running := changeSeat (fun _ => none) depth ws.running }

variable {ε α : Type}

def workspace : WorkspaceM I H X ε (Workspace I H X) := return (← get).2

def change (f : Workspace I H X → Workspace I H X) : WorkspaceM I H X ε Unit :=
  modify fun (run, ws) => (run, f ws)

def onWorld (f : World I H → α × World I H) : WorkspaceM I H X ε α :=
  modifyGet fun (run, ws) =>
    let (result, world) := f run.world
    (result, ({ run with world }, ws))

def changeWorld (f : World I H → World I H) : WorkspaceM I H X ε Unit := onWorld fun w => ((), f w)

def world : WorkspaceM I H X ε (World I H) := onWorld fun w => (w, w)

/-! ### Names -/

def nameContext (name : Option String) (ctx : Context I H) : WorkspaceM I H X ε Unit :=
  match name with
  | some name => change fun ws => { ws with contexts := OrderedMap.insert ws.contexts name ctx }
  | none => pure ()

def forgetContext (name : String) : WorkspaceM I H X ε Unit :=
  change fun ws => { ws with contexts := OrderedMap.erase ws.contexts name }

def nameValue (name : Option String) (value : Value) : WorkspaceM I H X ε Unit :=
  match name with
  | some name => change fun ws => { ws with values := OrderedMap.insert ws.values name value }
  | none => pure ()

def nameFault (name : Option String) (fault : Fault) : WorkspaceM I H X ε Fault := do
  match name with
  | some name => change fun ws => { ws with faults := OrderedMap.insert ws.faults name fault }
  | none => pure ()
  pure fault

/-- The fault of a name. A name without one gets a new fault that says the name. -/
def faultNamed (name : String) : WorkspaceM I H X ε Fault := do
  match OrderedMap.find? (← workspace).faults name with
  | some fault => pure fault
  | none => nameFault (some name) (← Program.mintFault (.failure (.ofMessage name)))

/-! ### What is in use -/

def usedContexts (ws : Workspace I H X) (m : Machine I H) : List (Context I H) :=
  ws.contexts.map Prod.snd ++ ws.held ++ m.heldContexts ++
    ws.machines.flatMap (fun (_, m) => m.heldContexts) ++
    ws.running.flatMap (fun (_, m) => m.elim [] Machine.heldContexts) ++
    ws.prefixes.map (·.context)

/-- Lets go of what nothing refers to any more. -/
def sweep : WorkspaceM I H X ε Unit :=
  modify fun (run, ws) =>
    ({ run with world := run.world.dropUnused (ws.usedContexts run.machine) }, ws)

/-- Keeps a context as long as something is going on. -/
def hold (ctx : Context I H) : WorkspaceM I H X ε Unit :=
  change fun ws => { ws with held := ctx :: ws.held }

/-- Keeps what is held now, and lets go of what `x` holds when it has ended. -/
def holding (x : WorkspaceM I H X ε α) : WorkspaceM I H X ε α := do
  let held := (← workspace).held
  let result ← x
  change ({ · with held })
  sweep
  pure result

/-- Lets `count` prefix frames go, the outermost first. -/
def dropPrefixes : Nat → WorkspaceM I H X ε Unit
  | 0 => pure ()
  | count + 1 => do
    change fun ws => { ws with prefixes := ws.prefixes.dropLast }
    sweep
    dropPrefixes count

def clearPrefixes : WorkspaceM I H X ε Unit := do dropPrefixes (← workspace).prefixes.length

/-! ### Machines -/

/-- The machine that a name means, at hand or not. -/
def machine? (name : String) : WorkspaceM I H X ε (Option (Machine I H)) := do
  let (run, ws) ← get
  pure ((ws.seat? name).bind fun seat =>
    if ws.atHand = some seat then some run.machine else ws.seated? seat)

/-- Puts a new machine under a name. One that waited there goes away. -/
def addMachine (name : String) (m : Machine I H) : WorkspaceM I H X ε Unit := do
  let old := OrderedMap.find? (← workspace).machines name
  change fun ws => { ws with machines := OrderedMap.insert ws.machines name m }
  match old with
  | some old => changeWorld old.abandon
  | none => pure ()

/-- Lets a machine that waits go away, unless a body of that name runs; tells whether it did. -/
def dropMachine (name : String) : WorkspaceM I H X ε Bool := do
  let ws ← workspace
  let waiting :=
    if (runningSeat? name ws.running).isSome then none else OrderedMap.find? ws.machines name
  match waiting with
  | some m =>
    change (·.vacate (.waiting name))
    changeWorld m.abandon
    pure true
  | none => pure false

/-- Puts the machine at hand back into its seat and tells which one that is. -/
def park : WorkspaceM I H X ε (Option Seat) :=
  modifyGet fun (run, ws) =>
    match ws.atHand with
    | some seat =>
      let settled := ws.settle run.machine seat
      (some seat, ({ run with machine := .new .empty }, { settled with atHand := none }))
    | none => (none, (run, ws))

def unpark (seat : Option Seat) : WorkspaceM I H X ε Unit :=
  modify fun (run, ws) =>
    match seat.bind fun seat => (ws.seated? seat).map (seat, ·) with
    | some (seat, machine) => ({ run with machine }, { ws.vacate seat with atHand := some seat })
    | none => (run, ws)

/-- Works with a machine at hand, if there is one of the name, and puts it back afterwards. -/
def withMachine (name : String) (x : WorkspaceM I H X ε α) : WorkspaceM I H X ε (Option α) := do
  let ws ← workspace
  match ws.seat? name with
  | none => pure none
  | some seat =>
    if ws.atHand = some seat then some <$> x
    else
      let previous ← park
      unpark (some seat)
      let outcome ← attempt x
      let _ ← park
      unpark previous
      match outcome with
      | .ok result => pure (some result)
      | .error error => throw error

/-- Works with no machine of a seat at hand: `x` brings its own along. -/
def withOwnMachine (x : WorkspaceM I H X ε α) : WorkspaceM I H X ε α := do
  let previous ← park
  let outcome ← attempt x
  unpark previous
  match outcome with
  | .ok result => pure result
  | .error error => throw error

/-- Runs a body of the machine at hand, which goes by the name while the body runs, and tells how
the body ended. -/
def runBody {ε' : Type} (name : String) (body : WorkspaceM I H X ε' α) :
    WorkspaceM I H X ε (Except ε' α) := do
  let ws ← workspace
  change fun ws =>
    { ws with running := (name, none) :: ws.running, atHand := some (.running ws.running.length) }
  let outcome ← attempt body
  change fun now => { now with running := now.running.drop 1, atHand := ws.atHand }
  pure outcome

end Workspace
end CommandChain
