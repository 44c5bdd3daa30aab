import CommandChain.Component.Registry
import CommandChain.Log
import CommandChain.Namespaces

/-!
What contexts and machines share and change: namespace layers, variable tables and component
instances, each under the number by which the rest refers to it; the state of the embedder's own
code; and a record of what happened. `I` is the type of component instances, `H` that of the
embedder's state.
-/
namespace CommandChain

inductive HookPhase where
  | begin
  | end
  deriving DecidableEq, Repr

def HookPhase.text : HookPhase → String
  | .begin => "begin"
  | .end => "end"

structure HookRun where
  component : Nat
  phase : HookPhase
  hook : String
  deriving DecidableEq, Repr

/-- Who holds an instance at the moment: any number of readers, or one who may change it. -/
inductive Borrow where
  | free
  | shared (readers : Nat)
  | exclusive
  deriving DecidableEq, Repr

structure Cell (I : Type) where
  typeName : String
  content : I
  borrow : Borrow

/-- A component in a table, with the descriptor it was made from. -/
structure Cached (I H : Type) where
  ref : ComponentRef
  descriptor : Descriptor I H

/-- The variables of one scope: those declared, and the components made so far. -/
structure Table (I H : Type) where
  scope : Scope
  declared : OrderedMap QName Value
  components : OrderedMap QName (Cached I H)
  /-- The components that are being made, the outermost first. -/
  creating : List QName
  released : Bool
  /-- Whether to complain when the table goes away with components in it. -/
  warns : Bool

namespace Table

variable {I H : Type}

def empty (scope : Scope) (warns : Bool) : Table I H := ⟨scope, [], [], [], false, warns⟩

instance : Inhabited (Table I H) := ⟨empty .request true⟩

def component? (table : Table I H) (name : QName) : Option ComponentRef :=
  (OrderedMap.find? table.components name).map (·.ref)

def cache (table : Table I H) (name : QName) (cached : Cached I H) : Table I H :=
  { table with components := OrderedMap.insert table.components name cached }

def beginMaking (table : Table I H) (name : QName) : Table I H :=
  { table with creating := table.creating ++ [name] }

def endMaking (table : Table I H) (name : QName) : Table I H :=
  { table with creating := table.creating.filter (· ≠ name) }

end Table

/-- One attempt to make a component for a table, and the instance, if it came to one. -/
structure Attempt where
  table : Nat
  name : QName
  made : Option ComponentRef
  deriving DecidableEq, Repr

structure World (I H : Type) where
  layers : Layers
  tables : Store (Table I H)
  cells : Store (Cell I)
  host : H
  /-- Newest first. -/
  log : List LogEntry
  /-- Newest first. -/
  hookRuns : List HookRun
  /-- Newest first. -/
  attempts : List Attempt
  nextNode : Nat
  nextFault : Nat

/-- A computation on a world that ends with a value or with an error, and with the world either way.
-/
abbrev WorldM (I H ε α : Type) := EStateM ε (World I H) α

/-- Runs a computation to its end and hands on how it ended. -/
def attempt {ε ε' σ α : Type} (x : EStateM ε σ α) : EStateM ε' σ (Except ε α) := fun s =>
  match x s with
  | .ok a s => .ok (.ok a) s
  | .error e s => .ok (.error e) s

namespace World

variable {I H : Type}

def start (host : H) : World I H := ⟨.empty, .empty, .empty, host, [], [], [], 0, 0⟩

def note (w : World I H) (level : LogLevel) (text : String) : World I H :=
  { w with log := ⟨level, text⟩ :: w.log }

def recordAttempt (w : World I H) (attempt : Attempt) : World I H :=
  { w with attempts := attempt :: w.attempts }

/-- What was told so far, oldest first, and the world in which it is told no more. -/
def takeLog (w : World I H) : List LogEntry × World I H := (w.log.reverse, { w with log := [] })

def table (w : World I H) (id : Nat) : Table I H := w.tables.get id

def setTable (w : World I H) (id : Nat) (table : Table I H) : World I H :=
  { w with tables := w.tables.set id table }

def addCell (w : World I H) (typeName : String) (content : I) : ComponentRef × World I H :=
  let (id, cells) := w.cells.add ⟨typeName, content, .free⟩
  (⟨id, typeName⟩, { w with cells })

/-- Runs code on an instance that nobody holds; none if somebody does. -/
def runOn {α : Type} (w : World I H) (ref : ComponentRef) (action : Action I H α) :
    Option (Except Failure α) × World I H :=
  match w.cells.get? ref.id with
  | some ⟨typeName, content, .free⟩ =>
    let keep (content : I) (host : H) : World I H :=
      { w with cells := w.cells.set ref.id ⟨typeName, content, .free⟩, host }
    match action (content, w.host) with
    | .ok result (content, host) => (some (.ok result), keep content host)
    | .error failure (content, host) => (some (.error failure), keep content host)
  | _ => (none, w)

def runHook (w : World I H) (ref : ComponentRef) (phase : HookPhase) (hook : Hook I H) :
    Option (Except Failure Unit) × World I H :=
  match w.runOn ref hook.run with
  | (some result, w) =>
    (some result, { w with hookRuns := ⟨ref.id, phase, hook.name⟩ :: w.hookRuns })
  | (none, w) => (none, w)

/-- Code that runs finds the instance as it is and the host, and what it leaves takes their places,
however it ends. Where somebody holds the instance, nothing happens. -/
theorem runOn_spec {α : Type} (w : World I H) (ref : ComponentRef) (action : Action I H α) :
    (∃ typeName content outcome left host,
      w.cells.get? ref.id = some ⟨typeName, content, .free⟩ ∧
      (attempt action (content, w.host) : EStateM.Result Empty _ _) = .ok outcome (left, host) ∧
      w.runOn ref action = (some outcome,
        { w with cells := w.cells.set ref.id ⟨typeName, left, .free⟩, host })) ∨
    ((∀ typeName content, w.cells.get? ref.id ≠ some ⟨typeName, content, .free⟩) ∧
      w.runOn ref action = (none, w)) := by
  unfold runOn
  split
  · rename_i typeName content free
    refine .inl ⟨typeName, content, ?_⟩
    cases ran : action (content, w.host) with
    | ok result left => exact ⟨.ok result, left.1, left.2, free, by rw [attempt, ran], rfl⟩
    | error failure left => exact ⟨.error failure, left.1, left.2, free, by rw [attempt, ran], rfl⟩
  · rename_i held
    exact .inr ⟨held, rfl⟩

/-- A hook is recorded just where its code ran, and then once. -/
theorem runHook_spec (w : World I H) (ref : ComponentRef) (phase : HookPhase) (hook : Hook I H) :
    (∃ typeName content outcome left host,
      w.cells.get? ref.id = some ⟨typeName, content, .free⟩ ∧
      (attempt hook.run (content, w.host) : EStateM.Result Empty _ _) = .ok outcome (left, host) ∧
      w.runHook ref phase hook = (some outcome,
        { w with
          cells := w.cells.set ref.id ⟨typeName, left, .free⟩
          host
          hookRuns := ⟨ref.id, phase, hook.name⟩ :: w.hookRuns })) ∨
    ((∀ typeName content, w.cells.get? ref.id ≠ some ⟨typeName, content, .free⟩) ∧
      w.runHook ref phase hook = (none, w)) := by
  rcases w.runOn_spec ref hook.run with
    ⟨typeName, content, outcome, left, host, free, acts, ran⟩ | ⟨held, idle⟩
  · exact .inl ⟨typeName, content, outcome, left, host, free, acts, by rw [runHook, ran]⟩
  · exact .inr ⟨held, by rw [runHook, idle]⟩

/-- The instance, to be read; none while somebody may change it. -/
def peek? (w : World I H) (ref : ComponentRef) : Option I :=
  match w.cells.get? ref.id with
  | some ⟨_, _, .exclusive⟩ => none
  | some cell => some cell.content
  | none => none

/-- Takes hold of an instance, if whoever holds it allows that. -/
def hold? (w : World I H) (ref : ComponentRef) (exclusively : Bool) : Option (World I H) :=
  match w.cells.get? ref.id with
  | some cell =>
    match cell.borrow, exclusively with
    | .free, true => some { w with cells := w.cells.set ref.id { cell with borrow := .exclusive } }
    | .free, false => some { w with cells := w.cells.set ref.id { cell with borrow := .shared 1 } }
    | .shared n, false =>
      some { w with cells := w.cells.set ref.id { cell with borrow := .shared (n + 1) } }
    | _, _ => none
  | none => none

def letGo (w : World I H) (ref : ComponentRef) : World I H :=
  match w.cells.get? ref.id with
  | some cell =>
    let borrow := match cell.borrow with
      | .shared (n + 2) => .shared (n + 1)
      | _ => .free
    { w with cells := w.cells.set ref.id { cell with borrow } }
  | none => w

end World
end CommandChain
