import CommandChain.Selector.Error
import CommandChain.Selector.Reader

/-!
The value of a selector against a subject. What variables and functions mean is left to an
environment, which may change its state and may fail; an expression is evaluated from left to right,
and the first failure is the answer.
-/
namespace CommandChain.Selector

/-- A computation on a state that ends with a value or with an error, and with the state either way.
-/
abbrev Evaluation (σ α : Type) := EStateM SelectorError σ α

structure Environment (σ : Type) where
  /-- The value of a variable, by the text of its name; none if nothing is bound to it. -/
  valueOf : String → Evaluation σ (Option Value)
  call : String → List Value → Evaluation σ Value

/-- One step into a value: by key into a map, by position into a list. -/
def navigate (value : Value) (step : String) : Except SelectorError Value :=
  let found := match value with
    | .map entries => OrderedMap.find? entries step
    | .list items => (readNat64? step).bind fun i => items[i]?
    | _ => none
  match found with
  | some inner => .ok inner
  | none => .error (.noSuchStep step value.kindName)

def navigateAll : Value → List String → Except SelectorError Value
  | value, [] => .ok value
  | value, step :: rest =>
    match navigate value step with
    | .ok inner => navigateAll inner rest
    | .error error => .error error

section

variable {σ : Type} (text : String) (subject : Value) (env : Environment σ)

def raiseFault {α : Type} (fault : Fault) : Evaluation σ α :=
  throw (.malformed text fault.offset fault.reason)

def follow (value : Value) (steps : Steps) : Evaluation σ Value :=
  match navigateAll value steps.names with
  | .error error => throw error
  | .ok inner =>
    match steps.fault with
    | some fault => raiseFault text fault
    | none => pure inner

mutual

def Expr.evaluate : Expr → Evaluation σ Value
  | .subject steps => follow text subject steps
  | .var name steps => do
    match ← env.valueOf name with
    | some value => follow text value steps
    | none => throw (.undefinedVariable name)
  | .literal value => pure value
  | .call name args => do
    let values ← args.evaluate
    env.call name values
  | .broken fault => raiseFault text fault

def Args.evaluate : Args → Evaluation σ (List Value)
  | .close => pure []
  | .item arg rest => do
    let value ← arg.evaluate
    let values ← rest.evaluate
    pure (value :: values)
  | .broken fault => raiseFault text fault

end

end

def evaluate {σ : Type} (text : String) (subject : Value) (env : Environment σ) :
    Evaluation σ Value := do
  let reading := read text
  let value ← reading.expr.evaluate text subject env
  match reading.trailing with
  | some fault => raiseFault text fault
  | none => pure value

end CommandChain.Selector
