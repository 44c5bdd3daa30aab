import CommandChain.Selector.Evaluate

/-!
A scanner that goes over the bytes of a text and evaluates what it finds there. It knows its place
only as the number of bytes before it, and looks at the text only through slices; a slice that does
not lie between characters tears the scan. Nothing bounds its loops: a scan without an end has no
result. It keeps a record of what it slices, and of where expressions and the rounds of its loops
begin.
-/
namespace CommandChain.Selector

/-- A number of bytes after which a character of the text begins, or the text ends. -/
def Boundary (text : String) (place : Nat) : Prop :=
  place ≤ text.utf8ByteSize ∧ (⟨place⟩ : String.Pos.Raw).IsValid text

instance (text : String) (place : Nat) : Decidable (Boundary text place) :=
  inferInstanceAs (Decidable (_ ∧ _))

def slice? (text : String) (start stop : Nat) : Option String :=
  if bounds : start ≤ stop ∧ Boundary text start ∧ Boundary text stop then
    some (text.extract (text.pos ⟨start⟩ bounds.2.1.2) (text.pos ⟨stop⟩ bounds.2.2.2))
  else none

inductive Visit where
  | slice (start stop : Nat)
  /-- An expression begins inside another one. -/
  | within (outer start : Nat)
  /-- A round of a loop begins after another one. -/
  | after (previous start : Nat)

def Visit.Sound (text : String) : Visit → Prop
  | .slice start stop => start ≤ stop ∧ Boundary text start ∧ Boundary text stop
  | .within outer start => outer < start
  | .after previous start => previous < start

structure Scanner (σ : Type) where
  place : Nat
  visits : List Visit
  /-- The state of the environment. -/
  host : σ

/-- Why a scan ends early. Faults are those of the text itself. -/
inductive Stop where
  | fault (offset : Nat) (reason : String)
  | raised (error : SelectorError)
  | torn (start stop : Nat)

/-- An error is what a stop stands for. A fault must lie between characters; nothing stands for a
torn scan. -/
def Stop.Reports (text : String) : Stop → SelectorError → Prop
  | .fault offset reason, error => error = .malformed text offset reason ∧ Boundary text offset
  | .raised error', error => error' = error
  | .torn _ _, _ => False

abbrev Scan (σ α : Type) := ExceptT Stop (StateT (Scanner σ) Option) α

namespace Scan

variable {σ α : Type}

def place : Scan σ Nat := return (← get).place

def goTo (place : Nat) : Scan σ Unit := modify ({ · with place })

def note (visit : Visit) : Scan σ Unit :=
  modify fun scanner => { scanner with visits := visit :: scanner.visits }

/-- Notes that something began, if something else did before. -/
def began (visit : Nat → Nat → Visit) (earlier : Option Nat) (start : Nat) : Scan σ Unit :=
  match earlier with
  | some earlier => note (visit earlier start)
  | none => pure ()

def ask (question : Evaluation σ α) : Scan σ α := fun scanner =>
  match question scanner.host with
  | .ok a host => some (.ok a, { scanner with host })
  | .error error host => some (.error (.raised error), { scanner with host })

def fail (reason : String) : Scan σ α := do
  throw (.fault (← place) reason)

end Scan

/-- What is scanned: a text, on a subject that its paths begin at, in an environment. -/
structure Source (σ : Type) where
  text : String
  subject : Value
  env : Environment σ

namespace Source

open Scan

variable {σ : Type}

def slice (source : Source σ) (start stop : Nat) : Scan σ String := do
  note (.slice start stop)
  match slice? source.text start stop with
  | some part => pure part
  | none => throw (.torn start stop)

def peek (source : Source σ) : Scan σ (Option Char) := do
  let rest ← source.slice (← place) source.text.utf8ByteSize
  pure rest.toList.head?

def bump (source : Source σ) : Scan σ (Option Char) := do
  match ← source.peek with
  | some c => do
    goTo ((← place) + c.utf8Size)
    pure (some c)
  | none => pure none

def passWhile (source : Source σ) (p : Char → Bool) : Scan σ Unit := do
  if (← source.peek).any p then do
    let _ ← source.bump
    source |>.passWhile p
  else pure ()
partial_fixpoint

def eat (source : Source σ) (expected : Char) : Scan σ Bool := do
  if (← source.peek) = some expected then do
    let _ ← source.bump
    pure true
  else pure false

def name (source : Source σ) : Scan σ String := do
  let start ← place
  source.passWhile isNamePart
  source.slice start (← place)

def qualifiedName (source : Source σ) : Scan σ String := do
  let start ← place
  if (← source.name) = "" then fail "expected a name"
  else if ← source.eat ':' then
    if (← source.name) = "" then fail "expected a local name after ':'"
    else source.slice start (← place)
  else source.slice start (← place)

/-- A text up to the quote that opened it, of which what lies after `start` is inside the quotes.
The quotes are of one byte. -/
def quoted (source : Source σ) (quote : Char) (start : Nat) : Scan σ Value := do
  match ← source.bump with
  | some c =>
    if c = quote then do
      let inside ← source.slice start ((← place) - 1)
      pure (.str inside)
    else source |>.quoted quote start
  | none => fail "unterminated string literal"
partial_fixpoint

def number (source : Source σ) : Scan σ Value := do
  let start ← place
  let _ ← source.eat '-'
  source.passWhile isNumberPart
  match numberValue? (← source.slice start (← place)) with
  | some value => pure value
  | none => fail "malformed number"

mutual

/-- Goes on from a value: by a step that is due, or by the steps that slashes announce. -/
def steps (source : Source σ) (value : Value) (due : Bool) (previous : Option Nat) :
    Scan σ Value := do
  let start ← place
  began .after previous start
  if due then source |>.step value start
  else if ← source.eat '/' then source |>.step value start
  else pure value
partial_fixpoint

/-- The rest of a round of `steps`, which began at `start`. -/
def step (source : Source σ) (value : Value) (start : Nat) : Scan σ Value := do
  let key ← source.name
  if key = "" then fail "expected a path step"
  else match navigate value key with
    | .ok inner => source |>.steps inner false (some start)
    | .error error => throw (.raised error)
partial_fixpoint

end

mutual

def expression (source : Source σ) (outer : Option Nat) : Scan σ Value := do
  let start ← place
  began .within outer start
  source.passWhile Text.isBlank
  match ← source.peek with
  | none => fail "empty selector"
  | some c =>
    if c = '.' then do
      let _ ← source.bump
      if ← source.eat '/' then source.steps source.subject true none else pure source.subject
    else if c = '$' then do
      let _ ← source.bump
      let name ← source.qualifiedName
      match ← ask (source.env.valueOf name) with
      | some value => source.steps value false none
      | none => throw (.raised (.undefinedVariable name))
    else if c = '\'' ∨ c = '"' then do
      let _ ← source.bump
      source.quoted c (← place)
    else if c.isDigit ∨ c = '-' then source.number
    else source |>.named start
partial_fixpoint

/-- A call, a word that stands for a value, or steps, in the expression that began at `start`. Steps
are read from the first name on, so the scan goes back to it. -/
def named (source : Source σ) (start : Nat) : Scan σ Value := do
  let opening ← place
  let name ← source.qualifiedName
  source.passWhile Text.isBlank
  if ← source.eat '(' then do
    let args ← source |>.arguments start
    ask (source.env.call name args)
  else match wordValue? name with
    | some value => pure value
    | none => do
      goTo opening
      source.steps source.subject true none
partial_fixpoint

def arguments (source : Source σ) (outer : Nat) : Scan σ (List Value) := do
  source.passWhile Text.isBlank
  if ← source.eat ')' then pure [] else source |>.argument outer [] none
partial_fixpoint

def argument (source : Source σ) (outer : Nat) (read : List Value) (previous : Option Nat) :
    Scan σ (List Value) := do
  let start ← place
  began .after previous start
  let value ← source |>.expression (some outer)
  source.passWhile Text.isBlank
  if ← source.eat ')' then pure (read ++ [value])
  else if ← source.eat ',' then source |>.argument outer (read ++ [value]) (some start)
  else fail "expected ',' or ')'"
partial_fixpoint

end

def scan (source : Source σ) : Scan σ Value := do
  let value ← source.expression none
  source.passWhile Text.isBlank
  if (← place) < source.text.utf8ByteSize then fail "unexpected trailing input"
  else pure value

end Source

end CommandChain.Selector
