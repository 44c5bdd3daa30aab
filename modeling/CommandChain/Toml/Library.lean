import CommandChain.Toml.Reader

/-!
What documents are read and written with: between a text and the table it describes, and between
values and the plain data that they stand for.
-/
namespace CommandChain.Toml

/-- Sections with their fields, in order. A field without a value is left out. -/
abbrev Record := List (String × List (String × Option Value))

structure Library where
  /-- The table that a text describes, if it is a document. -/
  parse? : String → Option (OrderedMap String Value)
  /-- A document of a record; none if a value is too large for one. -/
  print? : Record → Option String
  /-- How the fields of a section are found in a value: by a name, or by a place. -/
  fields? : Value → Option (String → Nat → Option Value)
  natural? : Value → Option Nat
  truth? : Value → Option Bool
  string? : Value → Option String
  /-- The name of the alternative that a value stands for. -/
  alternative? : Value → Option String

def readOr {α : Type} (value : Option Value) (read? : Value → Option α) (standard : α) : Option α :=
  match value with
  | some value => read? value
  | none => some standard

/-- The largest whole number of a document. -/
def maxInteger : Nat := powerOfTwo 63 - 1

namespace Value

def isEmpty : Value → Bool
  | .array [] => true
  | .table [] => true
  | _ => false

/-- The values of a section may also stand in an array. A date has none of them. -/
def fields? : Value → Option (String → Nat → Option Value)
  | .table entries => some fun name _ => OrderedMap.find? entries name
  | .array items => some fun _ place => items[place]?
  | .scalar .dateTime => some fun _ _ => none
  | _ => none

def natural? : Value → Option Nat
  | .scalar (.integer i) => if 0 ≤ i then some i.toNat else none
  | _ => none

def truth? : Value → Option Bool
  | .scalar (.boolean b) => some b
  | _ => none

def string? : Value → Option String
  | .string s => some s
  | _ => none

/-- An alternative by its name, or by a table that holds nothing but the name over something empty.
-/
def alternative? : Value → Option String
  | .string name => some name
  | .table [(name, value)] => if value.isEmpty then some name else none
  | _ => none

/-- Strings are written as basic ones. Other numbers than natural ones are not written. -/
def print? : Value → Option (List Char)
  | .string s => some (printString s)
  | .scalar (.integer i) => if 0 ≤ i ∧ i ≤ maxInteger then some (Nat.toDigits 10 i.toNat) else none
  | .scalar (.boolean b) => some (toString b).toList
  | _ => none

end Value

def printFields? : List (String × Option Value) → Option (List Char)
  | [] => some []
  | (_, none) :: rest => printFields? rest
  | (key, some value) :: rest => do
    some (key.toList ++ (' ' :: '=' :: ' ' :: ((← value.print?) ++ ('\n' :: (← printFields? rest)))))

def printSections? : Record → Option (List Char)
  | [] => some []
  | (name, fields) :: rest => do
    let lines ← printFields? fields
    let later ← printSections? rest
    some ('[' :: (name.toList ++ (']' :: '\n' ::
      (lines ++ if rest.isEmpty then later else '\n' :: later))))

/-- Writes every string as a basic one, on one line. -/
def Library.basic : Library where
  parse? := readDocument?
  print? record := (printSections? record).map String.ofList
  fields? := Value.fields?
  natural? := Value.natural?
  truth? := Value.truth?
  string? := Value.string?
  alternative? := Value.alternative?

end CommandChain.Toml
