import CommandChain.Selector.Evaluate

/-!
The grammar of selectors: its trees, the texts that render a tree, and what a tree means. Nothing
here reads a text, and the meaning of a tree does not go through what reading makes of its text.
-/
namespace CommandChain.Selector

/-- A nonempty run of the characters that names are made of. -/
structure Name where
  chars : List Char
  nonempty : chars ≠ []
  parts : ∀ c ∈ chars, isNamePart c = true
  deriving DecidableEq

namespace Name

def text (name : Name) : String := String.ofList name.chars

/-- Digits and the minus sign begin numbers, not the names that an expression begins with. -/
def Leads (name : Name) : Prop := ∀ c ∈ name.chars.head?, c.isDigit = false ∧ c ≠ '-'

end Name

/-- A name, or two with a colon between them. -/
inductive QualifiedName where
  | plain (name : Name)
  | prefixed (space name : Name)
  deriving DecidableEq

namespace QualifiedName

def chars : QualifiedName → List Char
  | .plain name => name.chars
  | .prefixed space name => space.chars ++ ':' :: name.chars

def text (name : QualifiedName) : String := String.ofList name.chars

theorem text_prefixed (space name : Name) :
    (prefixed space name).text = space.text ++ ":" ++ name.text := by
  simp [text, chars, Name.text, String.append_assoc]

def first : QualifiedName → Name
  | .plain name => name
  | .prefixed space _ => space

end QualifiedName

inductive Quote where
  | single
  | double
  deriving DecidableEq

def Quote.char : Quote → Char
  | .single => '\''
  | .double => '"'

/-- The text of a number: a minus sign or none, then digits and points. Without a minus sign it
begins with a digit. -/
structure Numeral where
  negative : Bool
  digits : List Char
  parts : ∀ c ∈ digits, isNumberPart c = true
  opens : negative = true ∨ ∃ c ∈ digits.head?, c.isDigit = true

namespace Numeral

def chars (numeral : Numeral) : List Char :=
  if numeral.negative then '-' :: numeral.digits else numeral.digits

def text (numeral : Numeral) : String := String.ofList numeral.chars

/-- A numeral is a whole number of 64 bits if it can be read as one, else a binary number. -/
inductive Denotes (numeral : Numeral) : Value → Prop where
  | whole {i : Int} (reads : readInt64? numeral.text = some i) : Denotes numeral (.int i)
  | binary {x : Binary64} (broken : readInt64? numeral.text = none)
      (reads : Binary64.read? numeral.text = some x) : Denotes numeral (.float x)

end Numeral

/-- The expressions without an expression in them. -/
inductive Leaf where
  | subject (steps : List Name)
  | var (name : QualifiedName) (steps : List Name)
  | quoted (quote : Quote) (text : List Char) (apart : quote.char ∉ text)
  | number (numeral : Numeral) (value : Value) (denotes : numeral.Denotes value)
  | bool (b : Bool)
  | null
  /-- Steps from the subject, the first of which is not one of the words that stand for a value. -/
  | path (first : Name) (steps : List Name) (leads : first.Leads)
      (apart : first.text ∉ ["true", "false", "null"])

inductive Tree where
  | atom (leaf : Leaf)
  | call (name : QualifiedName) (leads : name.first.Leads) (args : List Tree)

def stepsChars (steps : List Name) : List Char := steps.flatMap fun step => '/' :: step.chars

def Leaf.chars : Leaf → List Char
  | .subject steps => '.' :: stepsChars steps
  | .var name steps => '$' :: (name.chars ++ stepsChars steps)
  | .quoted quote text _ => quote.char :: (text ++ [quote.char])
  | .number numeral _ _ => numeral.chars
  | .bool true => "true".toList
  | .bool false => "false".toList
  | .null => "null".toList
  | .path first steps _ _ => first.chars ++ stepsChars steps

def Blank (chars : List Char) : Prop := ∀ c ∈ chars, Text.isBlank c = true

mutual

/-- The texts of a tree: blanks may stand around it and before the parenthesis of a call. -/
inductive Tree.Renders : Tree → List Char → Prop where
  | atom {leaf : Leaf} {before after : List Char} (blank : Blank before) (blank' : Blank after) :
    Renders (.atom leaf) (before ++ (leaf.chars ++ after))
  | call {name : QualifiedName} {leads : name.first.Leads} {args : List Tree}
      {before gap inner after : List Char} (blank : Blank before) (blankGap : Blank gap)
      (within : Tree.RendersAll args inner) (blank' : Blank after) :
    Renders (.call name leads args)
      (before ++ (name.chars ++ (gap ++ '(' :: (inner ++ ')' :: after))))

/-- The texts of the arguments of a call, with commas between them. -/
inductive Tree.RendersAll : List Tree → List Char → Prop where
  | none {gap : List Char} (blank : Blank gap) : RendersAll [] gap
  | one {arg : Tree} {text : List Char} (renders : arg.Renders text) : RendersAll [arg] text
  | more {arg next : Tree} {rest : List Tree} {text others : List Char}
      (renders : arg.Renders text) (following : RendersAll (next :: rest) others) :
    RendersAll (arg :: next :: rest) (text ++ ',' :: others)

end

section

variable {σ : Type}

/-- One step after the other, into what the steps before it have found. -/
def descend (value : Value) (steps : List Name) : Evaluation σ Value :=
  steps.foldlM (fun found step => ofExcept (navigate found step.text)) value

variable (subject : Value) (env : Environment σ)

def Leaf.meaning : Leaf → Evaluation σ Value
  | .subject steps => descend subject steps
  | .var name steps => do
    match ← env.valueOf name.text with
    | some value => descend value steps
    | none => throw (.undefinedVariable name.text)
  | .quoted _ text _ => pure (.str (String.ofList text))
  | .number _ value _ => pure value
  | .bool b => pure (.bool b)
  | .null => pure .null
  | .path first steps _ _ => descend subject (first :: steps)

mutual

/-- The meaning of a tree: the arguments of a call are evaluated from left to right, and the
environment's function is applied to their values. -/
def Tree.meaning : Tree → Evaluation σ Value
  | .atom leaf => leaf.meaning subject env
  | .call name _ args => do
    let values ← Tree.meanings args
    env.call name.text values

def Tree.meanings : List Tree → Evaluation σ (List Value)
  | [] => pure []
  | arg :: rest => do
    let value ← arg.meaning
    let values ← Tree.meanings rest
    pure (value :: values)

end

end

end CommandChain.Selector
