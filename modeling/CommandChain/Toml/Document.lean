import CommandChain.OrderedMap
import CommandChain.Toml.Scalars

/-!
Documents of TOML: values, and the way in which the statements of a document, one after the other,
make up its table. A table may be opened by a header once. One that was only passed on the way to
another may still be opened, and one that dotted keys made may be added to by dotted keys alone.
-/
namespace CommandChain.Toml

inductive Value where
  | string (s : String)
  | scalar (scalar : Scalar)
  | array (items : List Value)
  | table (entries : List (String × Value))

inductive Origin where
  /-- A header of its own. -/
  | header
  /-- A header or an array header further in. -/
  | passed
  /-- A dotted key. -/
  | dotted
  deriving DecidableEq, Repr

inductive Item where
  | value (value : Value)
  | table (origin : Origin) (entries : List (String × Item))
  /-- Tables under one array header, the last one first. -/
  | tables (elements : List (List (String × Item)))

abbrev Entries := OrderedMap String Item

def addValue (entries : Entries) (key : String) (value : Value) : Option Entries :=
  if OrderedMap.contains entries key then none else some (entries ++ [(key, .value value)])

/-- Adds a value under a dotted key; `made` tells whether dotted keys made the table at hand. -/
def addDotted (made : Bool) : List String → String → Value → Entries → Option Entries
  | [], key, value, entries => if made then addValue entries key value else none
  | name :: path, key, value, entries =>
    match OrderedMap.find? entries name with
    | none =>
      (addDotted true path key value []).map fun inner => entries ++ [(name, .table .dotted inner)]
    | some (.table origin inner) =>
      if origin = .header then none
      else (addDotted (origin = .dotted) path key value inner).map fun inner =>
        OrderedMap.insert entries name (.table origin inner)
    | some (.tables (last :: others)) =>
      (addDotted false path key value last).map fun last =>
        OrderedMap.insert entries name (.tables (last :: others))
    | some _ => none

def addKey (path : List String) (key : String) (value : Value) (entries : Entries) :
    Option Entries :=
  if path = [] then addValue entries key value else addDotted false path key value entries

/-- Changes the table that a path of names leads to. A table that is not there is made. -/
def atPath (change : Entries → Option Entries) : List String → Entries → Option Entries
  | [], entries => change entries
  | name :: path, entries =>
    match OrderedMap.find? entries name with
    | none => (atPath change path []).map fun inner => entries ++ [(name, .table .passed inner)]
    | some (.table origin inner) =>
      (atPath change path inner).map fun inner =>
        OrderedMap.insert entries name (.table origin inner)
    | some (.tables (last :: others)) =>
      (atPath change path last).map fun last =>
        OrderedMap.insert entries name (.tables (last :: others))
    | some _ => none

def openTable (name : String) (entries : Entries) : Option Entries :=
  match OrderedMap.find? entries name with
  | none => some (entries ++ [(name, .table .header [])])
  | some (.table .passed inner) => some (OrderedMap.insert entries name (.table .header inner))
  | some _ => none

def openElement (name : String) (entries : Entries) : Option Entries :=
  match OrderedMap.find? entries name with
  | none => some (entries ++ [(name, .tables [[]])])
  | some (.tables elements) => some (OrderedMap.insert entries name (.tables ([] :: elements)))
  | some _ => none

/-- One statement. The names of a header or a key come in order; the last one is apart. -/
inductive Statement where
  | header (path : List String) (name : String)
  | arrayHeader (path : List String) (name : String)
  | keyValue (path : List String) (key : String) (value : Value)

/-- Takes in statements. `current` is the path of the table opened last. -/
def assembleFrom : List Statement → List String → Entries → Option Entries
  | [], _, entries => some entries
  | .header path name :: rest, _, entries =>
    (atPath (openTable name) path entries).bind (assembleFrom rest (path ++ [name]))
  | .arrayHeader path name :: rest, _, entries =>
    (atPath (openElement name) path entries).bind (assembleFrom rest (path ++ [name]))
  | .keyValue path key value :: rest, current, entries =>
    (atPath (addKey path key value) current entries).bind (assembleFrom rest current)

mutual

def Item.toValue : Item → Value
  | .value value => value
  | .table _ entries => .table (entryValues entries)
  | .tables elements => .array (elementValues elements).reverse

def entryValues : List (String × Item) → List (String × Value)
  | [] => []
  | (key, item) :: rest => (key, item.toValue) :: entryValues rest

def elementValues : List (List (String × Item)) → List Value
  | [] => []
  | entries :: rest => .table (entryValues entries) :: elementValues rest

end

def assemble? (statements : List Statement) : Option (OrderedMap String Value) :=
  (assembleFrom statements [] []).map entryValues

def inlineTable? (pairs : List (List String × String × Value)) : Option Value :=
  (assemble? (pairs.map fun (path, key, value) => .keyValue path key value)).map .table

end CommandChain.Toml
