/-!
Maps that keep the order in which their keys first came: an insertion under a key that is already
there changes the value and leaves the place, a removal closes the gap. A map built by these
operations holds each key once.
-/
namespace CommandChain

abbrev OrderedMap (κ ν : Type) := List (κ × ν)

namespace OrderedMap

variable {κ ν : Type} [DecidableEq κ]

def find? : OrderedMap κ ν → κ → Option ν
  | [], _ => none
  | (k, v) :: rest, key => if k = key then some v else find? rest key

def insert : OrderedMap κ ν → κ → ν → OrderedMap κ ν
  | [], key, value => [(key, value)]
  | (k, v) :: rest, key, value =>
    if k = key then (k, value) :: rest else (k, v) :: insert rest key value

def erase : OrderedMap κ ν → κ → OrderedMap κ ν
  | [], _ => []
  | (k, v) :: rest, key => if k = key then rest else (k, v) :: erase rest key

def keys (entries : OrderedMap κ ν) : List κ := entries.map Prod.fst

def findKey? (entries : OrderedMap κ ν) (p : ν → Bool) : Option κ :=
  (entries.filter fun (_, value) => p value).head?.map Prod.fst

def contains (entries : OrderedMap κ ν) (key : κ) : Bool := (find? entries key).isSome

/-- The pairs inserted in turn: a repeated key keeps its first place and its last value. -/
def ofPairs (pairs : List (κ × ν)) : OrderedMap κ ν :=
  pairs.foldl (fun entries (k, v) => insert entries k v) []

theorem find?_insert_self (entries : OrderedMap κ ν) (key : κ) (value : ν) :
    find? (insert entries key value) key = some value := by
  induction entries with
  | nil => simp [insert, find?]
  | cons pair rest ih =>
    obtain ⟨k, v⟩ := pair
    by_cases same : k = key <;> simp [insert, find?, same, ih]

theorem find?_insert_of_ne (entries : OrderedMap κ ν) {key other : κ} (value : ν)
    (differ : key ≠ other) : find? (insert entries key value) other = find? entries other := by
  induction entries with
  | nil => simp [insert, find?, differ]
  | cons pair rest ih =>
    obtain ⟨k, v⟩ := pair
    by_cases same : k = key
    · subst same
      simp [insert, find?, differ]
    · simp [insert, find?, same, ih]

theorem find?_erase_of_ne (entries : OrderedMap κ ν) {key other : κ} (differ : key ≠ other) :
    find? (erase entries key) other = find? entries other := by
  induction entries with
  | nil => rfl
  | cons pair rest ih =>
    obtain ⟨k, v⟩ := pair
    by_cases same : k = key
    · subst same
      simp [erase, find?, differ]
    · simp [erase, find?, same, ih]

end OrderedMap
end CommandChain
