import CommandChain.OrderedMap

/-!
Stores: values under numbers that the store hands out, so that a value can be changed through every
reference to it. A number is never handed out twice.
-/
namespace CommandChain

structure Store (α : Type) where
  next : Nat
  entries : OrderedMap Nat α

namespace Store

variable {α : Type}

def empty : Store α := ⟨0, []⟩

instance : Inhabited (Store α) := ⟨empty⟩

def get? (store : Store α) (id : Nat) : Option α := OrderedMap.find? store.entries id

def get [Inhabited α] (store : Store α) (id : Nat) : α := (store.get? id).getD default

def set (store : Store α) (id : Nat) (value : α) : Store α :=
  { store with entries := OrderedMap.insert store.entries id value }

def add (store : Store α) (value : α) : Nat × Store α :=
  (store.next, ⟨store.next + 1, (store.next, value) :: store.entries⟩)

/-- Changes a value in place; a number that names nothing is left alone. -/
def modify (store : Store α) (id : Nat) (change : α → α) : Store α :=
  match store.get? id with
  | some value => store.set id (change value)
  | none => store

/-- The numbers handed out, newest first. -/
def ids (store : Store α) : List Nat := OrderedMap.keys store.entries

theorem get?_set_self (store : Store α) (id : Nat) (value : α) :
    (store.set id value).get? id = some value :=
  OrderedMap.find?_insert_self _ _ _

theorem get?_set_of_ne (store : Store α) {id other : Nat} (value : α) (differ : id ≠ other) :
    (store.set id value).get? other = store.get? other :=
  OrderedMap.find?_insert_of_ne _ _ differ

theorem get?_add_self (store : Store α) (value : α) :
    (store.add value).2.get? (store.add value).1 = some value := by
  simp [add, get?, OrderedMap.find?]

theorem get?_add_of_ne (store : Store α) (value : α) {other : Nat} (differ : store.next ≠ other) :
    (store.add value).2.get? other = store.get? other := by
  simp [add, get?, OrderedMap.find?, differ]

theorem get_add_self [Inhabited α] (store : Store α) (value : α) :
    (store.add value).2.get (store.add value).1 = value := by
  rw [get, get?_add_self]
  rfl

theorem get_add_of_ne [Inhabited α] (store : Store α) (value : α) {other : Nat}
    (differ : store.next ≠ other) : (store.add value).2.get other = store.get other := by
  rw [get, get?_add_of_ne store value differ, get]

end Store
end CommandChain
