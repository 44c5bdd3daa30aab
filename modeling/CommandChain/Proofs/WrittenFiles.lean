import CommandChain.Config.Storage

/-!
What was written to a file is read from it. A path leads through directories alone, so a file that
is put where a path ends changes nothing on the way there.
-/
namespace CommandChain.FileTree

variable {tree : FileTree} {place : List String}

theorem entry?_insert_of_ne (tree : FileTree) {place other : List String} (differ : place ≠ other)
    (entry : FileEntry) : entry? (OrderedMap.insert tree place entry) other = tree.entry? other := by
  unfold entry?
  rw [OrderedMap.find?_insert_of_ne tree entry differ]

theorem isDirectory_insert (no_directory : tree.isDirectory place = false) (entry : FileEntry)
    {other : List String} (directory : tree.isDirectory other = true) :
    isDirectory (OrderedMap.insert tree place entry) other = true := by
  have differ : place ≠ other := by
    rintro rfl
    rw [directory] at no_directory
    cases no_directory
  simpa only [isDirectory, entry?_insert_of_ne tree differ] using directory

theorem walk?_insert (no_directory : tree.isDirectory place = false) (entry : FileEntry)
    {names start goal : List String} (walk : tree.walk? start names = some goal) :
    walk? (OrderedMap.insert tree place entry) start names = some goal := by
  induction names generalizing start with
  | nil => exact walk
  | cons name rest ih =>
    cases directory : tree.isDirectory start with
    | false => simp [walk?, directory] at walk
    | true =>
      have still := isDirectory_insert no_directory entry directory
      simp only [walk?, directory, still, Bool.not_true, Bool.false_eq_true, if_false] at walk ⊢
      by_cases here : name = "" ∨ name = "."
      · rw [if_pos here] at walk ⊢
        exact ih walk
      rw [if_neg here] at walk ⊢
      by_cases outward : name = ".."
      · rw [if_pos outward] at walk ⊢
        exact ih walk
      · rw [if_neg outward] at walk ⊢
        exact ih walk

theorem write?_some_iff {path text : String} {after : FileTree} :
    tree.write? path text = some after ↔ path.endsWith "/" = false ∧
      ∃ place, tree.place? path = some place ∧ tree.isDirectory place = false ∧
        OrderedMap.insert tree place (.file (some text)) = after := by
  unfold write?
  cases path.endsWith "/" with
  | true => simp
  | false => cases tree.place? path with
    | none => simp
    | some place => cases directory : tree.isDirectory place <;> simp [directory]

theorem lookup?_write {path text : String} {after : FileTree}
    (written : tree.write? path text = some after) : after.lookup? path = some (.file (some text)) := by
  obtain ⟨-, place, leads, no_directory, rfl⟩ := write?_some_iff.mp written
  have still : place? (OrderedMap.insert tree place (.file (some text))) path = some place := by
    unfold place? at leads ⊢
    by_cases nowhere : path = "" ∨ !isUsable path
    · rw [if_pos nowhere] at leads
      cases leads
    · rw [if_neg nowhere] at leads ⊢
      exact walk?_insert no_directory _ leads
  have named : ¬(place = [] ∨ place = ["/"]) := by
    intro always
    simp [isDirectory, entry?, always] at no_directory
  rw [lookup?, still, Option.bind_some, entry?, if_neg named, OrderedMap.find?_insert_self]

theorem readText?_write {path text : String} {after : FileTree}
    (written : tree.write? path text = some after) : after.readText? path = some text := by
  rw [readText?, lookup?_write written]

end CommandChain.FileTree
