import CommandChain.Proofs.Toml.Lines
import CommandChain.Proofs.World.Bindings

/-!
Documents of sections: headers of one name with keys of one name below each. Where no name heads two
sections and no key is twice in one, the statements make up the table of the sections, in whatever
order sections and keys come.
-/
namespace CommandChain.Toml

open OrderedMap (keys find?)

/-- Keys and values under names, in the order of the document. -/
abbrev Sections := List (String × List (String × Value))

def pairStatements (pairs : List (String × Value)) : List Statement :=
  pairs.map fun (key, value) => .keyValue [] key value

def sectionStatements (sections : Sections) : List Statement :=
  sections.flatMap fun (name, pairs) => .header [] name :: pairStatements pairs

def sectionTable (sections : Sections) : OrderedMap String Value :=
  sections.map fun (name, pairs) => (name, .table pairs)

/-- Whether no section is opened twice and no key is twice in one. -/
structure Distinct (sections : Sections) : Prop where
  names : (sections.map Prod.fst).Nodup
  keys : ∀ s ∈ sections, (s.2.map Prod.fst).Nodup

def items (pairs : List (String × Value)) : Entries :=
  pairs.map fun (key, value) => (key, .value value)

theorem keys_items (pairs : List (String × Value)) : keys (items pairs) = pairs.map Prod.fst := by
  simp [keys, items]

theorem entryValues_items (pairs : List (String × Value)) : entryValues (items pairs) = pairs := by
  induction pairs with
  | nil => rfl
  | cons pair rest ih =>
    rw [items] at ih
    simp [items, entryValues, Item.toValue, ih]

theorem addValue_items {pairs : List (String × Value)} {key : String}
    (new : key ∉ pairs.map Prod.fst) (value : Value) :
    addValue (items pairs) key value = some (items (pairs ++ [(key, value)])) := by
  have absent : find? (items pairs) key = none := by
    apply OrderedMap.find?_absent
    rwa [keys_items]
  rw [addValue, OrderedMap.contains, absent]
  simp [items]

theorem find?_last {entries : Entries} {name : String} (new : name ∉ keys entries) (item : Item) :
    find? (entries ++ [(name, item)]) name = some item := by
  rw [OrderedMap.find?_append_none (OrderedMap.find?_absent new)]
  simp [find?]

theorem insert_last {entries : Entries} {name : String} (new : name ∉ keys entries)
    (item other : Item) :
    OrderedMap.insert (entries ++ [(name, item)]) name other = entries ++ [(name, other)] := by
  induction entries with
  | nil => simp [OrderedMap.insert]
  | cons entry rest ih =>
    obtain ⟨k, v⟩ := entry
    obtain ⟨differ, later⟩ := not_or.mp (mt List.mem_cons.mpr new)
    simp [OrderedMap.insert, Ne.symm differ, ih later]

theorem assembleFrom_pairs {entries : Entries} {name : String} (new : name ∉ keys entries)
    {pairs seen : List (String × Value)} (once : ((seen ++ pairs).map Prod.fst).Nodup)
    (rest : List Statement) :
    assembleFrom (pairStatements pairs ++ rest) [name]
        (entries ++ [(name, .table .header (items seen))]) =
      assembleFrom rest [name] (entries ++ [(name, .table .header (items (seen ++ pairs)))]) := by
  induction pairs generalizing seen with
  | nil => simp [pairStatements]
  | cons pair pairs ih =>
    obtain ⟨key, value⟩ := pair
    have fresh : key ∉ seen.map Prod.fst := by
      intro member
      rw [List.map_append] at once
      exact (List.nodup_append.mp once).2.2 key member key List.mem_cons_self rfl
    have added := addValue_items fresh value
    have once' : ((seen ++ [(key, value)] ++ pairs).map Prod.fst).Nodup := by simpa using once
    have later := ih once'
    rw [List.append_assoc, List.singleton_append] at later
    rw [← later]
    simp [pairStatements, assembleFrom, atPath, find?_last new, addKey, added, insert_last new]

theorem assembleFrom_section {entries : Entries} {name : String} (new : name ∉ keys entries)
    {pairs : List (String × Value)} (once : (pairs.map Prod.fst).Nodup) (current : List String)
    (rest : List Statement) :
    assembleFrom (.header [] name :: (pairStatements pairs ++ rest)) current entries =
      assembleFrom rest [name] (entries ++ [(name, .table .header (items pairs))]) := by
  have opened : openTable name entries = some (entries ++ [(name, .table .header (items []))]) := by
    rw [openTable, OrderedMap.find?_absent new]
    rfl
  rw [assembleFrom, atPath, opened]
  have once' : (([] ++ pairs).map Prod.fst).Nodup := once
  exact assembleFrom_pairs new once' rest

def sectionItems (sections : Sections) : Entries :=
  sections.map fun (name, pairs) => (name, .table .header (items pairs))

theorem assembleFrom_sections {entries : Entries} {sections : Sections}
    (names : (keys entries ++ sections.map Prod.fst).Nodup)
    (once : ∀ s ∈ sections, (s.2.map Prod.fst).Nodup) (current : List String) :
    assembleFrom (sectionStatements sections) current entries =
      some (entries ++ sectionItems sections) := by
  induction sections generalizing entries current with
  | nil => simp [sectionStatements, sectionItems, assembleFrom]
  | cons head sections ih =>
    obtain ⟨name, pairs⟩ := head
    have new : name ∉ keys entries := fun member =>
      (List.nodup_append.mp names).2.2 name member name List.mem_cons_self rfl
    have names' : (keys (entries ++ [(name, Item.table .header (items pairs))]) ++
        sections.map Prod.fst).Nodup := by
      simpa [keys] using names
    have later := ih names' (fun s member => once s (List.mem_cons_of_mem _ member)) [name]
    have first := assembleFrom_section new (once (name, pairs) List.mem_cons_self) current
      (sectionStatements sections)
    rw [later] at first
    simpa [sectionStatements, sectionItems] using first

theorem entryValues_sectionItems (sections : Sections) :
    entryValues (sectionItems sections) = sectionTable sections := by
  induction sections with
  | nil => rfl
  | cons head rest ih =>
    rw [sectionItems, sectionTable] at ih
    simp [sectionItems, sectionTable, entryValues, Item.toValue, entryValues_items, ih]

theorem assemble?_sections {sections : Sections} (distinct : Distinct sections) :
    assemble? (sectionStatements sections) = some (sectionTable sections) := by
  have names : (keys ([] : Entries) ++ sections.map Prod.fst).Nodup := distinct.names
  rw [assemble?, assembleFrom_sections names distinct.keys []]
  simp [entryValues_sectionItems]

/-- A text is a document of sections if it is written for their statements, with a mark of byte
order in front or without. -/
structure Document (text : String) (sections : Sections) : Prop where
  distinct : Distinct sections
  written : ∃ chars, Written (sectionStatements sections) chars ∧
    (text.toList = chars ∨ text.toList = '\ufeff' :: chars)

theorem Written.unmarked {statements : List Statement} {text : List Char}
    (written : Written statements text) (more : List Char) : text ≠ '\ufeff' :: more := by
  cases written with
  | nothing => simp
  | empty line later =>
    rintro rfl
    cases line.bounded '\ufeff' rfl
  | @statement statement statements before text tail rest blank stated line later =>
    cases before with
    | nil => exact stated.head_ne (by decide) (by decide) tail more
    | cons c before =>
      intro shape
      have first := blank c List.mem_cons_self
      rw [(List.cons.inj shape).1] at first
      cases first

/-- A document of sections is read as the table of the sections. -/
theorem readDocument?_document {text : String} {sections : Sections}
    (document : Document text sections) : readDocument? text = some (sectionTable sections) := by
  obtain ⟨chars, written, same | marked⟩ := document.written
  · have read := readStatements?_written written (Nat.lt_succ_self chars.length)
    simp only [readDocument?, same]
    split
    · exact absurd rfl (written.unmarked _)
    · rw [read]
      exact assemble?_sections document.distinct
  · have read := readStatements?_written written (Nat.lt_succ_self chars.length)
    simp only [readDocument?, marked]
    rw [read]
    exact assemble?_sections document.distinct

end CommandChain.Toml
