import CommandChain.Proofs.Toml.Sections
import CommandChain.Toml.Library

/-!
What can be relied on in whatever documents are read and written with: a record is written as one of
the documents of its sections, such a document is read as their table, and plain values are read as
what they are.
-/
namespace CommandChain.Toml

open OrderedMap (find?)

def Record.sections (record : Record) : Sections :=
  record.map fun (name, fields) => (name, fields.filterMap fun (key, value) => value.map (key, ·))

/-- Values that any document can hold. -/
inductive Value.Plain : Value → Prop where
  | string (s : String) : Plain (.string s)
  | natural {n : Nat} (small : n ≤ maxInteger) : Plain (.scalar (.integer n))
  | truth (b : Bool) : Plain (.scalar (.boolean b))

/-- Whether the keys of some fields are bare names, and what values they have are plain. -/
def PlainFields (fields : List (String × Option Value)) : Prop :=
  ∀ field ∈ fields, Bare field.1.toList ∧ ∀ value ∈ field.2, value.Plain

namespace PlainFields

variable {key : String} {value : Value} {fields : List (String × Option Value)}

theorem nil : PlainFields [] := nofun

theorem given (bare : Bare key.toList) (plain : value.Plain) (rest : PlainFields fields) :
    PlainFields ((key, some value) :: fields) := by
  refine List.forall_mem_cons.mpr ⟨⟨bare, ?_⟩, rest⟩
  rintro _ ⟨⟩
  exact plain

theorem missing (bare : Bare key.toList) (rest : PlainFields fields) :
    PlainFields ((key, none) :: fields) := List.forall_mem_cons.mpr ⟨⟨bare, nofun⟩, rest⟩

end PlainFields

/-- Whether a record can be written as a document of sections. -/
structure Record.Fits (record : Record) : Prop where
  distinct : Distinct record.sections
  plain : ∀ entry ∈ record, Bare entry.1.toList ∧ PlainFields entry.2

structure Library.Faithful (library : Library) : Prop where
  parses : ∀ {text sections}, Document text sections →
    library.parse? text = some (sectionTable sections)
  prints : ∀ {record : Record}, record.Fits → ∃ text, library.print? record = some text ∧
    Document text record.sections
  fields : ∀ entries, library.fields? (.table entries) = some fun name _ => find? entries name
  natural : ∀ n ≤ maxInteger, library.natural? (.scalar (.integer n)) = some n
  truth : ∀ b, library.truth? (.scalar (.boolean b)) = some b
  string : ∀ s, library.string? (.string s) = some s
  alternative : ∀ name, library.alternative? (.string name) = some name

/-! ### Writing every string as a basic one -/

theorem Value.Plain.print?_spelled {value : Value} (plain : value.Plain) :
    ∃ text, value.print? = some text ∧ Spelled value text := by
  cases plain with
  | string s => exact ⟨_, rfl, .printString s⟩
  | @natural n small =>
    have fits : n < powerOfTwo 63 := Nat.lt_of_le_of_lt small (by decide)
    refine ⟨_, if_pos ⟨Int.natCast_nonneg n, Int.ofNat_le.mpr small⟩, ?_⟩
    exact .whole fits
  | truth b => exact ⟨_, rfl, toString_truth b ▸ .truth b⟩

theorem printFields?_written {fields : List (String × Option Value)} (plain : PlainFields fields) :
    ∃ text, printFields? fields = some text ∧
      ∀ {statements : List Statement} {rest : List Char}, Written statements rest →
        Written (pairStatements (fields.filterMap fun (key, value) => value.map (key, ·)) ++
          statements) (text ++ rest) := by
  induction fields with
  | nil => exact ⟨[], rfl, fun later => later⟩
  | cons field fields ih =>
    obtain ⟨here, others⟩ := List.forall_mem_cons.mp plain
    obtain ⟨lines, prints, written⟩ := ih others
    obtain ⟨key, _ | value⟩ := field
    · exact ⟨lines, prints, written⟩
    · obtain ⟨text, shown, spelled⟩ := (here.2 value rfl).print?_spelled
      refine ⟨key.toList ++ (' ' :: '=' :: ' ' :: (text ++ ('\n' :: lines))), ?_, fun later => ?_⟩
      · simp [printFields?, shown, prints]
      · have line := (written later).pairLine key here.1 spelled
        simpa [pairStatements] using line

theorem printSections?_written {record : Record}
    (plain : ∀ entry ∈ record, Bare entry.1.toList ∧ PlainFields entry.2) :
    ∃ text, printSections? record = some text ∧
      Written (sectionStatements record.sections) text := by
  induction record with
  | nil => exact ⟨[], rfl, .nothing⟩
  | cons entry record ih =>
    obtain ⟨here, others⟩ := List.forall_mem_cons.mp plain
    obtain ⟨later, prints, written⟩ := ih others
    obtain ⟨name, fields⟩ := entry
    obtain ⟨lines, shown, below⟩ := printFields?_written here.2
    have apart : Written (sectionStatements (Record.sections record))
        (if record.isEmpty then later else '\n' :: later) := by
      split
      · exact written
      · exact .empty (.feed (.inl rfl) later) written
    refine ⟨'[' :: (name.toList ++ (']' :: '\n' ::
      (lines ++ if record.isEmpty then later else '\n' :: later))), ?_, ?_⟩
    · simp [printSections?, shown, prints]
    · have heading := (below apart).headerLine name here.1
      simpa [sectionStatements, Record.sections] using heading

theorem Library.basic_faithful : basic.Faithful where
  parses := readDocument?_document
  prints fits := by
    obtain ⟨text, prints, written⟩ := printSections?_written fits.plain
    refine ⟨String.ofList text, ?_, fits.distinct, text, written, .inl String.toList_ofList⟩
    exact congrArg (Option.map String.ofList) prints
  fields _ := rfl
  natural n _ := rfl
  truth _ := rfl
  string _ := rfl
  alternative _ := rfl

end CommandChain.Toml
