import CommandChain.Proofs.Toml.Library
import CommandChain.Proofs.WrittenFiles

/-!
Settings survive being saved and loaded, and a document says what it says about them and nothing
else: whatever it leaves out, key by key or section by section, stays at its standard value. That is
so in whatever documents are read and written with, if it reads and writes them faithfully.
-/
namespace CommandChain

open OrderedMap (find?)
open Toml (Document Written)

/-- What is said about each setting, if anything. -/
structure Choices where
  maxDepth : Option Nat
  unknownLocation : Option String
  warnUnreleased : Option Bool
  level : Option LogLevel
  filter : Option String
  deriving DecidableEq, Repr

namespace Choices

/-- The settings with the choices in place of what they are about. -/
def onto (choices : Choices) (settings : Settings) : Settings :=
  ⟨⟨choices.maxDepth.getD settings.engine.maxDepth,
      choices.unknownLocation.getD settings.engine.unknownLocation,
      choices.warnUnreleased.getD settings.engine.warnUnreleased⟩,
    ⟨choices.level.getD settings.logging.level, choices.filter.or settings.logging.filter⟩⟩

/-- Whether there is a value just where a choice was made, and one that is read as the choice. -/
def Given {α : Type} (read? : Toml.Value → Option α) : Option α → Option Toml.Value → Prop
  | none, entry => entry = none
  | some choice, entry => ∃ value, entry = some value ∧ read? value = some choice

/-- Whether the keys of the section `engine` and those of the section `logging` give the choices. -/
structure GivenBy (library : Toml.Library) (choices : Choices)
    (engine logging : OrderedMap String Toml.Value) : Prop where
  maxDepth : Given library.natural? choices.maxDepth (find? engine "max_depth")
  unknownLocation : Given library.string? choices.unknownLocation (find? engine "unknown_location")
  warnUnreleased : Given library.truth? choices.warnUnreleased (find? engine "warn_unreleased")
  level : Given (fun value => (library.alternative? value).bind LogLevel.ofName?)
    choices.level (find? logging "level")
  filter : Given library.string? choices.filter (find? logging "filter")

/-- Whether a table has a section with these keys, or has no such section and these are none. -/
inductive HasKeys (entries : OrderedMap String Toml.Value) (name : String) :
    OrderedMap String Toml.Value → Prop where
  | there {keys} (table : find? entries name = some (.table keys)) : HasKeys entries name keys
  | missing (absent : find? entries name = none) : HasKeys entries name []

/-- Whether a document with this table gives the choices. Other keys and sections are free. -/
def HeldBy (library : Toml.Library) (choices : Choices) (entries : OrderedMap String Toml.Value) :
    Prop :=
  ∃ engine logging, HasKeys entries "engine" engine ∧ HasKeys entries "logging" logging ∧
    choices.GivenBy library engine logging

/-! ### Reading choices -/

theorem readOr_given {α β : Type} {read? : Toml.Value → Option α} {choice : Option α}
    {entry : Option Toml.Value} (given : Given read? choice entry) (put : α → β) (standard : β) :
    Toml.readOr entry (fun value => (read? value).map put) standard =
      some ((choice.map put).getD standard) := by
  cases choice with
  | none =>
    rw [show entry = none from given]
    rfl
  | some choice =>
    obtain ⟨value, rfl, reads⟩ := given
    exact congrArg (Option.map put) reads

theorem readOr_given_id {α : Type} {read? : Toml.Value → Option α} {choice : Option α}
    {entry : Option Toml.Value} (given : Given read? choice entry) (standard : α) :
    Toml.readOr entry read? standard = some (choice.getD standard) := by
  simpa using readOr_given given id standard

theorem readOr_hasKeys {α : Type} {entries keys : OrderedMap String Toml.Value} {name : String}
    (keyed : HasKeys entries name keys) (read? : Toml.Value → Option α) {standard : α}
    (empty : read? (.table []) = some standard) :
    Toml.readOr (find? entries name) read? standard = read? (.table keys) := by
  cases keyed with
  | there table => rw [table]; rfl
  | missing absent => rw [absent, empty]; rfl

variable {library : Toml.Library} (faithful : library.Faithful) {choices : Choices}
  {entries engine logging : OrderedMap String Toml.Value}

include faithful

theorem ofToml?_engine (keyed : HasKeys entries "engine" engine)
    (given : choices.GivenBy library engine logging) :
    EngineSettings.ofToml? library (find? entries "engine") =
      some (choices.onto .standard).engine := by
  have fields := faithful.fields
  rw [EngineSettings.ofToml?, readOr_hasKeys keyed _ (by simp [fields, find?, Toml.readOr])]
  simp only [fields, Option.bind_eq_bind, Option.bind_some, readOr_given_id given.maxDepth,
    readOr_given_id given.unknownLocation, readOr_given_id given.warnUnreleased]
  rfl

theorem ofToml?_logging (keyed : HasKeys entries "logging" logging)
    (given : choices.GivenBy library engine logging) :
    LoggingSettings.ofToml? library (find? entries "logging") =
      some (choices.onto .standard).logging := by
  have fields := faithful.fields
  rw [LoggingSettings.ofToml?, readOr_hasKeys keyed _ (by simp [fields, find?, Toml.readOr])]
  simp only [fields, Option.bind_eq_bind, Option.bind_some, readOr_given_id given.level,
    readOr_given given.filter some, onto]
  cases choices.filter <;> rfl

/-- A document that holds choices is read as the standard settings with them in place. -/
theorem read?_heldBy {text : String} (document : library.parse? text = some entries)
    (held : choices.HeldBy library entries) :
    Settings.read? library text = some (choices.onto .standard) := by
  obtain ⟨engine, logging, engine_section, logging_section, given⟩ := held
  rw [Settings.read?, document, Option.bind_some, Settings.ofToml?, faithful.fields]
  simp only [Option.bind_eq_bind, Option.bind_some,
    ofToml?_engine faithful engine_section given, ofToml?_logging faithful logging_section given]

end Choices

/-! ### Settings as records -/

theorem EngineSettings.fields_plain (settings : EngineSettings)
    (small : settings.maxDepth ≤ Toml.maxInteger) : Toml.PlainFields settings.fields := by
  refine .given (by decide) (.natural small) ?_
  refine .given (by decide) (.string _) ?_
  exact .given (by decide) (.truth _) .nil

theorem LoggingSettings.fields_plain (settings : LoggingSettings) :
    Toml.PlainFields settings.fields := by
  refine .given (by decide) (.string _) ?_
  cases settings.filter with
  | none => exact .missing (by decide) .nil
  | some filter => exact .given (by decide) (.string filter) .nil

namespace Settings

theorem record_fits (settings : Settings) (small : settings.engine.maxDepth ≤ Toml.maxInteger) :
    settings.record.Fits := by
  obtain ⟨engine, level, filter⟩ := settings
  constructor
  case distinct =>
    constructor
    · show ["engine", "logging"].Nodup
      decide
    · cases filter <;> simp [record, Toml.Record.sections, EngineSettings.fields,
        LoggingSettings.fields]
  case plain =>
    simp only [record, List.forall_mem_cons, List.not_mem_nil, false_implies, implies_true,
      and_true]
    exact ⟨⟨by decide, engine.fields_plain small⟩, by decide, LoggingSettings.fields_plain _⟩

def choices (settings : Settings) : Choices :=
  ⟨some settings.engine.maxDepth, some settings.engine.unknownLocation,
    some settings.engine.warnUnreleased, some settings.logging.level, settings.logging.filter⟩

theorem onto_choices (settings : Settings) : settings.choices.onto .standard = settings := by
  obtain ⟨engine, level, filter⟩ := settings
  cases filter <;> rfl

theorem heldBy_record {library : Toml.Library} (faithful : library.Faithful) (settings : Settings)
    (small : settings.engine.maxDepth ≤ Toml.maxInteger) :
    settings.choices.HeldBy library (Toml.sectionTable settings.record.sections) := by
  obtain ⟨engine, level, filter⟩ := settings
  refine ⟨_, _, .there rfl, .there rfl, ?_⟩
  have named : (library.alternative? (.string level.name)).bind LogLevel.ofName? = some level := by
    rw [faithful.alternative, Option.bind_some, level.ofName?_name]
  exact
    { maxDepth := ⟨_, rfl, faithful.natural _ small⟩
      unknownLocation := ⟨_, rfl, faithful.string _⟩
      warnUnreleased := ⟨_, rfl, faithful.truth _⟩
      level := ⟨_, rfl, named⟩
      filter := by
        cases filter with
        | none => rfl
        | some filter => exact ⟨_, rfl, faithful.string _⟩ }

/-! ### Saving and loading -/

/-- Whether settings can be saved under a path: the directory that it lies in is there or can be
made, and the path then ends at a place that is no directory. -/
def Writable (tree : FileTree) (path : String) : Prop :=
  ∃ made place, prepare tree path = .ok made ∧ made.place? path = some place ∧
    made.isDirectory place = false ∧ path.endsWith "/" = false

section Files

variable {library : Toml.Library} {tree after : FileTree} {path text : String}
  {settings : Settings}

theorem loadFile_there (there : tree.readText? path = some text)
    (reads : read? library text = some settings) : loadFile tree path library = .ok settings := by
  have present : tree.isPresent path = true := by
    unfold FileTree.readText? at there
    split at there
    · rename_i found
      rw [FileTree.isPresent, found, Option.isSome_some]
    · cases there
  simp [loadFile, present, there, reads]

theorem save_eq_ok_iff : save tree settings path library = .ok after ↔
    ∃ made text, prepare tree path = .ok made ∧ settings.print? library = some text ∧
      made.write? path text = some after := by
  simp only [save, bind, Except.bind]
  cases prepare tree path with
  | error error => simp
  | ok made =>
    cases settings.print? library with
    | none => simp
    | some text => cases written : made.write? path text <;> simp [written]

/-- Settings are saved just where that is possible, and if there is a document of them. -/
theorem save_ok_iff : (∃ after, save tree settings path library = .ok after) ↔
    Writable tree path ∧ ∃ text, settings.print? library = some text := by
  constructor
  · rintro ⟨after, saved⟩
    obtain ⟨made, text, prepared, printed, written⟩ := save_eq_ok_iff.mp saved
    obtain ⟨named, place, leads, no_directory, -⟩ := FileTree.write?_some_iff.mp written
    exact ⟨⟨made, place, prepared, leads, no_directory, named⟩, text, printed⟩
  · rintro ⟨⟨made, place, prepared, leads, no_directory, named⟩, text, printed⟩
    exact ⟨_, save_eq_ok_iff.mpr ⟨made, text, prepared, printed,
      FileTree.write?_some_iff.mpr ⟨named, place, leads, no_directory, rfl⟩⟩⟩

variable (faithful : library.Faithful)
include faithful

theorem loadFile_heldBy (there : tree.readText? path = some text)
    {entries : OrderedMap String Toml.Value} (document : library.parse? text = some entries)
    {choices : Choices} (held : choices.HeldBy library entries) :
    loadFile tree path library = .ok (choices.onto .standard) :=
  loadFile_there there (Choices.read?_heldBy faithful document held)

theorem loadFile_save (small : settings.engine.maxDepth ≤ Toml.maxInteger)
    (saved : save tree settings path library = .ok after) :
    loadFile after path library = .ok settings := by
  obtain ⟨made, text, -, printed, written⟩ := save_eq_ok_iff.mp saved
  obtain ⟨text', printed', document⟩ := faithful.prints (settings.record_fits small)
  obtain rfl : text' = text := Option.some.inj (printed'.symm.trans printed)
  have loaded := loadFile_heldBy faithful (FileTree.readText?_write written)
    (faithful.parses document) (settings.heldBy_record faithful small)
  rwa [onto_choices] at loaded

end Files

/-! ### A place for a file, and a document of few settings -/

theorem splitOn_nested : "a/b".splitOn "/" = ["a", "b"] := by
  unfold String.splitOn
  rw [if_neg (by decide), String.splitOnAux, if_neg (by decide +kernel), if_neg (by decide +kernel),
    String.splitOnAux, if_neg (by decide +kernel), if_pos (by decide +kernel)]
  dsimp only
  rw [if_pos (by decide +kernel), String.splitOnAux, if_neg (by decide +kernel),
    if_neg (by decide +kernel), String.splitOnAux, if_pos (by decide +kernel)]
  decide +kernel

theorem splitOn_single : "a".splitOn "/" = ["a"] := by
  unfold String.splitOn
  rw [if_neg (by decide), String.splitOnAux, if_neg (by decide +kernel), if_neg (by decide +kernel),
    String.splitOnAux, if_pos (by decide +kernel)]
  decide +kernel

theorem usable_single : FileTree.names "a" = ["a"] ∧ FileTree.isUsable "a" = true := by
  have names : FileTree.names "a" = ["a"] := by
    rw [FileTree.names, splitOn_single]
    rfl
  refine ⟨names, ?_⟩
  rw [FileTree.isUsable, names]
  decide +kernel

theorem readText?_single (text : String) :
    FileTree.readText? [(["a"], .file (some text))] "a" = some text := by
  have leads : FileTree.place? [(["a"], .file (some text))] "a" = some ["a"] := by
    rw [FileTree.place?, usable_single.1, usable_single.2]
    rfl
  rw [FileTree.readText?, FileTree.lookup?, leads]
  rfl

theorem writable_nested : Writable [] "a/b" := by
  have names : FileTree.names "a/b" = ["a", "b"] := by
    rw [FileTree.names, splitOn_nested]
    rfl
  have usable : FileTree.isUsable "a/b" = true := by
    rw [FileTree.isUsable, names]
    decide +kernel
  have parent : FileTree.parent? "a/b" = some "a" := by
    rw [FileTree.parent?, splitOn_nested]
    rfl
  have absent : FileTree.isPresent [] "a" = false := by
    rw [FileTree.isPresent, FileTree.lookup?, FileTree.place?, usable_single.1, usable_single.2]
    rfl
  have made : FileTree.makeDirectories? [] "a" = some [(["a"], .directory)] := by
    rw [FileTree.makeDirectories?, usable_single.1, usable_single.2]
    rfl
  refine ⟨[(["a"], .directory)], ["a", "b"], ?_, ?_, rfl, by decide +kernel⟩
  · simp [prepare, parent, absent, made]
  · rw [FileTree.place?, names, usable]
    rfl

/-- A system id with quotes, a backslash and controls in it, and an empty filter. -/
def special : Settings :=
  ⟨⟨Toml.maxInteger, "say \"é\" \\ \x07\x7f", false⟩, .error, some ""⟩

def few : String := "# mine\n[logging]\nlevel = 'debug'\n[engine]\nmax_depth = 8\n"

def fewSections : Toml.Sections :=
  [("logging", [("level", .string "debug")]), ("engine", [("max_depth", .scalar (.integer 8))])]

theorem few_document : Document few fewSections := by
  have depth := Written.nothing.pairLine "max_depth" (by decide)
    (.whole (n := 8) (by decide))
  have engine := depth.headerLine "engine" (by decide)
  have name : ∀ c ∈ "debug".toList, Toml.isControl c = false ∧ c ≠ '\'' := by simp [Toml.isControl]
  have level := engine.pairLine "level" (by decide) (.string (.literal name))
  have logging := level.headerLine "logging" (by decide)
  have remark : Toml.Comment "# mine".toList := .inr ⟨" mine".toList, rfl, by simp [Toml.isControl]⟩
  have distinct : Toml.Distinct fewSections := ⟨by decide, by simp [fewSections]⟩
  exact ⟨distinct, _, logging.empty (.feed remark _), .inl rfl⟩

def fewChoices : Choices := ⟨some 8, none, none, some .debug, none⟩

theorem few_held : fewChoices.HeldBy .basic (Toml.sectionTable fewSections) :=
  ⟨_, _, .there rfl, .there rfl,
    { maxDepth := ⟨_, rfl, rfl⟩
      unknownLocation := rfl
      warnUnreleased := rfl
      level := ⟨_, rfl, LogLevel.ofName?_name .debug⟩
      filter := rfl }⟩

/-! ### Everything that is saved, and nothing that is not said -/

/-- Nothing is lost between saving and loading; and a file that holds only some of the settings
overlays the standard ones with these, whatever their order. -/
theorem load_saved_and_partial (library : Toml.Library) (faithful : library.Faithful) :
    (∀ (tree : FileTree) (path : String) (settings : Settings), Writable tree path →
      settings.engine.maxDepth ≤ Toml.maxInteger →
      ∃ after, save tree settings path library = .ok after ∧
        loadFile after path library = .ok settings) ∧
    (∀ (tree : FileTree) (path text : String) (entries : OrderedMap String Toml.Value)
      (choices : Choices), tree.readText? path = some text → library.parse? text = some entries →
      choices.HeldBy library entries →
      loadFile tree path library = .ok (choices.onto .standard)) ∧
    (∀ (tree : FileTree) (path text : String) (sections : Toml.Sections) (choices : Choices),
      tree.readText? path = some text → Document text sections →
      choices.HeldBy library (Toml.sectionTable sections) →
      loadFile tree path library = .ok (choices.onto .standard)) := by
  refine ⟨fun tree path settings writable small => ?_,
    fun tree path text entries choices there document held =>
      loadFile_heldBy faithful there document held,
    fun tree path text sections choices there document held =>
      loadFile_heldBy faithful there (faithful.parses document) held⟩
  obtain ⟨text, printed, -⟩ := faithful.prints (settings.record_fits small)
  obtain ⟨after, saved⟩ := save_ok_iff.mpr ⟨writable, text, printed⟩
  exact ⟨after, saved, loadFile_save faithful small saved⟩

theorem load_saved_and_partial_special :
    Toml.Library.basic.Faithful ∧
    (∃ after, save [] special "a/b" = .ok after ∧ loadFile after "a/b" = .ok special) ∧
    (∃ entries, Toml.readDocument? few = some entries ∧ fewChoices.HeldBy .basic entries ∧
      loadFile [(["a"], .file (some few))] "a" =
        .ok ⟨⟨8, "UNKNOWN_LOCATION", true⟩, .debug, none⟩) ∧
    Document few fewSections ∧
      loadFile [(["a"], .file (some few))] "a" =
        .ok ⟨⟨8, "UNKNOWN_LOCATION", true⟩, .debug, none⟩ := by
  obtain ⟨saved, held, written⟩ :=
    load_saved_and_partial .basic Toml.Library.basic_faithful
  have read := Toml.readDocument?_document few_document
  exact ⟨Toml.Library.basic_faithful, saved [] "a/b" special writable_nested (Nat.le_refl _),
    ⟨_, read, few_held, held _ "a" few _ fewChoices (readText?_single few) read few_held⟩,
    few_document, written _ "a" few _ fewChoices (readText?_single few) few_document few_held⟩

end Settings
end CommandChain
