import CommandChain.Config.Settings
import CommandChain.Toml.Library

/-!
Settings as documents. A document has a section `engine` and a section `logging`; what they do not
mention keeps its standard value, and what they mention beside it is ignored.
-/
namespace CommandChain

variable (library : Toml.Library)

namespace EngineSettings

def ofToml? (section? : Option Toml.Value) : Option EngineSettings :=
  Toml.readOr section? (fun value => do
    let field ← library.fields? value
    let maxDepth ← Toml.readOr (field "max_depth" 0) library.natural? standard.maxDepth
    let unknownLocation ←
      Toml.readOr (field "unknown_location" 1) library.string? standard.unknownLocation
    let warnUnreleased ←
      Toml.readOr (field "warn_unreleased" 2) library.truth? standard.warnUnreleased
    some ⟨maxDepth, unknownLocation, warnUnreleased⟩) standard

def fields (settings : EngineSettings) : List (String × Option Toml.Value) :=
  [("max_depth", some (.scalar (.integer settings.maxDepth))),
    ("unknown_location", some (.string settings.unknownLocation)),
    ("warn_unreleased", some (.scalar (.boolean settings.warnUnreleased)))]

end EngineSettings

namespace LoggingSettings

def ofToml? (section? : Option Toml.Value) : Option LoggingSettings :=
  Toml.readOr section? (fun value => do
    let field ← library.fields? value
    let level ← Toml.readOr (field "level" 0)
      (fun value => (library.alternative? value).bind LogLevel.ofName?) standard.level
    let filter ← Toml.readOr (field "filter" 1)
      (fun value => (library.string? value).map some) standard.filter
    some ⟨level, filter⟩) standard

def fields (settings : LoggingSettings) : List (String × Option Toml.Value) :=
  [("level", some (.string settings.level.name)), ("filter", settings.filter.map .string)]

end LoggingSettings

namespace Settings

def ofToml? (value : Toml.Value) : Option Settings := do
  let field ← library.fields? value
  let engine ← EngineSettings.ofToml? library (field "engine" 0)
  let logging ← LoggingSettings.ofToml? library (field "logging" 1)
  some ⟨engine, logging⟩

/-- The settings that a document describes, if it is one and its values are of the right kinds. -/
def read? (text : String) : Option Settings :=
  (library.parse? text).bind fun entries => ofToml? library (.table entries)

def record (settings : Settings) : Toml.Record :=
  [("engine", settings.engine.fields), ("logging", settings.logging.fields)]

/-- The document of the settings; none if a number in it is too large for one. -/
def print? (settings : Settings) : Option String := library.print? settings.record

end Settings
end CommandChain
