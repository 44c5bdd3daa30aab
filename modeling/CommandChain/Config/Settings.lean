import CommandChain.Log

/-!
What can be configured, and what holds where nothing is.
-/
namespace CommandChain

structure EngineSettings where
  /-- The largest number of active frames. -/
  maxDepth : Nat
  /-- The system id of commands that do not tell where they are. -/
  unknownLocation : String
  /-- Whether to complain when a context goes away with components in it. -/
  warnUnreleased : Bool
  deriving DecidableEq, Repr

def EngineSettings.standard : EngineSettings := ⟨1024, "UNKNOWN_LOCATION", true⟩

instance : Inhabited EngineSettings := ⟨.standard⟩

structure LoggingSettings where
  level : LogLevel
  /-- Directives that take the place of the level. -/
  filter : Option String
  deriving DecidableEq, Repr

def LoggingSettings.standard : LoggingSettings := ⟨.info, none⟩

structure Settings where
  engine : EngineSettings
  logging : LoggingSettings
  deriving DecidableEq, Repr

def Settings.standard : Settings := ⟨.standard, .standard⟩

instance : Inhabited Settings := ⟨.standard⟩

end CommandChain
