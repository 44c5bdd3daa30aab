/-!
What the library tells about its own work, for diagnostics.
-/
namespace CommandChain

inductive LogLevel where
  | trace
  | debug
  | info
  | warn
  | error
  deriving DecidableEq, Repr, Inhabited

namespace LogLevel

def all : List LogLevel := [.trace, .debug, .info, .warn, .error]

def name : LogLevel → String
  | .trace => "trace"
  | .debug => "debug"
  | .info => "info"
  | .warn => "warn"
  | .error => "error"

def rank : LogLevel → Nat
  | .trace => 0
  | .debug => 1
  | .info => 2
  | .warn => 3
  | .error => 4

def ofName? (text : String) : Option LogLevel := all.find? (·.name = text)

theorem ofName?_name (level : LogLevel) : ofName? level.name = some level := by
  cases level <;> decide

end LogLevel

structure LogEntry where
  level : LogLevel
  text : String
  deriving DecidableEq, Repr

namespace LogEntry

def line (entry : LogEntry) : String := entry.level.name.toUpper ++ " " ++ entry.text

def reaches (entry : LogEntry) (level : LogLevel) : Bool := level.rank ≤ entry.level.rank

end LogEntry

end CommandChain
