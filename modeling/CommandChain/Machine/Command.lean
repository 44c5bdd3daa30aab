import CommandChain.QName
import CommandChain.OrderedMap

/-!
What a machine knows of a command: whether it is a filter, whether it is registered as a unit of its
own and so opens a scope, where it stands, and which prefixes it binds while it runs. Two commands
are the same when they have one identity, whatever else they share.
-/
namespace CommandChain

structure Locator where
  systemId : String
  line : Nat
  column : Nat
  deriving DecidableEq, Repr, Inhabited

namespace Locator

/-- The place of a command that does not tell its own. -/
def unknown (systemId : String) : Locator := ⟨systemId, 0, 0⟩

def text (locator : Locator) : String :=
  locator.systemId ++ ":" ++ toString locator.line ++ ":" ++ toString locator.column

end Locator

inductive CommandKind where
  /-- The frame goes away when the body ends. -/
  | plain
  /-- The frame is suspended until the post-processing. -/
  | filter
  deriving DecidableEq, Repr

def CommandKind.text : CommandKind → String
  | .plain => "Plain"
  | .filter => "Filter"

/-- The identity of a command as a unit that can be called by name. -/
structure Registration where
  systemId : String
  qname : QName
  deriving DecidableEq, Repr

structure Command where
  id : Nat
  name : String
  kind : CommandKind
  registration : Option Registration
  locator : Option Locator
  /-- None if the command says nothing about prefixes. -/
  mappings : Option (OrderedMap String String)
  deriving DecidableEq, Repr

namespace Command

def named (id : Nat) (name : String) : Command := ⟨id, name, .plain, none, none, none⟩

def bind (command : Command) (name uri : String) : Command :=
  { command with mappings := some (OrderedMap.insert (command.mappings.getD []) name uri) }

/-- Binds prefixes one after the other; a command that is given none still says nothing of them. -/
def bindAll (command : Command) (mappings : List (String × String)) : Command :=
  mappings.foldl (fun command (name, uri) => command.bind name uri) command

def isFilter (command : Command) : Bool := command.kind = .filter

/-- Whether the command opens a scope. -/
def isBoundary (command : Command) : Bool := command.registration.isSome

def same (a b : Command) : Bool := a.id = b.id

def text (command : Command) : String :=
  match command.registration with
  | some registration => command.name ++ " (" ++ registration.qname.text ++ ")"
  | none => command.name

end Command
end CommandChain
