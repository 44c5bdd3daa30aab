import CommandChain.Machine.Command

/-!
The trace of a run: one entry for each unit that was entered, with the place of the command that
runs in it at the moment.
-/
namespace CommandChain

structure TraceElement where
  systemId : Option String
  qname : Option QName
  locator : Option Locator
  deriving DecidableEq, Repr

namespace TraceElement

/-- The place, if it is known, and else the unit. -/
def text (element : TraceElement) : String :=
  match element.locator with
  | some locator => locator.text
  | none =>
    element.systemId.getD "null" ++ ":" ++ (element.qname.map QName.text).getD "null"

end TraceElement

structure TraceEntry where
  id : Nat
  systemId : String
  qname : QName
  locator : Option Locator
  deriving DecidableEq, Repr

namespace TraceEntry

def ofRegistration (id : Nat) (registration : Registration) : TraceEntry :=
  ⟨id, registration.systemId, registration.qname, none⟩

def snapshot (entry : TraceEntry) : TraceElement :=
  ⟨some entry.systemId, some entry.qname, entry.locator⟩

end TraceEntry
end CommandChain
