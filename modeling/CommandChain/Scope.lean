/-!
Scopes are the nesting levels that bound the life of variables and components. They are totally
ordered from the outermost level inward.
-/
namespace CommandChain

inductive Scope where
  /-- The caller's request, outside of any run. -/
  | request
  /-- One run of the machine. -/
  | execution
  /-- One registered command unit. -/
  | chain
  deriving DecidableEq, Repr, Inhabited

namespace Scope

def all : List Scope := [.request, .execution, .chain]

/-- The scope one boundary below. Chains nested in chains stay at the innermost level. -/
def child : Scope → Scope
  | .request => .execution
  | .execution => .chain
  | .chain => .chain

def name : Scope → String
  | .request => "request"
  | .execution => "execution"
  | .chain => "chain"

def debugText : Scope → String
  | .request => "Request"
  | .execution => "Execution"
  | .chain => "Chain"

/-- How far inward a scope lies; also its place in `all`. -/
def depth : Scope → Nat
  | .request => 0
  | .execution => 1
  | .chain => 2

def compare (a b : Scope) : Ordering := Ord.compare a.depth b.depth

def ofName? (text : String) : Option Scope := all.find? (·.name = text)

theorem ofName?_name (s : Scope) : ofName? s.name = some s := by
  cases s <;> decide

end Scope
end CommandChain
