import CommandChain.Value

/-!
Selectors as trees. A selector that cannot be read to its end keeps what was read before, with a
fault in the place where reading stopped: evaluation meets the fault only after it has evaluated
everything to the left of it, so an error there comes first.
-/
namespace CommandChain.Selector

/-- Where reading stopped, in bytes from the start, and why. -/
structure Fault where
  offset : Nat
  reason : String
  deriving DecidableEq, Repr

structure Steps where
  names : List String
  fault : Option Fault
  deriving DecidableEq, Repr

mutual

inductive Expr where
  | subject (steps : Steps)
  | var (name : String) (steps : Steps)
  | literal (value : Value)
  | call (name : String) (args : Args)
  | broken (fault : Fault)

/-- The arguments of a call, up to the closing parenthesis or to a fault. -/
inductive Args where
  | close
  | item (arg : Expr) (rest : Args)
  | broken (fault : Fault)

end

/-- A whole selector: an expression, and a fault if something other than blanks follows it. -/
structure Reading where
  expr : Expr
  trailing : Option Fault

end CommandChain.Selector
