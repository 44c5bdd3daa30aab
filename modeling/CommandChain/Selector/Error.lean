/-!
Why a selector has no value.
-/
namespace CommandChain

inductive SelectorError where
  | malformed (selector : String) (offset : Nat) (reason : String)
  | undefinedVariable (name : String)
  /-- The kind is that of the value in which the step was looked for. -/
  | noSuchStep (step : String) (kind : String)
  | undefinedFunction (name : String)
  | arity (function : String) (expected found : Nat)
  | badArgument (function : String) (reason : String)
  | nullSubject
  | resolution (reason : String)
  deriving DecidableEq, Repr

namespace SelectorError

def code : SelectorError → String
  | .malformed _ _ _ => "Syntax"
  | .undefinedVariable _ => "UndefinedVariable"
  | .noSuchStep _ _ => "NoSuchStep"
  | .undefinedFunction _ => "UndefinedFunction"
  | .arity _ _ _ => "Arity"
  | .badArgument _ _ => "BadArgument"
  | .nullSubject => "NullSubject"
  | .resolution _ => "Resolution"

def message : SelectorError → String
  | .malformed selector offset reason =>
    "syntax error in selector '" ++ selector ++ "' at offset " ++ toString offset ++ ": " ++ reason
  | .undefinedVariable name => "undefined variable '" ++ name ++ "'"
  | .noSuchStep step kind => "no value for '" ++ step ++ "' in " ++ kind
  | .undefinedFunction name => "undefined function '" ++ name ++ "'"
  | .arity function expected found =>
    "function '" ++ function ++ "' expects " ++ toString expected ++ " argument(s), found " ++
      toString found
  | .badArgument function reason => "bad argument to '" ++ function ++ "': " ++ reason
  | .nullSubject => "cannot create a relative context for a non-existent node"
  | .resolution reason => "variable resolution failed: " ++ reason

end SelectorError
end CommandChain
