/-!
What code outside the library reports when it fails: a message, and the messages of what caused it,
outermost first.
-/
namespace CommandChain

structure Failure where
  message : String
  causes : List String
  deriving DecidableEq, Repr, Inhabited

namespace Failure

def ofMessage (message : String) : Failure := ⟨message, []⟩

def ofMessages (messages : List String) : Failure := ⟨messages.headD "", messages.drop 1⟩

def chainText (message : String) (causes : List String) : String :=
  ": ".intercalate (message :: causes)

end Failure
end CommandChain
