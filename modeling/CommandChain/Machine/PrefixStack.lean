import CommandChain.Context.Node
import CommandChain.Machine.Error

/-!
The prefixes that running commands bind. A command that binds prefixes does so on its context while
it runs. Entered again on the same context before it ended, it only counts up; what its bindings
replaced comes back when the count is spent.
-/
namespace CommandChain

structure PrefixFrame (I H : Type) where
  context : Context I H
  command : Command
  /-- What the bindings replaced. -/
  replaced : Snapshot
  reentries : Nat

def PrefixFrame.isFor {I H : Type} (frame : PrefixFrame I H) (ctx : Context I H)
    (command : Command) : Bool :=
  frame.context.same ctx && frame.command.same command

/-- The innermost frame first. -/
abbrev PrefixStack (I H : Type) := List (PrefixFrame I H)

namespace PrefixStack

variable {I H : Type}

def define (stack : PrefixStack I H) (ctx : Context I H) (command : Command)
    (mappings : OrderedMap String String) (w : World I H) : PrefixStack I H × World I H :=
  let entered : PrefixStack I H × World I H :=
    let (replaced, w) := w.overrideBindings ctx mappings
    (⟨ctx, command, replaced, 0⟩ :: stack, w.note .debug
      ("defined " ++ toString mappings.length ++ " prefix mapping(s) for '" ++ command.name ++ "'"))
  match stack with
  | top :: rest =>
    if top.isFor ctx command then ({ top with reentries := top.reentries + 1 } :: rest, w)
    else entered
  | [] => entered

/-- Undoes the last `define`, which must have been for the same context and command. -/
def undefine (stack : PrefixStack I H) (ctx : Context I H) (command : Command) (w : World I H) :
    Except ExecutionError (PrefixStack I H × World I H) :=
  match stack with
  | [] => .error (.emptyStack .prefixes)
  | top :: rest =>
    if top.isFor ctx command then
      match top.reentries with
      | n + 1 => .ok ({ top with reentries := n } :: rest, w)
      | 0 => .ok (rest, w.restoreBindings top.context top.replaced)
    else .error (.prefixMismatch command.name)

/-- How often the innermost frame was entered again. -/
def reentries (stack : PrefixStack I H) : Nat :=
  match stack with
  | top :: _ => top.reentries
  | [] => 0

end PrefixStack
end CommandChain
