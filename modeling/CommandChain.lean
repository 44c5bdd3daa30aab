import CommandChain.Config.Storage
import CommandChain.Value.OfJson
import CommandChain.Workspace
import CommandChain.Proofs.Machine.Call
import CommandChain.Proofs.Machine.Effect
import CommandChain.Proofs.ExactlyOnce
import CommandChain.Proofs.FailureReport
import CommandChain.Proofs.Cleanup
import CommandChain.Proofs.Machine.Program
import CommandChain.Proofs.Machine.Restoration
import CommandChain.Proofs.Nesting
import CommandChain.Proofs.Resumption
import CommandChain.Proofs.Ownership
import CommandChain.Proofs.Rejection
import CommandChain.Proofs.Unwinding
import CommandChain.Proofs.StraightNest
import CommandChain.Proofs.CallDepth
import CommandChain.Proofs.ComponentScopes
import CommandChain.Proofs.Declarations
import CommandChain.Proofs.Machine.Marks
import CommandChain.Proofs.ReleaseOrder
import CommandChain.Proofs.RequestContext
import CommandChain.Proofs.Selector.Completeness
import CommandChain.Proofs.Selector.Soundness
import CommandChain.Proofs.SelectorGrammar
import CommandChain.Proofs.SharedOwner
import CommandChain.Proofs.TraceMirror
import CommandChain.Proofs.Machine.Tape
import CommandChain.Proofs.Cycles
import CommandChain.Proofs.InjectedValues
import CommandChain.Proofs.NameText
import CommandChain.Proofs.Overriding
import CommandChain.Proofs.VisibleBindings
import CommandChain.Proofs.Toml.Sections
import CommandChain.Proofs.WrittenFiles
import CommandChain.Proofs.SavedSettings
import CommandChain.Proofs.GlobalFrame
import CommandChain.Proofs.SelectorScan
