import MultisigNative.Properties.Fidelity
import MultisigNative.System.Stack

/-!
Whoever acts with the signature of a multisig's address: it all goes back to a call that
a quorum of the owners has approved.
-/

namespace MultisigNative.Properties

open Solana
open State
open Instructions
open MultisigNative.System
open LocalRuntime

section Approval

variable {rt : Runtime} {c : Config rt} {w : World} {e : Execution rt}

end Approval

section LocalRuns

end LocalRuns

end MultisigNative.Properties
