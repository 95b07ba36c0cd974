import MultisigNative.Properties.Termination

/-!
The machine runs the code: each call of this program that it accepts is a run of
`process_instruction`, over as many steps as its execution takes.
-/

namespace MultisigNative.Properties

open Library.Borsh
open Library.CallLog
open Library.Transition
open Solana
open State
open Instructions
open Processor
open MultisigNative.System
open LocalRuntime

section Entering

variable {rt : Runtime} {c : Config rt} {action : Action} {accounts : List AccountInfo}
  {data : Bytes} {label : Label rt} {stack : List (Frame rt)}

end Entering

section LocalRuns

end LocalRuns

end MultisigNative.Properties
