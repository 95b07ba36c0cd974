import MultisigNative.Library.Borsh
import MultisigNative.Library.StateError
import MultisigNative.Library.EventLog
import MultisigNative.Library.Transition
import MultisigNative.Library.Roster
import MultisigNative.Solana.Ledger
import MultisigNative.Solana.Runtime
import MultisigNative.Errors
import MultisigNative.State.Multisig
import MultisigNative.State.Transaction
import MultisigNative.Instructions.Common
import MultisigNative.Instructions.CreateMultisig
import MultisigNative.Instructions.Configuration
import MultisigNative.Instructions.ProposeTransaction
import MultisigNative.Instructions.ApproveTransaction
import MultisigNative.Instructions.ExecuteTransaction
import MultisigNative.Instructions.CancelTransaction
import MultisigNative.Processor
import MultisigNative.Instructions.Capacity
import MultisigNative.System.Registry
import MultisigNative.System.World
import MultisigNative.System.Effect
import MultisigNative.System.Occupancy
import MultisigNative.System.Holdings
import MultisigNative.System.Approvals
import MultisigNative.System.Machine
import MultisigNative.Library.Authority
import MultisigNative.System.Authority
import MultisigNative.Solana.LocalRuntime
import MultisigNative.Properties.Quorum
import MultisigNative.Properties.Reconfiguration
import MultisigNative.Properties.Staleness
import MultisigNative.Properties.Separation
import MultisigNative.Properties.Threshold
import MultisigNative.Properties.Capacity
import MultisigNative.System.Lifetimes
import MultisigNative.Properties.AtMostOnce
import MultisigNative.Library.CallLog
import MultisigNative.Properties.Fidelity
import MultisigNative.Properties.Liveness
import MultisigNative.Properties.Uninitialised
import MultisigNative.System.Refinement
import MultisigNative.Library.Flags
import MultisigNative.Properties.Convergence
import MultisigNative.Client.Instructions
import MultisigNative.Properties.WireFormat
import MultisigNative.Properties.Clamp
import MultisigNative.Properties.ThresholdCheck
import MultisigNative.Properties.Combination
import MultisigNative.Properties.Atomicity
import MultisigNative.Properties.IndexBounds
import MultisigNative.Properties.Counting
import MultisigNative.Properties.Cancellation
import MultisigNative.Properties.Epochs
import MultisigNative.Instructions.OverflowChecks
import MultisigNative.Properties.Overflow
import MultisigNative.Properties.Encoding
import MultisigNative.Library.Voting
import MultisigNative.Specification.Rendering
import MultisigNative.Specification.Refinement
import MultisigNative.Specification.Simulation
import MultisigNative.Properties.Specification
import MultisigNative.Properties.Coalition
import MultisigNative.Properties.Locality
import MultisigNative.Client.Dsl
import MultisigNative.System.Message
import MultisigNative.Properties.Submission
import MultisigNative.Properties.Rent
import MultisigNative.Properties.OneTransaction
import MultisigNative.System.Stack
import MultisigNative.Properties.Custody
import MultisigNative.Properties.Annotations
import MultisigNative.Specification.Realization
import MultisigNative.Properties.Exactness
import MultisigNative.Properties.Termination
import MultisigNative.Properties.Adequacy
import MultisigNative.System.Footprint
import MultisigNative.Library.Schedule
import MultisigNative.Properties.Scheduling
