import MultisigNative.Processor
import MultisigNative.System.Registry

/-!
The ledger together with the history of successful calls, and what one step can
do to them: another program or the cluster changes accounts, a handler runs,
`execute_transaction` starts, or it closes its transaction account at its end.
-/

namespace MultisigNative.System

open Solana
open State
open Instructions
open Processor

structure World where
  ledger : Ledger
  history : List Event

namespace World

/-- The occupants of all addresses. -/
def registry (w : World) : Registry := replay w.history

theorem registry_cons (w : World) (L : Ledger) (event : Event) :
    World.registry ⟨L, event :: w.history⟩ =
      event.apply w.history.length w.registry := rfl

theorem registry_of_ne {w : World} (L : Ledger) {event : Event} {k : Pubkey}
    (h : k ≠ event.subject) :
    World.registry ⟨L, event :: w.history⟩ k = w.registry k := by
  rw [registry_cons, Event.apply_of_ne h]

end World

/-- A running `execute_transaction` between two of its invocations.  It carries
the proof that its `validate` accepted the accounts; `birth` is the birth of the
proposal that was open at the transaction account then. -/
structure Execution (rt : Runtime) where
  accounts : List AccountInfo
  validated : ValidatedAccounts
  remaining : List TransactionInstructionData
  birth : Option Nat
  accepted : ∃ L, ExecuteTransaction.validate rt rt.programId accounts L =
    .ok validated L

/-- What a step of the system does to the world. -/
inductive Label (rt : Runtime)
  | idle
  | foreign (updates : List (Pubkey × Account))
  | call (instruction : MultisigInstruction) (accounts : List AccountInfo)
  | start (accounts : List AccountInfo)
  | close (execution : Execution rt)

/-- The step that a call of this program comes to. -/
def labelOf {rt : Runtime} (accounts : List AccountInfo) : MultisigInstruction → Label rt
  | .executeTransaction => .start accounts
  | instruction => .call instruction accounts

/-- Which changes of one account other programs and the cluster can make.  They
only credit this program's accounts, they hand it accounts with zero bytes only,
and an account without lamports may be purged.  The system program's own
account stays. -/
def foreignAllowed (rt : Runtime) (key : Pubkey) (old new : Account) : Bool :=
  key != systemProgram &&
    if old.owner = rt.programId then
      (new.owner == rt.programId && new.data == old.data &&
          decide (old.lamports ≤ new.lamports)) ||
        (old.lamports == 0 && new == Account.unused)
    else new.owner != rt.programId || new.data.all (· == 0)

/-- Apply the updates in order, each allowed where it is made. -/
def applyForeign (rt : Runtime) : Ledger → List (Pubkey × Account) → Option Ledger
  | L, [] => some L
  | L, (key, new) :: updates =>
      if foreignAllowed rt key (L key) new then
        applyForeign rt (Function.update L key new) updates
      else none

/-- The runtime's check of what a program has done to one account: a change
needs the account to be writable, and more than a credit needs it to belong to
the program. -/
def changeAllowed (rt : Runtime) (isWritable : Bool) (old new : Account) : Bool :=
  new == old || (isWritable && (old.owner == rt.programId ||
    (new.owner == old.owner && new.data == old.data &&
      decide (old.lamports ≤ new.lamports))))

def isWritableIn (accounts : List AccountInfo) (key : Pubkey) : Bool :=
  accounts.any fun info => info.key == key && info.isWritable

def effectAllowed (rt : Runtime) (accounts : List AccountInfo) (before after : Ledger) :
    Bool :=
  accounts.all fun info =>
    changeAllowed rt (isWritableIn accounts info.key) (before info.key)
      (after info.key)

/-- `create_multisig` and `propose_transaction` write only to the account that
the system program has just given to this program, so that the runtime's check
has nothing to refuse; their payer is debited by the system program. -/
def createsAccount : MultisigInstruction → Bool
  | .createMultisig _ => true
  | .proposeTransaction _ => true
  | _ => false

def signersOf (accounts : List AccountInfo) : List Pubkey :=
  (accounts.filter fun info => info.isSigner).map fun info => info.key

/-- What the history keeps of a successful call. -/
def eventsOf : MultisigInstruction → List AccountInfo → List Event
  | .createMultisig data, m :: _ => [.multisigCreated m.key data.owners data.nonce]
  | .setOwners data, m :: _ => [.ownersChanged m.key data.owners]
  | .changeThreshold _, m :: _ => [.thresholdChanged m.key]
  | .setOwnersAndChangeThreshold data, m :: _ => [.ownersChanged m.key data.owners]
  | .proposeTransaction data, m :: t :: rest =>
      [.proposed m.key t.key (signersOf (m :: t :: rest)) data.instructions]
  | .approveTransaction, m :: t :: rest =>
      [.approved m.key t.key (signersOf (m :: t :: rest))]
  | .cancelTransaction, m :: t :: _ => [.cancelled m.key t.key]
  | _, _ => []

/-- The handlers that make no invocation of their own choosing. -/
def runHandler (rt : Runtime) (instruction : MultisigInstruction)
    (accounts : List AccountInfo) : Handler Unit :=
  callHandler rt (fun _ => throw (.error .invalidInstructionData)) rt.programId accounts
    instruction

theorem runHandler_createMultisig (rt : Runtime) (data : CreateMultisigInstruction)
    (accounts : List AccountInfo) :
    runHandler rt (.createMultisig data) accounts =
      createMultisig rt rt.programId accounts data := rfl

theorem runHandler_proposeTransaction (rt : Runtime)
    (data : ProposeTransactionInstruction) (accounts : List AccountInfo) :
    runHandler rt (.proposeTransaction data) accounts =
      proposeTransaction rt rt.programId accounts data := rfl

theorem runHandler_approveTransaction (rt : Runtime) (accounts : List AccountInfo) :
    runHandler rt .approveTransaction accounts =
      approveTransaction rt.programId accounts := rfl

def perform (rt : Runtime) (w : World) : Label rt → Option World
  | .idle => some w
  | .foreign updates =>
      (applyForeign rt w.ledger updates).map fun L => { w with ledger := L }
  | .call .executeTransaction _ => none
  | .call instruction accounts =>
      match runHandler rt instruction accounts w.ledger with
      | .ok _ L =>
          if createsAccount instruction || effectAllowed rt accounts w.ledger L then
            some ⟨L, eventsOf instruction accounts ++ w.history⟩
          else none
      | .error _ _ => none
  | .start accounts =>
      match ExecuteTransaction.validate rt rt.programId accounts w.ledger with
      | .ok _ _ => some w
      | .error _ _ => none
  | .close execution =>
      let validated := execution.validated
      match closeAccount validated.transactionAccount validated.refundee w.ledger with
      | .ok _ L =>
          if effectAllowed rt [validated.transactionAccount, validated.refundee]
              w.ledger L then
            some ⟨L, .executed validated.multisigAccount.key
              validated.transactionAccount.key execution.birth :: w.history⟩
          else none
      | .error _ _ => none

/-- The account an instruction reads as a multisig. -/
def multisigArg : MultisigInstruction → List AccountInfo → Option Pubkey
  | .createMultisig _, _ => none
  | _, m :: _ => some m.key
  | _, [] => none

/-- The account an instruction reads as a transaction. -/
def transactionArg : MultisigInstruction → List AccountInfo → Option Pubkey
  | .approveTransaction, _ :: t :: _ => some t.key
  | .cancelTransaction, _ :: t :: _ => some t.key
  | .executeTransaction, _ :: _ :: t :: _ => some t.key
  | _, _ => none

/-- The accounts that a step reads as a multisig and as a transaction. -/
def labelMultisig {rt : Runtime} : Label rt → Option Pubkey
  | .call instruction accounts => multisigArg instruction accounts
  | .start accounts => multisigArg .executeTransaction accounts
  | _ => none

def labelTransaction {rt : Runtime} : Label rt → Option Pubkey
  | .call instruction accounts => transactionArg instruction accounts
  | .start accounts => transactionArg .executeTransaction accounts
  | _ => none

/-- No account created by `propose_transaction` is taken as a multisig and none
created by `create_multisig` as a transaction. -/
def argsInRole (r : Registry) (instruction : MultisigInstruction)
    (accounts : List AccountInfo) : Bool :=
  (multisigArg instruction accounts).all (fun m => !(r m).isProposal) &&
    (transactionArg instruction accounts).all fun t => !(r t).isMultisig

/-- Every account that a call takes is in the role it was created in. -/
def Label.inRole {rt : Runtime} (r : Registry) : Label rt → Bool
  | .call instruction accounts => argsInRole r instruction accounts
  | .start accounts => argsInRole r .executeTransaction accounts
  | _ => true

/-- The account that `execute_transaction` closes at its end is no multisig.  It was a
proposal at the start, but the calls made since may have closed that and created a
multisig at its address. -/
def Label.sparesMultisigs {rt : Runtime} (r : Registry) : Label rt → Bool
  | .close execution => !(r execution.validated.transactionAccount.key).isMultisig
  | _ => true

/-- Both: only then does a multisig stay one. -/
def Label.keepsRoles {rt : Runtime} (r : Registry) (label : Label rt) : Bool :=
  label.inRole r && label.sparesMultisigs r

section Roles

variable {rt : Runtime} {r : Registry}

@[simp] theorem Label.keepsRoles_call (instruction : MultisigInstruction)
    (accounts : List AccountInfo) :
    (Label.call instruction accounts : Label rt).keepsRoles r =
      argsInRole r instruction accounts :=
  Bool.and_true _

@[simp] theorem Label.keepsRoles_start (accounts : List AccountInfo) :
    (Label.start accounts : Label rt).keepsRoles r =
      argsInRole r .executeTransaction accounts :=
  Bool.and_true _

@[simp] theorem Label.keepsRoles_close (e : Execution rt) :
    (Label.close e).keepsRoles r =
      !(r e.validated.transactionAccount.key).isMultisig :=
  Bool.true_and _

theorem Label.inRole_of_keepsRoles {label : Label rt}
    (h : label.keepsRoles r = true) : label.inRole r = true :=
  (Bool.and_eq_true_iff.mp h).1

end Roles

end MultisigNative.System
