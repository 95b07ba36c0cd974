import MultisigNative.Solana.LocalRuntime
import MultisigNative.System.Machine

/-!
An accepted execution has the approval of as many current owners as the
threshold asks for.
-/

namespace MultisigNative.Properties

open Library.StateError
open Library.Transition
open Solana
open State
open Instructions
open Processor
open MultisigNative.System
open LocalRuntime

/-- As long as no execution closes a multisig at its end: whenever `validate` accepts a
multisig and a transaction account, at least `threshold` distinct current owners each
signed the proposal now at that account or one of its approvals. -/
theorem quorum_sound {rt : Runtime} {c : Config rt} (h : RolesKeptConfig rt c)
    {accounts : List AccountInfo} {validated : ValidatedAccounts} {L : Ledger}
    (hrole : argsInRole c.world.registry .executeTransaction accounts = true)
    (hvalidate : ExecuteTransaction.validate rt rt.programId accounts c.world.ledger =
      .ok validated L)
    (hfew : ownerChanges validated.multisigAccount.key c.world.history < 2 ^ 32) :
    ∃ multisig, Multisig.checkedDeserialize
        (c.world.ledger validated.multisigAccount.key).data = .ok multisig ∧
      ∃ S : List Pubkey, S.Nodup ∧ multisig.threshold.toNat ≤ S.length ∧
        (∀ key ∈ S, key ∈ multisig.owners) ∧
        ∀ key ∈ S, key ∈ supporters validated.transactionAccount.key c.world.history := by
  have hrepresents := represents_of_config h
  obtain ⟨executor, rest, -, hvalid, -⟩ :=
    ExecuteTransaction.validate_eq_ok_iff.mp hvalidate
  exact ⟨validated.multisig, hvalid.multisig_decodes,
    hrepresents.quorum hrole hvalidate hfew⟩

section LocalRuns

/-- Between two transactions of a local cluster that has just started. -/
def localStart (funded : List Pubkey) : Config localRuntime :=
  ⟨⟨genesis funded, []⟩, [], ⟨genesis funded, []⟩⟩

theorem localStart_initial (funded : List Pubkey) : (localStart funded).Initial := by
  have hforeign : ∀ k, (genesis funded k).owner ≠ localRuntime.programId := by
    intro k
    unfold genesis
    split_ifs <;> decide
  refine ⟨rfl, rfl, rfl, ?_, hforeign systemProgram, show keyOf 255 ≠ systemProgram by decide⟩
  intro k howner
  exact absurd howner (hforeign k)

/-- Perform actions on a local cluster as long as they pass a test. -/
def anyRun (funded : List Pubkey) (ok : Config localRuntime → Action → Bool)
    (actions : List Action) : Option (Config localRuntime) :=
  Library.Transition.perform step ok (localStart funded) actions

/-- Perform actions on a local cluster that keep accounts in their roles. -/
def localRun (funded : List Pubkey) (actions : List Action) :
    Option (Config localRuntime) :=
  anyRun funded keepsRoles actions

theorem rolesKept_of_localRun {funded : List Pubkey} {actions : List Action}
    {c : Config localRuntime} (h : localRun funded actions = some c) :
    RolesKeptConfig localRuntime c :=
  reachable_of_perform (fun _ _ h => h) (.init (localStart_initial funded)) h

/-- A call of this program in a transaction. -/
def localCall (accounts : List AccountInfo) (instruction : MultisigInstruction) : Action :=
  .call localRuntime.programId accounts (MultisigInstruction.format.encode instruction)

/-- The address that signs for the multisig at key 20, of nonce 5. -/
def samplePda : Pubkey := ⟨(keyOf 20).bytes.take 30 ++ [pdaMark, 5], rfl⟩

theorem samplePda_created : localRuntime.createProgramAddress [(keyOf 20).bytes, [5]]
    localRuntime.programId = some samplePda := by decide

/-- A multisig at key 20 of the owners 11, 12 and 13, two of whom have to agree;
what 11 proposes at key 30 is approved by 12. -/
def sampleActions (instructions : List TransactionInstructionData) : List Action :=
  [localCall [signer (keyOf 20), readonly samplePda, signer (keyOf 11),
      readonly systemProgram] (.createMultisig ⟨[keyOf 11, keyOf 12, keyOf 13], 2, 5⟩),
    localCall [readonly (keyOf 20), signer (keyOf 30), signer (keyOf 11),
      signer (keyOf 11), readonly systemProgram] (.proposeTransaction ⟨instructions⟩),
    localCall [readonly (keyOf 20), writable (keyOf 30), signer (keyOf 12)]
      .approveTransaction,
    .commit]

def sampleConfig : Config localRuntime :=
  (localRun [keyOf 11] (sampleActions [⟨keyOf 99, [], [1, 2, 3]⟩])).get (by decide +kernel)

theorem sampleConfig_rolesKept : RolesKeptConfig localRuntime sampleConfig :=
  rolesKept_of_localRun (Option.some_get _).symm

/-- The accounts with which 13 executes the sample proposal. -/
def sampleExecuteAccounts : List AccountInfo :=
  [writable (keyOf 20), readonly samplePda, writable (keyOf 30), writable (keyOf 11),
    signer (keyOf 13)]

theorem sample_validate : ∃ validated L, ExecuteTransaction.validate localRuntime
    localRuntime.programId sampleExecuteAccounts sampleConfig.world.ledger =
      .ok validated L :=
  succeeds_eq_true_iff.mp (by decide +kernel)

theorem quorum_sound_sample : ∃ validated L, ExecuteTransaction.validate localRuntime
    localRuntime.programId sampleExecuteAccounts sampleConfig.world.ledger =
      .ok validated L ∧
    ∃ multisig, Multisig.checkedDeserialize
        (sampleConfig.world.ledger validated.multisigAccount.key).data = .ok multisig ∧
      ∃ S : List Pubkey, S.Nodup ∧ multisig.threshold.toNat ≤ S.length ∧
        (∀ key ∈ S, key ∈ multisig.owners) ∧
        ∀ key ∈ S, key ∈ supporters validated.transactionAccount.key
          sampleConfig.world.history := by
  rcases sample_validate with ⟨validated, L, hvalidate⟩
  refine ⟨validated, L, hvalidate,
    quorum_sound sampleConfig_rolesKept (by decide +kernel) hvalidate ?_⟩
  exact Nat.lt_of_le_of_lt List.countP_le_length (by decide +kernel)

/-- Perform actions on a local cluster, the calls with each account in its role. -/
def inRoleRun (funded : List Pubkey) (actions : List Action) :
    Option (Config localRuntime) :=
  anyRun funded takenInRole actions

theorem inRole_of_inRoleRun {funded : List Pubkey} {actions : List Action}
    {c : Config localRuntime} (h : inRoleRun funded actions = some c) :
    InRoleConfig localRuntime c :=
  reachable_of_perform (fun _ _ h => h) (.init (localStart_initial funded)) h

/-- A stored instruction of this program with the metas of these accounts. -/
def storedCall (accounts : List AccountInfo) (instruction : MultisigInstruction) :
    TransactionInstructionData where
  programId := localRuntime.programId
  accounts := accounts.map fun info => ⟨info.key, info.isSigner, info.isWritable⟩
  data := MultisigInstruction.format.encode instruction

/-- An instruction for another program. -/
def storedNote : TransactionInstructionData := ⟨keyOf 99, [], []⟩

/-- The address that signs for a multisig at key 30, of nonce 5. -/
def interimPda : Pubkey := ⟨(keyOf 30).bytes.take 30 ++ [pdaMark, 5], rfl⟩

/-- With these accounts a multisig is created at key 30. -/
def interimCreation : List AccountInfo :=
  [signer (keyOf 30), readonly interimPda, signer (keyOf 11), readonly systemProgram]

/-- With these accounts 11 proposes something for it. -/
def interimProposal (t : Pubkey) : List AccountInfo :=
  [readonly (keyOf 30), signer t, signer (keyOf 11), signer (keyOf 11),
    readonly systemProgram]

/-- A proposal at key 30 that makes room for a multisig of 11 and 14.  These approve a
note at 31, then 11 becomes the only owner and proposes another note at 33. -/
def interimCalls : List TransactionInstructionData :=
  [storedCall [readonly (keyOf 20), writable (keyOf 30), writable (keyOf 11),
      signer (keyOf 11)] .cancelTransaction,
    storedCall interimCreation (.createMultisig ⟨[keyOf 11, keyOf 14], 1, 5⟩),
    storedCall (interimProposal (keyOf 31)) (.proposeTransaction ⟨[storedNote]⟩),
    storedCall [readonly (keyOf 30), writable (keyOf 31), signer (keyOf 14)]
      .approveTransaction,
    storedCall (interimProposal (keyOf 32)) (.proposeTransaction
      ⟨[storedCall [writable (keyOf 30), ⟨interimPda, true, false⟩]
        (.setOwners ⟨[keyOf 11]⟩)]⟩),
    storedCall [writable (keyOf 30), readonly interimPda, writable (keyOf 32),
      writable (keyOf 11), signer (keyOf 11)] .executeTransaction,
    storedCall (interimProposal (keyOf 33)) (.proposeTransaction ⟨[storedNote]⟩)]

/-- The multisig at key 20, of 11 alone, executes this proposal up to its last call. -/
def interimActions : List Action :=
  [localCall [signer (keyOf 20), readonly samplePda, signer (keyOf 11),
      readonly systemProgram] (.createMultisig ⟨[keyOf 11], 1, 5⟩),
    localCall [readonly (keyOf 20), signer (keyOf 30), signer (keyOf 11),
      signer (keyOf 11), readonly systemProgram] (.proposeTransaction ⟨interimCalls⟩),
    .commit,
    localCall [readonly (keyOf 20), readonly samplePda, signer (keyOf 30),
      signer (keyOf 11), signer (keyOf 11), signer (keyOf 14), signer (keyOf 31),
      signer (keyOf 32), signer (keyOf 33), readonly interimPda, readonly systemProgram,
      readonly localRuntime.programId] .executeTransaction,
    .invoke, .invoke, .invoke, .invoke, .invoke,
    -- the multisig at 30 changes its owners
    .invoke, .invoke, .finish,
    .invoke]

def interimSample : Config localRuntime :=
  (inRoleRun [keyOf 11] interimActions).get (by decide +kernel)

/-- The end of the execution destroys the multisig at key 30, and another one of 11, 12
and 13 is created there. -/
def renewedSample : Config localRuntime :=
  (inRoleRun [keyOf 11] (interimActions ++ [.finish, .commit,
    localCall interimCreation (.createMultisig ⟨[keyOf 11, keyOf 12, keyOf 13], 2, 5⟩),
    .commit])).get (by decide +kernel)

theorem interimSample_inRole : InRoleConfig localRuntime interimSample :=
  inRole_of_inRoleRun (Option.some_get _).symm

theorem renewedSample_inRole : InRoleConfig localRuntime renewedSample :=
  inRole_of_inRoleRun (Option.some_get _).symm

theorem renewedSample_few (m : Pubkey) :
    ownerChanges m renewedSample.world.history < 2 ^ 32 :=
  Nat.lt_of_le_of_lt List.countP_le_length (by decide +kernel)

/-- What is at key 30 then. -/
def renewedMultisig : Multisig := ⟨[keyOf 11, keyOf 12, keyOf 13], 2, 5, 0, []⟩

theorem renewedSample_multisig : Multisig.checkedDeserialize
    (renewedSample.world.ledger (keyOf 30)).data = .ok renewedMultisig := by
  decide +kernel

/-- With these accounts 11 executes the note at 31 for the new multisig. -/
def renewedExecution : List AccountInfo :=
  [readonly (keyOf 30), readonly interimPda, writable (keyOf 31), writable (keyOf 11),
    signer (keyOf 11)]

/-- And with these accounts one of its owners approves that note. -/
def renewedApproval (approver : Pubkey) : List AccountInfo :=
  [readonly (keyOf 30), writable (keyOf 31), signer approver]

/-- The new multisig asks for two owners, and is content with 11: it takes the flag that
14 set for an approval by 12. -/
theorem quorum_inherited : InRoleConfig localRuntime renewedSample ∧
    argsInRole renewedSample.world.registry .executeTransaction renewedExecution = true ∧
    ownerChanges (keyOf 30) renewedSample.world.history < 2 ^ 32 ∧
    ∃ validated L multisig,
      ExecuteTransaction.validate localRuntime localRuntime.programId renewedExecution
        renewedSample.world.ledger = .ok validated L ∧
      validated.multisigAccount.key = keyOf 30 ∧
      validated.transactionAccount.key = keyOf 31 ∧
      Multisig.checkedDeserialize (renewedSample.world.ledger (keyOf 30)).data =
        .ok multisig ∧
      ∀ S : List Pubkey, S.Nodup → (∀ key ∈ S, key ∈ multisig.owners) →
        (∀ key ∈ S, key ∈ supporters (keyOf 31) renewedSample.world.history) →
        S.length < multisig.threshold.toNat := by
  -- one evaluation of the run for all that is read off it
  obtain ⟨hrole, hsucceeds, honly⟩ :
      argsInRole renewedSample.world.registry .executeTransaction renewedExecution = true ∧
      succeeds (ExecuteTransaction.validate localRuntime localRuntime.programId
        renewedExecution) renewedSample.world.ledger = true ∧
      ∀ key ∈ renewedMultisig.owners,
        key ∈ supporters (keyOf 31) renewedSample.world.history → key ∈ [keyOf 11] := by
    decide +kernel
  obtain ⟨validated, L, hvalidate⟩ := succeeds_eq_true_iff.mp hsucceeds
  obtain ⟨_, _, haccounts, -⟩ := ExecuteTransaction.validate_eq_ok_iff.mp hvalidate
  simp only [renewedExecution, List.cons.injEq] at haccounts
  rcases haccounts with ⟨hm, -, ht, -⟩
  refine ⟨renewedSample_inRole, hrole, renewedSample_few _, validated, L, renewedMultisig,
    hvalidate, ?_, ?_, renewedSample_multisig, ?_⟩
  · rw [← hm]
    rfl
  · rw [← ht]
    rfl
  · intro S hnodup howners hsupporters
    have hsub : S ⊆ [keyOf 11] :=
      fun key hkey => honly key (howners key hkey) (hsupporters key hkey)
    exact Nat.lt_succ_of_le (List.subperm_of_subset hnodup hsub).length_le

end LocalRuns

end MultisigNative.Properties
