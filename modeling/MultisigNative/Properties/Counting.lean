import MultisigNative.Properties.Convergence
import MultisigNative.Properties.Liveness
import MultisigNative.Properties.Threshold

/-!
How the approvals of a transaction are counted.  The count is cast to a byte before it
is compared with the threshold, so it is exact for short lists of flags only.
-/

namespace MultisigNative.Properties

open Library.Flags
open Library.Roster
open Library.StateError
open Solana
open State
open Instructions
open Processor
open MultisigNative.System
open LocalRuntime

/-- The exact number of approvals. -/
def flagCount (transaction : Transaction) : Nat :=
  (transaction.signers.filter fun didSign => didSign).length

/-- The cast of the count does not take it below the threshold. -/
def Countable (multisig : Multisig) (transaction : Transaction) : Prop :=
  flagCount transaction < 256 ∨ multisig.threshold.toNat ≤ flagCount transaction % 256

/-- The accounts of an `execute_transaction`. -/
def executeAccounts (validated : ValidatedAccounts) (executor : AccountInfo)
    (rest : List AccountInfo) : List AccountInfo :=
  validated.multisigAccount :: validated.multisigSigner :: validated.transactionAccount ::
    validated.refundee :: executor :: rest

/-- What approvals make of a transaction: flags are set, none is cleared. -/
structure Grown (old new : Transaction) : Prop where
  multisig_eq : new.multisig = old.multisig
  seqno_eq : new.ownerSetSeqno = old.ownerSetSeqno
  length_eq : new.signers.length = old.signers.length
  flags_kept : ∀ i : Nat, old.signers[i]? = some true → new.signers[i]? = some true

/-- The account at `t` stores a transaction grown from `transaction`. -/
structure StoresGrown (programId : Pubkey) (L : Ledger) (t : Pubkey)
    (transaction new : Transaction) : Prop where
  grown : Grown transaction new
  owner : (L t).owner = programId
  fits : Transaction.format.fits new = true
  data : (L t).data = Transaction.format.encode new

section Counting

variable {rt : Runtime} {programId : Pubkey} {L L' : Ledger} {t : Pubkey}
  {multisig : Multisig} {transaction new : Transaction} {validated : ValidatedAccounts}
  {executor : AccountInfo} {rest : List AccountInfo} {calls : List (List AccountInfo)}

/-- The test in exact integers: the count matters modulo 256. -/
theorem threshold_le_approvalCount_iff :
    multisig.threshold ≤ approvalCount transaction ↔
      multisig.threshold.toNat ≤ flagCount transaction % 256 := by
  rw [UInt8.le_iff_toNat_le, approvalCount, UInt8.toNat_ofNat', flagCount]

theorem counted_iff :
    (multisig.threshold ≤ approvalCount transaction ↔
        multisig.threshold.toNat ≤ flagCount transaction) ↔
      Countable multisig transaction := by
  rw [threshold_le_approvalCount_iff, Countable]
  have hbyte := multisig.threshold.toNat_lt
  have hmod := Nat.mod_le (flagCount transaction) 256
  constructor
  · intro h
    by_cases henough : multisig.threshold.toNat ≤ flagCount transaction
    · exact .inr (h.mpr henough)
    · left
      omega
  · intro h
    constructor
    · intro hpasses
      omega
    · intro henough
      omega

/-- With the other checks passed, the count decides. -/
theorem accepted_iff (h : ExecuteTransaction.Ready rt programId L validated executor) :
    succeeds (ExecuteTransaction.validate rt programId
        (executeAccounts validated executor rest)) L = true ↔
      validated.multisig.threshold ≤ approvalCount validated.transaction := by
  rw [succeeds_eq_true_iff]
  constructor
  · rintro ⟨validated', L', hok⟩
    obtain ⟨executor', rest', haccounts, hvalid, -⟩ :=
      ExecuteTransaction.validate_eq_ok_iff.mp hok
    simp only [executeAccounts, List.cons.injEq] at haccounts
    rcases haccounts with ⟨hm, -, ht, -⟩
    have hmultisig : validated'.multisig = validated.multisig := by
      refine Multisig.format.encode_injective hvalid.multisig_fits h.multisig_fits ?_
      rw [← hvalid.multisig_data, ← h.multisig_data, hm]
    have htransaction : validated'.transaction = validated.transaction := by
      refine Transaction.format.encode_injective hvalid.fits h.fits ?_
      rw [← hvalid.data, ← h.data, ht]
    rw [← hmultisig, ← htransaction]
    exact hvalid.approved
  · intro happroved
    exact ⟨validated, L, ExecuteTransaction.validate_eq_ok_iff.mpr
      ⟨executor, rest, rfl, h.valid_iff.mpr happroved, rfl⟩⟩

theorem grown_refl (transaction : Transaction) : Grown transaction transaction :=
  ⟨rfl, rfl, rfl, fun _ h => h⟩

theorem Grown.approve (h : Grown transaction new) (i : Nat) :
    Grown transaction (withSigner new i) where
  multisig_eq := h.multisig_eq
  seqno_eq := h.seqno_eq
  length_eq := by simp [withSigner, h.length_eq]
  flags_kept j hj := by
    have hold := h.flags_kept j hj
    obtain ⟨hlt, -⟩ := List.getElem?_eq_some_iff.mp hold
    simp only [withSigner, List.getElem?_set]
    split
    · rename_i hij
      simp [hij, hlt]
    · exact hold

theorem Grown.flagCount_le (h : Grown transaction new) :
    flagCount transaction ≤ flagCount new :=
  filter_length_le h.length_eq h.flags_kept

theorem StoresGrown.approve (h : StoresGrown programId L t transaction new)
    {accounts : List AccountInfo} (ht : transactionArg .approveTransaction accounts = some t)
    (hok : approveTransaction programId accounts L = .ok () L') :
    ∃ new', StoresGrown programId L' t transaction new' := by
  obtain ⟨m, info, approver, rest, multisig, transaction', i, rfl, hvalid, rfl⟩ :=
    approveTransaction_eq_ok_iff.mp hok
  obtain rfl : info.key = t := Option.some.inj ht
  obtain rfl := Transaction.format.encode_injective h.fits hvalid.fits
    (h.data.symm.trans hvalid.data)
  refine ⟨withSigner new i, h.grown.approve i, ?_, ?_, ?_⟩
  · rw [Function.update_self, h.owner]
  · rw [withSigner_fits, h.fits]
  · rw [Function.update_self]

theorem apply_of_approved {accounts : List AccountInfo}
    (hok : approveTransaction programId accounts L = .ok () L')
    (ht : transactionArg .approveTransaction accounts = some t) {k : Pubkey} (hk : k ≠ t) :
    L' k = L k := by
  obtain ⟨m, info, approver, rest, multisig, transaction, i, rfl, -, rfl⟩ :=
    approveTransaction_eq_ok_iff.mp hok
  obtain rfl : info.key = t := Option.some.inj ht
  exact Function.update_of_ne hk _ _

theorem StoresGrown.approveAll (h : StoresGrown programId L t transaction new)
    (hcalls : ∀ accounts ∈ calls, transactionArg .approveTransaction accounts = some t)
    (hok : calls.forM (approveTransaction programId) L = .ok () L') :
    ∃ new', StoresGrown programId L' t transaction new' := by
  induction calls generalizing L new with
  | nil =>
      obtain ⟨-, rfl⟩ := pure_eq_ok_iff.mp hok
      exact ⟨new, h⟩
  | cons accounts calls ih =>
      obtain ⟨_, mid, hfirst, hrest⟩ := bind_eq_ok_iff.mp hok
      obtain ⟨new', h'⟩ := h.approve (hcalls accounts (List.mem_cons_self ..)) hfirst
      exact ih h' (fun a ha => hcalls a (List.mem_cons_of_mem _ ha)) hrest

/-- The other checks still pass when flags have been set. -/
theorem ready_of_grown (h : ExecuteTransaction.Ready rt programId L validated executor)
    (hm : L' validated.multisigAccount.key = L validated.multisigAccount.key)
    (hstores : StoresGrown programId L' validated.transactionAccount.key
      validated.transaction new) :
    ExecuteTransaction.Ready rt programId L' { validated with transaction := new } executor :=
  { h with
    multisig_owner := by rw [hm, h.multisig_owner]
    owner := hstores.owner
    multisig_data := by rw [hm, h.multisig_data]
    fits := hstores.fits
    data := hstores.data
    seqno := h.seqno.trans hstores.grown.seqno_eq.symm
    multisig_eq := hstores.grown.multisig_eq.trans h.multisig_eq }

end Counting

/-- When its other checks pass, `execute_transaction` accepts a transaction with at least
as many flags set as the threshold and no other, if and only if there are fewer than 256
flags set or their number modulo 256 is not below the threshold.  Further approvals of an
accepted transaction only set flags, and they leave it accepted under that condition. -/
theorem approvals_counted {rt : Runtime} {programId : Pubkey} {L : Ledger}
    {validated : ValidatedAccounts} {executor : AccountInfo} {rest : List AccountInfo}
    (hready : ExecuteTransaction.Ready rt programId L validated executor) :
    ((succeeds (ExecuteTransaction.validate rt programId
          (executeAccounts validated executor rest)) L = true ↔
        validated.multisig.threshold.toNat ≤ flagCount validated.transaction) ↔
      Countable validated.multisig validated.transaction) ∧
    (succeeds (ExecuteTransaction.validate rt programId
        (executeAccounts validated executor rest)) L = true →
      ∀ (calls : List (List AccountInfo)) L',
        (∀ accounts ∈ calls, transactionArg .approveTransaction accounts =
          some validated.transactionAccount.key) →
        calls.forM (approveTransaction programId) L = .ok () L' →
        L' validated.multisigAccount.key = L validated.multisigAccount.key →
        ∃ transaction, Transaction.checkedDeserialize
            (L' validated.transactionAccount.key).data = .ok transaction ∧
          flagCount validated.transaction ≤ flagCount transaction ∧
          (succeeds (ExecuteTransaction.validate rt programId
              (executeAccounts validated executor rest)) L' = true ↔
            Countable validated.multisig transaction)) := by
  constructor
  · rw [accepted_iff hready, counted_iff]
  · intro haccepted calls L' hcalls hok hm
    obtain ⟨new, hstores⟩ := StoresGrown.approveAll
      ⟨grown_refl validated.transaction, hready.owner, hready.fits, hready.data⟩ hcalls hok
    have hle := hstores.grown.flagCount_le
    refine ⟨new, Transaction.checkedDeserialize_eq_ok_iff.mpr ⟨hstores.fits, hstores.data⟩,
      hle, ?_⟩
    have henough : validated.multisig.threshold.toNat ≤ flagCount new := by
      have happroved := (accepted_iff hready).mp haccepted
      exact Nat.le_trans
        (ExecuteTransaction.threshold_le_of_approved happroved) hle
    have hsame : succeeds (ExecuteTransaction.validate rt programId
        (executeAccounts validated executor rest)) L' = true ↔
          validated.multisig.threshold ≤ approvalCount new :=
      accepted_iff (ready_of_grown hready hm hstores)
    rw [hsame, ← counted_iff]
    simp only [henough, iff_true]

section LocalRuns

/-- The sample proposal as 13 finds it when executing. -/
def sampleExecution : ValidatedAccounts :=
  ⟨writable (keyOf 20), readonly samplePda, writable (keyOf 30), writable (keyOf 11),
    ⟨[keyOf 11, keyOf 12, keyOf 13], 2, 5, 0, []⟩,
    ⟨keyOf 20, [⟨keyOf 99, [], [1, 2, 3]⟩], [true, true, false], 0⟩⟩

theorem sample_ready : ExecuteTransaction.Ready localRuntime localRuntime.programId
    sampleConfig.world.ledger sampleExecution (signer (keyOf 13)) := by
  constructor <;> decide +kernel

theorem approvals_counted_sample :
    succeeds (ExecuteTransaction.validate localRuntime localRuntime.programId
        (executeAccounts sampleExecution (signer (keyOf 13)) [])) sampleConfig.world.ledger =
          true ↔
      2 ≤ flagCount sampleExecution.transaction :=
  (approvals_counted sample_ready).1.mpr (.inl (by decide))

/-- What creating the multisig of 257 owners leaves of the payer and of an unused
address. -/
theorem crowd_payer {L : Ledger} {history : List Event}
    (h : perform localRuntime ⟨genesis [keyOf 11], []⟩ (.call (.createMultisig crowd)
      [signer (keyOf 20), readonly samplePda, signer (keyOf 11), readonly systemProgram]) =
        some ⟨L, history⟩) :
    L (keyOf 11) = ⟨1000000000000 - localRuntime.minimumBalance 8238, systemProgram, []⟩ ∧
      L (keyOf 30) = Account.unused := by
  have hcall : MultisigInstruction.createMultisig crowd ≠ .executeTransaction := by simp
  obtain ⟨L', hrun, -, hworld⟩ := (perform_call_eq_some_iff hcall).mp h
  obtain rfl : L = L' := congrArg World.ledger hworld
  rw [runHandler_createMultisig] at hrun
  obtain ⟨m, s, payer, system, rest, haccounts, -, hcreate⟩ :=
    createMultisig_eq_ok_iff.mp hrun
  simp only [List.cons.injEq] at haccounts
  rcases haccounts with ⟨hm, -, hpayer, -⟩
  rw [← hm, ← hpayer, crowd_len] at hcreate
  obtain ⟨mid, hcreated, hother⟩ := apply_of_createAndSerialize hcreate
  have hpaid := hcreated.apply_payer
  have hunused := hcreated.apply_of_ne (k := keyOf 30) (by decide) (by decide)
  constructor
  · rw [hother (keyOf 11) (by decide)]
    exact hpaid
  · rw [hother (keyOf 30) (by decide), hunused]
    decide +kernel

theorem crowd_proposable {L : Ledger}
    (hpayer : L (keyOf 11) =
      ⟨1000000000000 - localRuntime.minimumBalance 8238, systemProgram, []⟩)
    (hunused : L (keyOf 30) = Account.unused) :
    ∃ L', localRuntime.createAccount (signer (keyOf 11)) (signer (keyOf 30))
      (localRuntime.minimumBalance 341) 341 localRuntime.programId L = .ok () L' := by
  refine ⟨_, if_pos ?_⟩
  simp only [show (signer (keyOf 11)).key = keyOf 11 from rfl,
    show (signer (keyOf 30)).key = keyOf 30 from rfl, hpayer, hunused]
  decide +kernel

/-- The first owners of the crowd have approved what the first of them proposed. -/
structure Crowded (w : World) (n : Nat) : Prop where
  reachable : RolesKeptWorld localRuntime w
  collected : Collected localRuntime w (keyOf 20) (keyOf 30)
    (CreateMultisig.newMultisig crowd) (manyOwners n).reverse
  multisig_role : (w.registry (keyOf 20)).isProposal = false
  transaction_role : (w.registry (keyOf 30)).isMultisig = false

/-- The accounts with which an owner of the crowd approves. -/
def crowdApproval (i : Nat) : List AccountInfo :=
  [readonly (keyOf 20), writable (keyOf 30), signer (numbered i)]

/-- The accounts with which the first owner of the crowd executes. -/
def crowdExecution (transaction : Transaction) : ValidatedAccounts :=
  ⟨writable (keyOf 20), readonly samplePda, writable (keyOf 30), writable (keyOf 11),
    CreateMultisig.newMultisig crowd, transaction⟩

/-- The accounts with which the first owner of the crowd proposes. -/
def crowdProposal : List AccountInfo :=
  [readonly (keyOf 20), signer (keyOf 30), signer (numbered 0), signer (keyOf 11),
    readonly systemProgram]

theorem manyOwners_succ (n : Nat) : manyOwners (n + 1) = manyOwners n ++ [numbered n] := by
  simp [manyOwners, List.range_succ]

theorem manyOwners_subset {n : Nat} (hn : n ≤ 257) :
    ∀ q ∈ manyOwners n, q ∈ (CreateMultisig.newMultisig crowd).owners := by
  intro q hq
  obtain ⟨i, hi, rfl⟩ := List.mem_map.mp hq
  rw [List.mem_range] at hi
  exact List.mem_map.mpr ⟨i, List.mem_range.mpr (by omega), rfl⟩

theorem crowd_nodup : (CreateMultisig.newMultisig crowd).owners.Nodup :=
  manyOwners_nodup (n := 257) (by decide)

theorem crowded_one : ∃ w, Crowded w 1 := by
  rcases crowd_created with ⟨L, hinit, hcreated⟩
  obtain ⟨hpayer, hunused⟩ := crowd_payer hcreated
  have hsize : proposalLen (CreateMultisig.newMultisig crowd) [⟨keyOf 99, [], []⟩] = 341 := by
    simp [proposalLen, CreateMultisig.newMultisig, crowd, TransactionInstructionData.len]
  have hcreate := crowd_proposable hpayer hunused
  rw [← hsize] at hcreate
  have haccounts : ProposesWith (keyOf 20) (keyOf 30) (numbered 0) (signer (keyOf 11))
      (signer (keyOf 30)) crowdProposal := ⟨rfl, rfl, rfl, rfl, rfl, rfl, rfl⟩
  have howner := congrArg Account.owner hinit.account_eq
  have hdata := congrArg Account.data hinit.account_eq
  obtain ⟨w, hproposed, hcollected⟩ := propose_collects
    (w := ⟨L, [.multisigCreated (keyOf 20) crowd.owners 5]⟩) howner hdata crowd_fits crowd_nodup
    (manyOwners_subset (n := 1) (by decide) _ (by decide)) (by decide) haccounts hcreate
  have hcall : MultisigInstruction.proposeTransaction ⟨[⟨keyOf 99, [], []⟩]⟩ ≠
      .executeTransaction := by simp
  obtain ⟨L', -, -, rfl⟩ := (perform_call_eq_some_iff hcall).mp hproposed
  refine ⟨_, ?_, hcollected, rfl, rfl⟩
  exact .next (.next (.init (localStart_initial [keyOf 11]).world) rfl hcreated) rfl hproposed

theorem Crowded.next {w : World} {n : Nat} (h : Crowded w n) (hn : n < 257) :
    ∃ w', perform localRuntime w (.call .approveTransaction (crowdApproval n)) = some w' ∧
      Crowded w' (n + 1) := by
  have hmem := manyOwners_subset (n := n + 1) (by omega) (numbered n) (by
    rw [manyOwners_succ]
    exact List.mem_append_right _ (List.mem_singleton_self _))
  have haccounts : ApprovesWith (keyOf 20) (keyOf 30) (numbered n) (crowdApproval n) :=
    ⟨rfl, rfl, rfl, rfl, rfl⟩
  obtain ⟨w', hperform, hcollected⟩ := h.collected.approve crowd_nodup hmem haccounts
  have hrole : (Label.call .approveTransaction (crowdApproval n) :
      Label localRuntime).keepsRoles w.registry = true := by
    simp only [Label.keepsRoles_call, argsInRole, crowdApproval, multisigArg,
      transactionArg, Option.all_some, readonly, writable, h.multisig_role,
      h.transaction_role, Bool.not_false, Bool.and_self]
  have hcall : MultisigInstruction.approveTransaction ≠ .executeTransaction := by simp
  obtain ⟨L', -, -, rfl⟩ := (perform_call_eq_some_iff hcall).mp hperform
  refine ⟨_, hperform, h.reachable.next hrole hperform, ?_, ?_, ?_⟩
  · rw [manyOwners_succ, List.reverse_append]
    exact hcollected
  · change (World.registry ⟨L', .approved (keyOf 20) (keyOf 30) _ :: w.history⟩
      (keyOf 20)).isProposal = false
    rw [World.registry_of_ne _ (show keyOf 20 ≠ keyOf 30 by decide), h.multisig_role]
  · change (World.registry ⟨L', .approved (keyOf 20) (keyOf 30) _ :: w.history⟩
      (keyOf 30)).isMultisig = false
    rw [World.registry_cons]
    simp only [Event.apply, Function.update_self, Occupant.isMultisig_approve,
      h.transaction_role]

theorem exists_crowded {n : Nat} (hn : n < 257) : ∃ w, Crowded w (n + 1) := by
  induction n with
  | zero => exact crowded_one
  | succ n ih =>
      obtain ⟨w, h⟩ := ih (by omega)
      obtain ⟨w', -, h'⟩ := h.next hn
      exact ⟨w', h'⟩

/-- What the first owner of the crowd finds when executing. -/
theorem Crowded.ready {w : World} {n : Nat} (h : Crowded w n) (hn : n ≤ 257) :
    ∃ transaction, ExecuteTransaction.Ready localRuntime localRuntime.programId w.ledger
        (crowdExecution transaction) (signer (numbered 0)) ∧
      flagCount transaction = n := by
  obtain ⟨transaction, hdata, hfits, happroved⟩ := h.collected.stored
  refine ⟨transaction, ⟨h.collected.multisig_owner, h.collected.owner,
    h.collected.multisig_fits, h.collected.multisig_data, hfits, hdata, rfl,
    manyOwners_subset (n := 1) (by decide) _ (by decide), happroved.seqno, samplePda_created, rfl,
    happroved.multisig_eq, show keyOf 11 ≠ keyOf 30 by decide, rfl⟩, ?_⟩
  have hdone : (manyOwners n).reverse.Nodup :=
    List.nodup_reverse.mpr (manyOwners_nodup (by omega))
  have hsub : ∀ q ∈ (manyOwners n).reverse, q ∈ (CreateMultisig.newMultisig crowd).owners :=
    fun q hq => manyOwners_subset hn q (List.mem_reverse.mp hq)
  rw [flagCount, count_eq_of_singled_out crowd_nodup happroved.length_eq hdone hsub
    happroved.flags, List.length_reverse, manyOwners_length]

theorem crowd_accepted_iff {w : World} {transaction : Transaction}
    (h : ExecuteTransaction.Ready localRuntime localRuntime.programId w.ledger
      (crowdExecution transaction) (signer (numbered 0))) :
    succeeds (ExecuteTransaction.validate localRuntime localRuntime.programId
        (executeAccounts (crowdExecution transaction) (signer (numbered 0)) [])) w.ledger =
          true ↔
      1 ≤ flagCount transaction % 256 := by
  rw [accepted_iff h]
  exact threshold_le_approvalCount_iff

/-- With 255 of 257 owners, any one of whom may act, a transaction can be executed.  The
256th approval succeeds and leaves the multisig alone, and then it cannot. -/
theorem approvals_miscounted : ∃ w w' transaction transaction',
    RolesKeptWorld localRuntime w ∧
    perform localRuntime w (.call .approveTransaction (crowdApproval 255)) = some w' ∧
    w'.ledger (keyOf 20) = w.ledger (keyOf 20) ∧
    ExecuteTransaction.Ready localRuntime localRuntime.programId w.ledger
      (crowdExecution transaction) (signer (numbered 0)) ∧
    succeeds (ExecuteTransaction.validate localRuntime localRuntime.programId
      (executeAccounts (crowdExecution transaction) (signer (numbered 0)) [])) w.ledger =
        true ∧
    ExecuteTransaction.Ready localRuntime localRuntime.programId w'.ledger
      (crowdExecution transaction') (signer (numbered 0)) ∧
    (CreateMultisig.newMultisig crowd).threshold.toNat ≤ flagCount transaction' ∧
    succeeds (ExecuteTransaction.validate localRuntime localRuntime.programId
      (executeAccounts (crowdExecution transaction') (signer (numbered 0)) [])) w'.ledger =
        false := by
  obtain ⟨w, h⟩ := exists_crowded (n := 254) (by decide)
  obtain ⟨w', hperform, h'⟩ := h.next (by decide)
  obtain ⟨transaction, hready, hcount⟩ := h.ready (by decide)
  obtain ⟨transaction', hready', hcount'⟩ := h'.ready (by decide)
  refine ⟨w, w', transaction, transaction', h.reachable, hperform, ?_, hready, ?_, hready', ?_,
    ?_⟩
  · have hcall : MultisigInstruction.approveTransaction ≠ .executeTransaction := by simp
    obtain ⟨L', hrun, -, rfl⟩ := (perform_call_eq_some_iff hcall).mp hperform
    rw [runHandler_approveTransaction] at hrun
    exact apply_of_approved hrun rfl (show keyOf 20 ≠ keyOf 30 by decide)
  · rw [crowd_accepted_iff hready, hcount]
    decide
  · rw [hcount']
    decide
  · rw [← Bool.not_eq_true, crowd_accepted_iff hready', hcount']
    decide

end LocalRuns

end MultisigNative.Properties
