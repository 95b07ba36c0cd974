import MultisigNative.Library.Roster
import MultisigNative.Properties.Quorum

/-!
Nobody is locked out: as many owners as the threshold asks for, whoever they are,
can get any proposal accepted.
-/

namespace MultisigNative.Properties

open Library.Roster
open Library.StateError
open Solana
open State
open Instructions
open Processor
open MultisigNative.System
open LocalRuntime

section Flags

variable {multisig : Multisig} {transaction : Transaction} {m q : Pubkey}
  {done : List Pubkey} {i : Nat}

/-- The flags of the transaction are those of the owners `done`. -/
structure ApprovedBy (m : Pubkey) (multisig : Multisig) (done : List Pubkey)
    (transaction : Transaction) : Prop where
  multisig_eq : transaction.multisig = m
  seqno : multisig.ownerSetSeqno = transaction.ownerSetSeqno
  length_eq : transaction.signers.length = multisig.owners.length
  flags : ∀ (i : Nat) a, multisig.owners[i]? = some a →
    (transaction.signers[i]? = some true ↔ a ∈ done)

/-- Setting the flag of one position adds the owner there. -/
theorem flag_set_iff {signers : List Bool} {owners : List Pubkey} (hnodup : owners.Nodup)
    (hposition : owners[i]? = some q) (hlength : signers.length = owners.length)
    (hflags : ∀ (j : Nat) a, owners[j]? = some a → (signers[j]? = some true ↔ a ∈ done))
    {j : Nat} {a : Pubkey} (ha : owners[j]? = some a) :
    (signers.set i true)[j]? = some true ↔ a ∈ q :: done := by
  obtain ⟨hi, hqi⟩ := List.getElem?_eq_some_iff.mp hposition
  obtain ⟨hj, haj⟩ := List.getElem?_eq_some_iff.mp ha
  rw [List.getElem?_set, List.mem_cons]
  by_cases hij : i = j
  · subst hij
    have haq : a = q := haj.symm.trans hqi
    simp [haq, hlength, hi]
  · have haq : a ≠ q := by
      rintro rfl
      exact hij ((List.Nodup.getElem_inj_iff hnodup).mp (hqi.trans haj.symm))
    simp only [hij, if_false, haq, false_or]
    exact hflags j a ha

theorem approvedBy_proposed {data : ProposeTransactionInstruction}
    (hnodup : multisig.owners.Nodup)
    (hposition : ownerPosition multisig.owners q = some i) :
    ApprovedBy m multisig [q] (ProposeTransaction.newTransaction m multisig i data) where
  multisig_eq := rfl
  seqno := rfl
  length_eq := by simp [ProposeTransaction.newTransaction]
  flags j a ha := by
    refine flag_set_iff hnodup (ownerPosition_eq_some_iff.mp hposition).1
      List.length_replicate ?_ ha
    intro j a _
    simp [List.getElem?_replicate]

theorem ApprovedBy.approve (h : ApprovedBy m multisig done transaction)
    (hnodup : multisig.owners.Nodup)
    (hposition : ownerPosition multisig.owners q = some i) :
    ApprovedBy m multisig (q :: done) (withSigner transaction i) where
  multisig_eq := h.multisig_eq
  seqno := h.seqno
  length_eq := by simp [withSigner, h.length_eq]
  flags _ _ ha := flag_set_iff hnodup (ownerPosition_eq_some_iff.mp hposition).1 h.length_eq
    h.flags ha

/-- A quorum of at most 255 owners passes the test of the truncated count. -/
theorem ApprovedBy.passes (h : ApprovedBy m multisig done transaction)
    (hnodup : multisig.owners.Nodup) (hdone : done.Nodup)
    (hsub : ∀ a ∈ done, a ∈ multisig.owners)
    (hlength : done.length = max 1 multisig.threshold.toNat) :
    multisig.threshold ≤ approvalCount transaction := by
  have hcount := count_eq_of_singled_out hnodup h.length_eq hdone hsub h.flags
  have hbound := multisig.threshold.toNat_lt
  rw [UInt8.le_iff_toNat_le, approvalCount, UInt8.toNat_ofNat', hcount, hlength]
  omega

end Flags

section Collecting

variable {rt : Runtime} {w w' : World} {m t pda q : Pubkey} {multisig : Multisig}
  {done others : List Pubkey} {accounts : List AccountInfo}

/-- The proposal at `t` is of the multisig at `m`, and the owners `done` have approved
it. -/
structure Collected (rt : Runtime) (w : World) (m t : Pubkey) (multisig : Multisig)
    (done : List Pubkey) : Prop where
  ne : m ≠ t
  multisig_owner : (w.ledger m).owner = rt.programId
  multisig_data : (w.ledger m).data = Multisig.format.encode multisig
  multisig_fits : Multisig.format.fits multisig = true
  owner : (w.ledger t).owner = rt.programId
  stored : ∃ transaction, (w.ledger t).data = Transaction.format.encode transaction ∧
    Transaction.format.fits transaction = true ∧ ApprovedBy m multisig done transaction

/-- Neither the multisig nor the proposal is changed. -/
structure Undisturbed (m t : Pubkey) (w w' : World) : Prop where
  multisig_owner : (w'.ledger m).owner = (w.ledger m).owner
  multisig_data : (w'.ledger m).data = (w.ledger m).data
  owner : (w'.ledger t).owner = (w.ledger t).owner
  data : (w'.ledger t).data = (w.ledger t).data

theorem Collected.undisturbed (h : Collected rt w m t multisig done)
    (hsame : Undisturbed m t w w') : Collected rt w' m t multisig done where
  ne := h.ne
  multisig_owner := hsame.multisig_owner.trans h.multisig_owner
  multisig_data := hsame.multisig_data.trans h.multisig_data
  multisig_fits := h.multisig_fits
  owner := hsame.owner.trans h.owner
  stored := by
    rw [hsame.data]
    exact h.stored

/-- The size of the account of a proposal. -/
def proposalLen (multisig : Multisig) (instructions : List TransactionInstructionData) :
    Nat :=
  44 + (instructions.map TransactionInstructionData.len).sum + multisig.owners.length

theorem newTransaction_len (m : Pubkey) (multisig : Multisig) (i : Nat)
    (instructions : List TransactionInstructionData) :
    (ProposeTransaction.newTransaction m multisig i ⟨instructions⟩).len =
      proposalLen multisig instructions := by
  simp only [Transaction.len, ProposeTransaction.newTransaction, List.length_set,
    List.length_replicate, proposalLen]
  omega

/-- Accounts with which the owner `q` approves. -/
def ApprovesWith (m t q : Pubkey) : List AccountInfo → Prop
  | multisig :: transaction :: approver :: _ =>
      multisig.key = m ∧ transaction.key = t ∧ transaction.isWritable = true ∧
        approver.key = q ∧ approver.isSigner = true
  | _ => False

/-- Accounts with which the owner `q` proposes. -/
def ProposesWith (m t q : Pubkey) (payer transaction : AccountInfo) :
    List AccountInfo → Prop
  | multisig :: transaction' :: proposer :: payer' :: system :: _ =>
      multisig.key = m ∧ transaction' = transaction ∧ transaction.key = t ∧
        proposer.key = q ∧ proposer.isSigner = true ∧ payer' = payer ∧
        system.key = systemProgram
  | _ => False

/-- Accounts with which the owner `q` executes. -/
def ExecutesWith (m t pda q : Pubkey) : List AccountInfo → Prop
  | multisig :: multisigSigner :: transaction :: refundee :: executor :: _ =>
      multisig.key = m ∧ multisigSigner.key = pda ∧ transaction.key = t ∧
        transaction.isWritable = true ∧ refundee.key ≠ t ∧ refundee.isWritable = true ∧
        executor.key = q ∧ executor.isSigner = true
  | _ => False

theorem propose_collects {instructions : List TransactionInstructionData}
    {payer transaction : AccountInfo} (howner : (w.ledger m).owner = rt.programId)
    (hdata : (w.ledger m).data = Multisig.format.encode multisig)
    (hfits : Multisig.format.fits multisig = true) (hnodup : multisig.owners.Nodup)
    (hq : q ∈ multisig.owners) (hne : instructions ≠ [])
    (haccounts : ProposesWith m t q payer transaction accounts)
    (hcreate : ∃ L, rt.createAccount payer transaction
      (rt.minimumBalance (proposalLen multisig instructions))
      (proposalLen multisig instructions) rt.programId w.ledger = .ok () L) :
    ∃ w', perform rt w (.call (.proposeTransaction ⟨instructions⟩) accounts) = some w' ∧
      Collected rt w' m t multisig [q] := by
  obtain ⟨i, hposition⟩ := exists_ownerPosition hq
  rcases hcreate with ⟨mid, hmid⟩
  have hcreated := rt.accountCreated _ _ _ _ _ _ hmid
  unfold ProposesWith at haccounts
  split at haccounts
  · rename_i info transaction' proposer payer' system more
    rcases haccounts with ⟨rfl, rfl, rfl, rfl, hsigner, rfl, hsystem⟩
    have hlen := newTransaction_len info.key multisig i instructions
    have hsize : Transaction.format.fits
        (ProposeTransaction.newTransaction info.key multisig i ⟨instructions⟩) = true := by
      apply Transaction.format_fits_of_len
      rw [hlen]
      exact Nat.lt_of_le_of_lt hcreated.space_le (by decide)
    rw [← hlen] at hmid
    obtain ⟨L, hL⟩ :=
      createAndSerialize_of_created (Transaction.format_encode_length _) hsize hmid
    obtain ⟨-, hinit⟩ :=
      initialised_of_createAndSerialize (Transaction.format_encode_length _) hL
    have hmt : info.key ≠ transaction'.key := by
      intro heq
      rw [heq, hcreated.unused] at howner
      exact rt.programId_ne howner.symm
    have hvalid : ProposeTransaction.Valid rt.programId w.ledger info proposer system
        ⟨instructions⟩ multisig i :=
      ⟨howner, hsystem, hsigner, hne, hfits, hdata, hposition⟩
    have hcall : MultisigInstruction.proposeTransaction ⟨instructions⟩ ≠
        .executeTransaction := by simp
    refine ⟨_, (perform_call_eq_some_iff hcall).mpr ⟨L, ?_, ?_, rfl⟩, ?_⟩
    · rw [runHandler_proposeTransaction, proposeTransaction_eq_ok_iff]
      exact ⟨_, _, _, _, _, _, multisig, i, rfl, hvalid, hL⟩
    · rw [createsAccount, Bool.true_or]
    · refine ⟨hmt, (hinit.owner_eq _ hmt).trans howner, (hinit.data_eq _ hmt).trans hdata,
        hfits, ?_, _, ?_, hsize, approvedBy_proposed hnodup hposition⟩
      · simp only [hinit.account_eq]
      · simp only [hinit.account_eq]
  · cases haccounts

theorem Collected.approve (h : Collected rt w m t multisig done)
    (hnodup : multisig.owners.Nodup) (hq : q ∈ multisig.owners)
    (haccounts : ApprovesWith m t q accounts) :
    ∃ w', perform rt w (.call .approveTransaction accounts) = some w' ∧
      Collected rt w' m t multisig (q :: done) := by
  obtain ⟨i, hposition⟩ := exists_ownerPosition hq
  obtain ⟨transaction, hdata, hfits, happroved⟩ := h.stored
  have hlt : i < transaction.signers.length := by
    rw [happroved.length_eq]
    exact (List.getElem?_eq_some_iff.mp (ownerPosition_eq_some_iff.mp hposition).1).1
  unfold ApprovesWith at haccounts
  split at haccounts
  · rename_i info t' approver more
    rcases haccounts with ⟨rfl, rfl, hwritable, rfl, hsigner⟩
    have hvalid : ApproveTransaction.Valid rt.programId w.ledger info t' approver multisig
        transaction i :=
      ⟨h.multisig_fits, h.multisig_data, hfits, hdata, h.multisig_owner, h.owner,
        happroved.seqno, hsigner, hwritable, happroved.multisig_eq, hposition, hlt⟩
    have hcall : MultisigInstruction.approveTransaction ≠ .executeTransaction := by simp
    have hrun := (approveTransaction_eq_ok_iff (u := ())).mpr
      ⟨_, _, _, more, multisig, transaction, i, rfl, hvalid, rfl⟩
    rw [← runHandler_approveTransaction] at hrun
    refine ⟨_, (perform_call_eq_some_iff hcall).mpr ⟨_, hrun, ?_, rfl⟩, ?_⟩
    · change effectAllowed rt _ _ _ = true
      refine effectAllowed_update h.owner ?_ _
      simp [isWritableIn, hwritable]
    · refine ⟨h.ne, ?_, ?_, h.multisig_fits, ?_, withSigner transaction i, ?_, ?_,
        happroved.approve hnodup hposition⟩
      · simp only [Function.update_of_ne h.ne, h.multisig_owner]
      · simp only [Function.update_of_ne h.ne, h.multisig_data]
      · simp only [Function.update_self, h.owner]
      · simp only [Function.update_self]
      · rw [withSigner_fits, hfits]
  · cases haccounts

/-- With the approval of a quorum, any owner can execute. -/
theorem Collected.accepted (h : Collected rt w m t multisig done)
    (hnodup : multisig.owners.Nodup) (hdone : done.Nodup)
    (hsub : ∀ a ∈ done, a ∈ multisig.owners)
    (hlength : done.length = max 1 multisig.threshold.toNat)
    (hpda : rt.createProgramAddress [m.bytes, [multisig.nonce]] rt.programId = some pda)
    (hq : q ∈ multisig.owners) (haccounts : ExecutesWith m t pda q accounts) :
    ∃ validated, ExecuteTransaction.validate rt rt.programId accounts w.ledger =
      .ok validated w.ledger := by
  obtain ⟨transaction, hdata, hfits, happroved⟩ := h.stored
  unfold ExecutesWith at haccounts
  split at haccounts
  · rename_i info signerInfo t' refundee executor more
    rcases haccounts with ⟨rfl, rfl, rfl, hwritable, hrefundee, hrefundable, rfl, hsigner⟩
    refine ⟨⟨info, signerInfo, t', refundee, multisig, transaction⟩,
      ExecuteTransaction.validate_eq_ok_iff.mpr ⟨executor, more, rfl, ?_, rfl⟩⟩
    exact ⟨h.multisig_owner, h.owner, h.multisig_fits, h.multisig_data, hfits, hdata,
      hsigner, hq, happroved.seqno, hpda, hwritable, happroved.multisig_eq, hrefundee,
      hrefundable, happroved.passes hnodup hdone hsub hlength⟩
  · cases haccounts

/-- From `w` on, as long as the multisig and the proposal are not changed by others,
the approvals of `others` in turn succeed, and then any owner can execute. -/
def Completes (rt : Runtime) (multisig : Multisig) (m t pda : Pubkey) :
    World → List Pubkey → Prop
  | w, [] => ∀ w', Undisturbed m t w w' → ∀ executor ∈ multisig.owners, ∀ accounts,
      ExecutesWith m t pda executor accounts →
      ∃ validated, ExecuteTransaction.validate rt rt.programId accounts w'.ledger =
        .ok validated w'.ledger
  | w, q :: others => ∀ w', Undisturbed m t w w' → ∀ accounts, ApprovesWith m t q accounts →
      ∃ w'', perform rt w' (.call .approveTransaction accounts) = some w'' ∧
        Completes rt multisig m t pda w'' others

theorem completes_of_collected (h : Collected rt w m t multisig done)
    (hnodup : multisig.owners.Nodup) (hquorum : (others.reverse ++ done).Nodup)
    (hsub : ∀ a ∈ others.reverse ++ done, a ∈ multisig.owners)
    (hlength : (others.reverse ++ done).length = max 1 multisig.threshold.toNat)
    (hpda : rt.createProgramAddress [m.bytes, [multisig.nonce]] rt.programId = some pda) :
    Completes rt multisig m t pda w others := by
  induction others generalizing w done with
  | nil =>
      intro w' hsame executor hexecutor accounts haccounts
      exact (h.undisturbed hsame).accepted hnodup hquorum hsub hlength hpda hexecutor
        haccounts
  | cons q others ih =>
      intro w' hsame accounts haccounts
      have hq : q ∈ multisig.owners := hsub q (by simp)
      obtain ⟨w'', hperform, hcollected⟩ :=
        (h.undisturbed hsame).approve hnodup hq haccounts
      rw [List.reverse_cons, List.append_assoc, List.singleton_append] at hquorum hsub hlength
      exact ⟨w'', hperform, ih hcollected hquorum hsub hlength⟩

end Collecting

/-- Every multisig of every in-role run decodes and has as many owners as it asks for;
and whichever owners make up a quorum, the proposal of the first of them succeeds, so
do the approvals of the others in turn, and then any owner can execute. -/
theorem quorum_suffices {rt : Runtime} {c : Config rt} (h : InRoleConfig rt c) {m : Pubkey}
    (hm : (c.world.registry m).isMultisig = true) :
    ∃ multisig pda, Multisig.checkedDeserialize (c.world.ledger m).data = .ok multisig ∧
      rt.createProgramAddress [m.bytes, [multisig.nonce]] rt.programId = some pda ∧
      max 1 multisig.threshold.toNat ≤ multisig.owners.length ∧
      ∀ q others, (q :: others).Nodup → (∀ a ∈ q :: others, a ∈ multisig.owners) →
        (q :: others).length = max 1 multisig.threshold.toNat →
        ∀ instructions payer transaction accounts, instructions ≠ [] →
          ProposesWith m transaction.key q payer transaction accounts →
          (∃ L, rt.createAccount payer transaction
            (rt.minimumBalance (proposalLen multisig instructions))
            (proposalLen multisig instructions) rt.programId c.world.ledger = .ok () L) →
          ∃ w, perform rt c.world (.call (.proposeTransaction ⟨instructions⟩) accounts) =
              some w ∧
            Completes rt multisig m transaction.key pda w others := by
  have hheld := held_of_config h
  obtain ⟨g, hg⟩ := Occupant.isMultisig_iff.mp hm
  obtain ⟨multisig, hholds⟩ := hheld.exists_multisig hg
  obtain ⟨pda, hpda⟩ := hholds.pda
  rw [← hholds.nonce] at hpda
  have hnodup : multisig.owners.Nodup := by
    rw [hholds.owners]
    exact hholds.nodup
  have hpos : 0 < multisig.owners.length := by
    rw [hholds.owners]
    exact List.length_pos_iff.mpr hholds.ne_nil
  refine ⟨multisig, pda, hholds.decodes, hpda, ?_, ?_⟩
  · have hle := hholds.threshold_le
    omega
  · intro q others hquorum hsub hlength instructions payer transaction accounts hne
      haccounts hcreate
    obtain ⟨w, hperform, hcollected⟩ := propose_collects hholds.owner hholds.data
      hholds.fits hnodup (hsub q (List.mem_cons_self ..)) hne haccounts hcreate
    have hperm : (others.reverse ++ [q]).Perm (q :: others) := by
      rw [← List.reverse_cons]
      exact List.reverse_perm _
    refine ⟨w, hperform, completes_of_collected hcollected hnodup ?_ ?_ ?_ hpda⟩
    · exact hperm.nodup_iff.mpr hquorum
    · intro a ha
      exact hsub a (hperm.mem_iff.mp ha)
    · rw [hperm.length_eq, hlength]

section LocalRuns

/-- The sample multisig has been created. -/
def createdSample : Config localRuntime :=
  (localRun [keyOf 11] ((sampleActions []).take 1)).get (by decide +kernel)

/-- The owners 13 and 11 can get a note through. -/
theorem quorum_suffices_sample : ∃ multisig pda w,
    Multisig.checkedDeserialize (createdSample.world.ledger (keyOf 20)).data =
      .ok multisig ∧
    perform localRuntime createdSample.world
      (.call (.proposeTransaction ⟨[⟨keyOf 99, [], []⟩]⟩)
        [readonly (keyOf 20), signer (keyOf 30), signer (keyOf 13), signer (keyOf 11),
          readonly systemProgram]) = some w ∧
    Completes localRuntime multisig (keyOf 20) (keyOf 30) pda w [keyOf 11] := by
  have hrole : InRoleConfig localRuntime createdSample :=
    (rolesKept_of_localRun (Option.some_get _).symm).inRole
  obtain ⟨multisig, pda, hdecode, -, -, hquorum⟩ :=
    quorum_suffices (m := keyOf 20) hrole (by decide +kernel)
  have hvalue : Multisig.checkedDeserialize
      (createdSample.world.ledger (keyOf 20)).data =
        .ok ⟨[keyOf 11, keyOf 12, keyOf 13], 2, 5, 0, []⟩ := by
    decide +kernel
  obtain rfl := Except.ok.inj (hvalue.symm.trans hdecode)
  have hcreate : succeeds (localRuntime.createAccount (signer (keyOf 11))
      (signer (keyOf 30)) (localRuntime.minimumBalance 87) 87 localRuntime.programId)
      createdSample.world.ledger = true := by decide +kernel
  obtain ⟨_, L, hL⟩ := succeeds_eq_true_iff.mp hcreate
  obtain ⟨w, hperform, hcompletes⟩ := hquorum (keyOf 13) [keyOf 11] (by decide) (by decide)
    (by decide) [⟨keyOf 99, [], []⟩] (signer (keyOf 11)) (signer (keyOf 30))
    [readonly (keyOf 20), signer (keyOf 30), signer (keyOf 13), signer (keyOf 11),
      readonly systemProgram] (by decide) ⟨rfl, rfl, rfl, rfl, rfl, rfl, rfl⟩ ⟨L, hL⟩
  exact ⟨_, pda, w, hdecode, hperform, hcompletes⟩

end LocalRuns

end MultisigNative.Properties
