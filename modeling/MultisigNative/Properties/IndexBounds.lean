import MultisigNative.Properties.Quorum

/-!
The index at which an approval sets a flag is not checked where it is used.  It is in
range because a proposal with the counter of its multisig has a flag for each owner.
-/

namespace MultisigNative.Properties

open Library.StateError
open Solana
open State
open Instructions
open MultisigNative.System
open LocalRuntime

section Bounds

variable {rt : Runtime} {w : World}

/-- One flag for each current owner. -/
theorem signers_length_of_opened (h : Represents rt w) {m t : Pubkey} {multisig : Multisig}
    {transaction : Transaction}
    (hmrole : (w.registry m).isProposal = false) (htrole : (w.registry t).isMultisig = false)
    (hopened : Opened rt.programId w.ledger m t multisig transaction)
    (hseqno : multisig.ownerSetSeqno = transaction.ownerSetSeqno)
    (hfew : ownerChanges m w.history < 2 ^ 32) :
    transaction.signers.length = multisig.owners.length := by
  obtain ⟨g, p, hg, hmultisig, hp, hproposal, hm⟩ := h.held.opened hmrole htrole hopened
  have hendorsed := h.endorsed hg hmultisig hp hproposal hm hseqno hfew
  rw [hmultisig.owners]
  exact hendorsed.length_eq

/-- An approver who is an owner finds a flag in the owner's position. -/
theorem approve_in_range (h : Represents rt w) {m t approver : AccountInfo}
    {rest : List AccountInfo} {multisig : Multisig} {transaction : Transaction}
    (hrole : argsInRole w.registry .approveTransaction (m :: t :: approver :: rest) = true)
    (hmultisig : Multisig.checkedDeserialize (w.ledger m.key).data = .ok multisig)
    (htransaction : Transaction.checkedDeserialize (w.ledger t.key).data = .ok transaction)
    (hvalidate : ApproveTransaction.validate rt.programId multisig transaction approver t m
      w.ledger = .ok () w.ledger)
    (howner : approver.key ∈ multisig.owners) (hfew : ownerChanges m.key w.history < 2 ^ 32) :
    transaction.signers.length = multisig.owners.length ∧
      ∃ i, i < transaction.signers.length ∧
        ApproveTransaction.Valid rt.programId w.ledger m t approver multisig transaction
          i := by
  obtain ⟨hmfits, hmdata⟩ := Multisig.checkedDeserialize_eq_ok_iff.mp hmultisig
  obtain ⟨hfits, hdata⟩ := Transaction.checkedDeserialize_eq_ok_iff.mp htransaction
  obtain ⟨hmowner, howned, hseqno, hsigner, hwritable, heq, -⟩ :=
    ApproveTransaction.validate_eq_ok_iff.mp hvalidate
  have hlength := signers_length_of_opened h (multisig_role_of_args hrole rfl)
    (transaction_role_of_args hrole rfl)
    ⟨hmowner, howned, hmfits, hmdata, hfits, hdata, heq, List.ne_nil_of_mem howner⟩ hseqno hfew
  obtain ⟨i, hposition⟩ := exists_ownerPosition howner
  have hi : i < transaction.signers.length := by
    rw [hlength]
    exact (List.getElem?_eq_some_iff.mp (ownerPosition_eq_some_iff.mp hposition).1).1
  exact ⟨hlength, i, hi, hmfits, hmdata, hfits, hdata, hmowner, howned, hseqno, hsigner,
    hwritable, heq, hposition, hi⟩

theorem approve_ne_panicked (h : Represents rt w)
    (hfew : ∀ m, ownerChanges m w.history < 2 ^ 32) {accounts : List AccountInfo}
    (hrole : argsInRole w.registry .approveTransaction accounts = true) (L' : Ledger) :
    approveTransaction rt.programId accounts w.ledger ≠ .error .panicked L' := by
  intro hpanicked
  obtain ⟨m, t, approver, rest, multisig, transaction, i, rfl, hmultisig, htransaction,
    hvalidate, hposition, hle⟩ := position_of_panicked hpanicked
  have howner := List.mem_of_getElem? (ownerPosition_eq_some_iff.mp hposition).1
  obtain ⟨-, j, hj, hvalid⟩ :=
    approve_in_range h hrole hmultisig htransaction hvalidate howner (hfew m.key)
  obtain rfl : j = i := Option.some.inj (hvalid.position.symm.trans hposition)
  omega

end Bounds

/-- While no multisig has had 2 ^ 32 owner changes and none was closed at the end of an
execution, an approval that passes `validate` and comes from an owner finds as many flags
as owners: it sets one and succeeds.  No approval panics, and an execution counts one flag
for each current owner. -/
theorem approval_index_in_range {rt : Runtime} {c : Config rt} (h : RolesKeptConfig rt c)
    (hfew : ∀ m, ownerChanges m c.world.history < 2 ^ 32) :
    (∀ m t approver rest multisig transaction,
      argsInRole c.world.registry .approveTransaction (m :: t :: approver :: rest) = true →
      Multisig.checkedDeserialize (c.world.ledger m.key).data = .ok multisig →
      Transaction.checkedDeserialize (c.world.ledger t.key).data = .ok transaction →
      ApproveTransaction.validate rt.programId multisig transaction approver t m
        c.world.ledger = .ok () c.world.ledger →
      approver.key ∈ multisig.owners →
      transaction.signers.length = multisig.owners.length ∧
        ∃ i, ownerPosition multisig.owners approver.key = some i ∧
          i < transaction.signers.length ∧
          ∃ L', approveTransaction rt.programId (m :: t :: approver :: rest)
            c.world.ledger = .ok () L') ∧
    (∀ accounts, argsInRole c.world.registry .approveTransaction accounts = true →
      ∀ L', approveTransaction rt.programId accounts c.world.ledger ≠
        .error .panicked L') ∧
    ∀ validated executor rest,
      argsInRole c.world.registry .executeTransaction (validated.multisigAccount ::
        validated.multisigSigner :: validated.transactionAccount :: validated.refundee ::
          executor :: rest) = true →
      ExecuteTransaction.Ready rt rt.programId c.world.ledger validated executor →
      validated.transaction.signers.length = validated.multisig.owners.length := by
  have hrepresents := represents_of_config h
  refine ⟨?_, ?_, ?_⟩
  · intro m t approver rest multisig transaction hrole hmultisig htransaction hvalidate howner
    obtain ⟨hlength, i, hi, hvalid⟩ := approve_in_range hrepresents hrole hmultisig
      htransaction hvalidate howner (hfew m.key)
    exact ⟨hlength, i, hvalid.position, hi, _, approveTransaction_eq_ok_iff.mpr
      ⟨m, t, approver, rest, multisig, transaction, i, rfl, hvalid, rfl⟩⟩
  · intro accounts hrole
    exact approve_ne_panicked hrepresents hfew hrole
  · intro validated executor rest hrole hready
    exact signers_length_of_opened hrepresents (multisig_role_of_args hrole rfl)
      (transaction_role_of_args hrole rfl) (opened_of_ready hready) hready.seqno (hfew _)

/-- The third owner approves the sample proposal. -/
theorem approval_index_in_range_sample : ∃ i L',
    ownerPosition [keyOf 11, keyOf 12, keyOf 13] (keyOf 13) = some i ∧ i < 3 ∧
    approveTransaction localRuntime.programId
      [readonly (keyOf 20), writable (keyOf 30), signer (keyOf 13)]
      sampleConfig.world.ledger = .ok () L' := by
  have hfew : ∀ m, ownerChanges m sampleConfig.world.history < 2 ^ 32 :=
    fun m => Nat.lt_of_le_of_lt List.countP_le_length (by decide +kernel)
  obtain ⟨-, i, hposition, hi, L', hrun⟩ := (approval_index_in_range sampleConfig_rolesKept
    hfew).1 (readonly (keyOf 20)) (writable (keyOf 30)) (signer (keyOf 13)) []
    ⟨[keyOf 11, keyOf 12, keyOf 13], 2, 5, 0, []⟩
    ⟨keyOf 20, [⟨keyOf 99, [], [1, 2, 3]⟩], [true, true, false], 0⟩
    (by decide +kernel) (by decide +kernel) (by decide +kernel)
    (ApproveTransaction.validate_eq_ok_iff.mpr
      ⟨by decide +kernel, by decide +kernel, rfl, rfl, rfl, rfl, rfl⟩) (by decide)
  exact ⟨i, L', hposition, hi, hrun⟩

/-- The third owner of the new multisig at key 30 finds the two flags of the old one. -/
theorem approval_panics : InRoleConfig localRuntime renewedSample ∧
    (∀ m, ownerChanges m renewedSample.world.history < 2 ^ 32) ∧
    argsInRole renewedSample.world.registry .approveTransaction
      (renewedApproval (keyOf 13)) = true ∧
    ∃ multisig transaction,
      Multisig.checkedDeserialize (renewedSample.world.ledger (keyOf 30)).data =
        .ok multisig ∧
      Transaction.checkedDeserialize (renewedSample.world.ledger (keyOf 31)).data =
        .ok transaction ∧
      ApproveTransaction.validate localRuntime.programId multisig transaction
        (signer (keyOf 13)) (writable (keyOf 31)) (readonly (keyOf 30))
        renewedSample.world.ledger = .ok () renewedSample.world.ledger ∧
      keyOf 13 ∈ multisig.owners ∧
      transaction.signers.length < multisig.owners.length ∧
      verdict (approveTransaction localRuntime.programId (renewedApproval (keyOf 13)))
        renewedSample.world.ledger = .error .panicked := by
  obtain ⟨hrole, htransaction, howner, howned, hpanics⟩ :
      argsInRole renewedSample.world.registry .approveTransaction
        (renewedApproval (keyOf 13)) = true ∧
      Transaction.checkedDeserialize (renewedSample.world.ledger (keyOf 31)).data =
        .ok ⟨keyOf 30, [storedNote], [true, true], 0⟩ ∧
      (renewedSample.world.ledger (readonly (keyOf 30)).key).owner =
        localRuntime.programId ∧
      (renewedSample.world.ledger (writable (keyOf 31)).key).owner =
        localRuntime.programId ∧
      verdict (approveTransaction localRuntime.programId (renewedApproval (keyOf 13)))
        renewedSample.world.ledger = .error .panicked := by
    decide +kernel
  refine ⟨renewedSample_inRole, renewedSample_few, hrole, _, _, renewedSample_multisig,
    htransaction, ?_, by decide, by decide, hpanics⟩
  exact ApproveTransaction.validate_eq_ok_iff.mpr ⟨howner, howned, rfl, rfl, rfl, rfl, rfl⟩

end MultisigNative.Properties
