import MultisigNative.Properties.Quorum
import MultisigNative.System.Authority

/-!
The annotations of the instructions say what has to be passed: no call is accepted
without the privileges that they ask for.
-/

namespace MultisigNative.Properties

open Library.StateError
open Solana
open State
open Instructions
open Processor
open MultisigNative.System
open LocalRuntime

/-- The privileges of an account that is passed twice are those of both places. -/
def merged (accounts : List AccountInfo) : List AccountInfo :=
  accounts.map fun info =>
    ⟨info.key, isSignerIn accounts info.key, isWritableIn accounts info.key⟩

section Writing

variable {rt : Runtime} {w w' : World} {instruction : MultisigInstruction}
  {accounts rest : List AccountInfo} {m s : AccountInfo} {L L' : Ledger}

theorem isSignerIn_of_mem (hmem : m ∈ accounts) (hsigner : m.isSigner = true) :
    isSignerIn accounts m.key = true :=
  isSignerIn_iff.mpr ⟨m, hmem, rfl, hsigner⟩

theorem isWritableIn_of_mem (hmem : m ∈ accounts) (hwritable : m.isWritable = true) :
    isWritableIn accounts m.key = true :=
  List.any_eq_true.mpr ⟨m, hmem, by simp [hwritable]⟩

/-- Merging takes no privilege away. -/
theorem annotated_merged {roles : List AnnotatedAccount}
    (h : annotated roles accounts = true) : annotated roles (merged accounts) = true := by
  have hall : ∀ {part : List AccountInfo}, (∀ info ∈ part, info ∈ accounts) →
      annotated roles part = true → annotated roles (part.map fun info =>
        ⟨info.key, isSignerIn accounts info.key, isWritableIn accounts info.key⟩) = true := by
    clear h
    induction roles with
    | nil =>
        intro part _ _
        rw [annotated]
    | cons role roles ih =>
        intro part hpart h
        cases part with
        | nil => cases h
        | cons info part =>
            rw [List.forall_mem_cons] at hpart
            simp only [annotated, List.map_cons, Bool.and_eq_true, Bool.or_eq_true] at h ⊢
            exact ⟨⟨h.1.1.imp id (isWritableIn_of_mem hpart.1),
              h.1.2.imp id (isSignerIn_of_mem hpart.1)⟩, ih hpart.2 h.2⟩
  exact hall (fun _ hmem => hmem) h

/-- A program changes only what it was passed as writable. -/
theorem isWritableIn_of_changed (hallowed : effectAllowed rt accounts L L' = true)
    (hmem : m ∈ accounts) (hchanged : L' m.key ≠ L m.key) :
    isWritableIn accounts m.key = true := by
  have hchange := List.all_eq_true.mp hallowed m hmem
  simp only [changeAllowed, Bool.or_eq_true, Bool.and_eq_true, beq_iff_eq, hchanged,
    false_or] at hchange
  exact hchange.1

theorem annotated_configured
    (hallowed : effectAllowed rt (m :: s :: rest) L L' = true)
    (hchanged : L' m.key ≠ L m.key) (hsigner : s.isSigner = true) :
    annotated [⟨"multisig", true, false⟩, ⟨"multisig_signer", false, true⟩]
      (merged (m :: s :: rest)) = true := by
  have hwritable := isWritableIn_of_changed hallowed (by simp) hchanged
  have hsigns : isSignerIn (m :: s :: rest) s.key = true :=
    isSignerIn_of_mem (by simp) hsigner
  simp [annotated, merged, hwritable, hsigns]

/-- An owner change always changes the counter. -/
theorem changed_of_seqno {multisig written : Multisig}
    (hsigned : SignedMultisig rt rt.programId L m s multisig)
    (hseqno : written.ownerSetSeqno = multisig.ownerSetSeqno + 1)
    (hfits : Multisig.format.fits written = true) :
    writeData L m.key (Multisig.format.encode written) m.key ≠ L m.key := by
  intro hsame
  rw [writeData_self] at hsame
  have hdata := congrArg Account.data hsame
  rw [hsigned.data] at hdata
  obtain rfl := Multisig.format.encode_injective hfits hsigned.fits hdata
  have htoNat := congrArg UInt32.toNat hseqno
  have hlt := written.ownerSetSeqno.toNat_lt
  rw [UInt32.toNat_add] at htoNat
  simp only [UInt32.toNat_one] at htoNat
  omega

end Writing

/-- Whatever is called in whatever state: a call that is accepted passes as many accounts
as its annotations list, which together have the privileges that they ask for.  Only a
`change_threshold` that changes nothing may pass its multisig as read-only. -/
theorem annotations_required {rt : Runtime} {w w' : World}
    {instruction : MultisigInstruction} {accounts : List AccountInfo}
    (hperform : perform rt w (labelOf accounts instruction) = some w')
    (hchanges : ∀ data, instruction = .changeThreshold data → w'.ledger ≠ w.ledger) :
    annotated instruction.annotations (merged accounts) = true := by
  cases instruction with
  | createMultisig data =>
      obtain ⟨L', hrun, -⟩ := (perform_call_eq_some_iff (by simp)).mp hperform
      obtain ⟨m, s, payer, system, rest, rfl, -, hcreate⟩ := createMultisig_eq_ok_iff.mp hrun
      obtain ⟨mid, hcreated, -⟩ := apply_of_createAndSerialize hcreate
      apply annotated_merged
      simp [annotated, MultisigInstruction.annotations, hcreated.payer_isSigner,
        hcreated.payer_isWritable, hcreated.account_isSigner, hcreated.account_isWritable]
  | setOwners data =>
      obtain ⟨L', hrun, hallowed, -⟩ := (perform_call_eq_some_iff (by simp)).mp hperform
      obtain ⟨m, s, rest, multisig, rfl, hsigned, -, -, -, hfits, rfl⟩ := setOwners_effect hrun
      exact annotated_configured hallowed (changed_of_seqno hsigned rfl hfits)
        hsigned.isSigner
  | changeThreshold data =>
      obtain ⟨L', hrun, hallowed, rfl⟩ := (perform_call_eq_some_iff (by simp)).mp hperform
      obtain ⟨m, s, rest, multisig, rfl, hsigned, -, -, rfl⟩ := changeThreshold_effect hrun
      refine annotated_configured hallowed ?_ hsigned.isSigner
      intro hsame
      refine hchanges data rfl (funext fun k => ?_)
      by_cases hk : k = m.key
      · rw [hk]
        exact hsame
      · exact writeData_of_ne _ hk
  | setOwnersAndChangeThreshold data =>
      obtain ⟨L', hrun, hallowed, -⟩ := (perform_call_eq_some_iff (by simp)).mp hperform
      obtain ⟨m, s, rest, multisig, rfl, hsigned, -, -, -, -, -, hfits, rfl⟩ :=
        setOwnersAndChangeThreshold_effect hrun
      exact annotated_configured hallowed (changed_of_seqno hsigned rfl hfits)
        hsigned.isSigner
  | proposeTransaction data =>
      obtain ⟨L', hrun, -⟩ := (perform_call_eq_some_iff (by simp)).mp hperform
      obtain ⟨m, t, proposer, payer, system, rest, multisig, i, rfl, hvalid, hcreate⟩ :=
        proposeTransaction_eq_ok_iff.mp hrun
      obtain ⟨mid, hcreated, -⟩ := apply_of_createAndSerialize hcreate
      apply annotated_merged
      simp [annotated, MultisigInstruction.annotations, hvalid.isSigner,
        hcreated.payer_isSigner, hcreated.payer_isWritable, hcreated.account_isSigner,
        hcreated.account_isWritable]
  | approveTransaction =>
      obtain ⟨L', hrun, -⟩ := (perform_call_eq_some_iff (by simp)).mp hperform
      obtain ⟨m, t, approver, rest, multisig, transaction, i, rfl, hvalid, -⟩ :=
        approveTransaction_eq_ok_iff.mp hrun
      apply annotated_merged
      simp [annotated, MultisigInstruction.annotations, hvalid.isSigner, hvalid.isWritable]
  | executeTransaction =>
      simp only [labelOf, perform] at hperform
      split at hperform
      · rename_i validated L hvalidate
        obtain ⟨executor, rest, rfl, hvalid, -⟩ :=
          ExecuteTransaction.validate_eq_ok_iff.mp hvalidate
        apply annotated_merged
        simp [annotated, MultisigInstruction.annotations, hvalid.isSigner, hvalid.isWritable,
          hvalid.refundee_isWritable]
      · cases hperform
  | cancelTransaction =>
      obtain ⟨L', hrun, -⟩ := (perform_call_eq_some_iff (by simp)).mp hperform
      obtain ⟨m, t, refundee, executor, rest, multisig, transaction, rfl, hvalid, -⟩ :=
        cancelTransaction_eq_ok_iff.mp hrun
      apply annotated_merged
      simp [annotated, MultisigInstruction.annotations, hvalid.isSigner, hvalid.isWritable,
        hvalid.refundee_isWritable]

section LocalRuns

/-- The accounts with which 13 approves the sample proposal. -/
def sampleApproveAccounts : List AccountInfo :=
  [readonly (keyOf 20), writable (keyOf 30), signer (keyOf 13)]

theorem annotations_required_sample :
    (perform localRuntime sampleConfig.world
      (labelOf sampleApproveAccounts .approveTransaction)).isSome = true ∧
    annotated MultisigInstruction.approveTransaction.annotations
      (merged sampleApproveAccounts) = true := by
  have hsome : (perform localRuntime sampleConfig.world
      (labelOf sampleApproveAccounts .approveTransaction)).isSome = true := by
    decide +kernel
  obtain ⟨w', hperform⟩ := Option.isSome_iff_exists.mp hsome
  exact ⟨hsome, annotations_required hperform fun data hdata => by cases hdata⟩

end LocalRuns

end MultisigNative.Properties
