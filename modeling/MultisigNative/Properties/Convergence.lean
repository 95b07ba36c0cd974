import MultisigNative.Library.Flags
import MultisigNative.Properties.Quorum

/-!
Approvals commute: what a sequence of them leaves behind depends on who approved
which proposal, not on the order, the interleaving or the repetitions.
-/

namespace MultisigNative.Properties

open Library.Flags
open Solana
open State
open Instructions
open Processor
open MultisigNative.System
open LocalRuntime

/-- What an approval is about: the transaction account and the approver. -/
def approvalOf : List AccountInfo → Option (Pubkey × Pubkey)
  | _ :: transaction :: approver :: _ => some (transaction.key, approver.key)
  | _ => none

def approvalsOf (calls : List (List AccountInfo)) : List (Pubkey × Pubkey) :=
  calls.filterMap approvalOf

/-- Perform approvals in order, each of which succeeds and takes its accounts in
their roles. -/
def approveAll (rt : Runtime) (w : World) (calls : List (List AccountInfo)) :
    Option World :=
  Library.Transition.perform (System.perform rt) (fun w label => label.inRole w.registry) w
    (calls.map (Label.call .approveTransaction))

/-- The positions among `owners` of those who approved `t`. -/
def approverPositions (owners : List Pubkey) (approvals : List (Pubkey × Pubkey))
    (t : Pubkey) (i : Nat) : Prop :=
  ∃ approver, (t, approver) ∈ approvals ∧ ownerPosition owners approver = some i

/-- `after` is the account of the proposal at `t` with the flags of its approvers
set and nothing else changed. -/
structure Gathered (L : Ledger) (approvals : List (Pubkey × Pubkey)) (t : Pubkey)
    (after : Account) (multisig : Multisig) (transaction : Transaction)
    (signers : List Bool) : Prop where
  fits : Transaction.format.fits transaction = true
  data : (L t).data = Transaction.format.encode transaction
  multisig_fits : Multisig.format.fits multisig = true
  multisig_data : (L transaction.multisig).data = Multisig.format.encode multisig
  flags : Marked (approverPositions multisig.owners approvals t) transaction.signers signers
  account_eq : after =
    { L t with data := Transaction.format.encode { transaction with signers := signers } }

/-- What approvals have made of the ledger `L`. -/
structure GatheredAll (L : Ledger) (approvals : List (Pubkey × Pubkey)) (w : World) :
    Prop where
  isProposal : ∀ t approver, (t, approver) ∈ approvals → (w.registry t).isProposal = true
  untouched : ∀ k, (∀ approver, (k, approver) ∉ approvals) → w.ledger k = L k
  gathered : ∀ t approver, (t, approver) ∈ approvals → ∃ multisig transaction signers,
    Gathered L approvals t (w.ledger t) multisig transaction signers

section Approvals

variable {rt : Runtime} {L : Ledger} {w w' w₁ w₂ : World} {t : Pubkey} {after after' : Account}
  {approvals approvals' : List (Pubkey × Pubkey)} {calls calls' : List (List AccountInfo)}
  {multisig multisig' : Multisig} {transaction transaction' : Transaction}
  {signers signers' : List Bool}

theorem approverPositions_congr (owners : List Pubkey)
    (hsame : ∀ approver, (t, approver) ∈ approvals ↔ (t, approver) ∈ approvals') (i : Nat) :
    approverPositions owners approvals t i ↔ approverPositions owners approvals' t i := by
  simp only [approverPositions, hsame]

theorem approverPositions_append {owners : List Pubkey} {approver : Pubkey} {i : Nat}
    (hposition : ownerPosition owners approver = some i) (j : Nat) :
    approverPositions owners (approvals ++ [(t, approver)]) t j ↔
      approverPositions owners approvals t j ∨ j = i := by
  simp only [approverPositions, List.mem_append, List.mem_singleton, Prod.mk.injEq, true_and]
  constructor
  · rintro ⟨key, hmem | rfl, hkey⟩
    · exact .inl ⟨key, hmem, hkey⟩
    · rw [hposition] at hkey
      exact .inr (Option.some.inj hkey).symm
  · rintro (⟨key, hmem, hkey⟩ | rfl)
    · exact ⟨key, .inl hmem, hkey⟩
    · exact ⟨approver, .inr rfl, hposition⟩

theorem Gathered.signers_fits
    (h : Gathered L approvals t after multisig transaction signers) :
    Transaction.format.fits { transaction with signers := signers } = true := by
  have hfits := (Transaction.format_fits_iff _).mp h.fits
  rw [Transaction.format_fits_iff]
  exact ⟨hfits.1, h.flags.length_eq ▸ hfits.2⟩

/-- The approvals determine the account. -/
theorem Gathered.unique
    (h : Gathered L approvals t after multisig transaction signers)
    (h' : Gathered L approvals' t after' multisig' transaction' signers')
    (hsame : ∀ approver, (t, approver) ∈ approvals ↔ (t, approver) ∈ approvals') :
    after = after' := by
  obtain rfl := Transaction.format.encode_injective h.fits h'.fits (h.data.symm.trans h'.data)
  obtain rfl := Multisig.format.encode_injective h.multisig_fits h'.multisig_fits
    (h.multisig_data.symm.trans h'.multisig_data)
  obtain rfl := h.flags.unique h'.flags (approverPositions_congr _ hsame)
  rw [h.account_eq, h'.account_eq]

theorem gathered_of_none (hnone : ∀ approver, (t, approver) ∉ approvals)
    (hfits : Transaction.format.fits transaction = true)
    (hdata : (L t).data = Transaction.format.encode transaction)
    (hmfits : Multisig.format.fits multisig = true)
    (hmdata : (L transaction.multisig).data = Multisig.format.encode multisig) :
    Gathered L approvals t (L t) multisig transaction transaction.signers where
  fits := hfits
  data := hdata
  multisig_fits := hmfits
  multisig_data := hmdata
  flags := .refl (fun i ⟨approver, hmem, _⟩ => hnone approver hmem) _
  account_eq := by rw [← hdata]

theorem Gathered.approve {approver : Pubkey} {i : Nat}
    (h : Gathered L approvals t after multisig transaction signers)
    (hposition : ownerPosition multisig.owners approver = some i)
    (hi : i < signers.length) :
    Gathered L (approvals ++ [(t, approver)]) t
      { after with
        data := Transaction.format.encode
          (withSigner { transaction with signers := signers } i) }
      multisig transaction (signers.set i true) where
  fits := h.fits
  data := h.data
  multisig_fits := h.multisig_fits
  multisig_data := h.multisig_data
  flags := by
    rw [h.flags.length_eq] at hi
    exact h.flags.set hi (approverPositions_append hposition)
  account_eq := by
    rw [h.account_eq]
    rfl

/-- Approvals of other transactions do not matter. -/
theorem Gathered.congr
    (h : Gathered L approvals t after multisig transaction signers)
    (hsame : ∀ approver, (t, approver) ∈ approvals ↔ (t, approver) ∈ approvals') :
    Gathered L approvals' t after multisig transaction signers :=
  { h with
    flags :=
      { length_eq := h.flags.length_eq
        getElem?_iff := by
          intro i
          rw [h.flags.getElem?_iff, approverPositions_congr _ hsame] } }

/-- What a transaction that can be approved is, seen from the start. -/
theorem GatheredAll.before (h : GatheredAll L approvals w) {m t approver : AccountInfo}
    {i : Nat}
    (hvalid : ApproveTransaction.Valid rt.programId w.ledger m t approver multisig
      transaction i)
    (hmultisig : w.ledger m.key = L m.key) :
    ∃ transaction₀ signers,
      Gathered L approvals t.key (w.ledger t.key) multisig transaction₀ signers ∧
        transaction = { transaction₀ with signers := signers } := by
  by_cases hold : ∃ key, (t.key, key) ∈ approvals
  · rcases hold with ⟨key, hold⟩
    obtain ⟨multisig₀, transaction₀, signers, hgathered⟩ := h.gathered t.key key hold
    have hsame : transaction = { transaction₀ with signers := signers } := by
      refine Transaction.format.encode_injective hvalid.fits hgathered.signers_fits ?_
      rw [← hvalid.data, hgathered.account_eq]
    have hmdata := hvalid.multisig_data
    rw [hmultisig, ← hvalid.multisig_eq, hsame] at hmdata
    obtain rfl := Multisig.format.encode_injective hvalid.multisig_fits
      hgathered.multisig_fits (hmdata.symm.trans hgathered.multisig_data)
    exact ⟨transaction₀, signers, hgathered, hsame⟩
  · have hnone : ∀ key, (t.key, key) ∉ approvals := fun key hmem => hold ⟨key, hmem⟩
    have hsame := h.untouched t.key hnone
    refine ⟨transaction, transaction.signers, ?_, rfl⟩
    rw [hsame]
    refine gathered_of_none hnone hvalid.fits ?_ hvalid.multisig_fits ?_
    · rw [← hsame, hvalid.data]
    · rw [hvalid.multisig_eq, ← hmultisig, hvalid.multisig_data]

theorem GatheredAll.approve (h : GatheredAll L approvals w) (hheld : Held rt w)
    {accounts : List AccountInfo}
    (hrole : (Label.call .approveTransaction accounts : Label rt).inRole w.registry = true)
    (hperform : System.perform rt w (.call .approveTransaction accounts) = some w') :
    ∃ t approver, approvalOf accounts = some (t, approver) ∧
      GatheredAll L (approvals ++ [(t, approver)]) w' := by
  have hcall : MultisigInstruction.approveTransaction ≠ .executeTransaction := by simp
  obtain ⟨L', hrun, -, rfl⟩ := (perform_call_eq_some_iff hcall).mp hperform
  rw [runHandler_approveTransaction] at hrun
  obtain ⟨m, t, approver, rest, multisig, transaction, i, rfl, hvalid, rfl⟩ :=
    approveTransaction_eq_ok_iff.mp hrun
  obtain ⟨g, p, hg, -, hp, -, hm⟩ := hheld.approved hrole hvalid
  -- the multisig is no proposal, so nothing here has approved it
  have hmultisig : w.ledger m.key = L m.key := by
    refine h.untouched m.key ?_
    intro approver hmem
    have hproposal := h.isProposal _ _ hmem
    rw [hg] at hproposal
    cases hproposal
  refine ⟨t.key, approver.key, rfl, ?_, ?_, ?_⟩
  · intro k key hmem
    change (World.registry ⟨_, .approved m.key t.key _ :: w.history⟩ k).isProposal = true
    by_cases hk : k = t.key
    · subst hk
      rw [World.registry_cons]
      simp [Event.apply, hp, Occupant.approve, Occupant.isProposal]
    · rw [World.registry_of_ne _ hk]
      rcases List.mem_append.mp hmem with hold | hnew
      · exact h.isProposal k key hold
      · exact absurd (Prod.mk.inj (List.mem_singleton.mp hnew)).1 hk
  · intro k hnone
    have hk : k ≠ t.key := by
      rintro rfl
      exact hnone approver.key (by simp)
    change Function.update w.ledger t.key _ k = L k
    rw [Function.update_of_ne hk]
    refine h.untouched k ?_
    intro key hmem
    exact hnone key (List.mem_append_left _ hmem)
  · intro k key hmem
    change ∃ multisig' transaction' signers', Gathered L _ k
      (Function.update w.ledger t.key _ k) multisig' transaction' signers'
    by_cases hk : k = t.key
    · subst hk
      rw [Function.update_self]
      obtain ⟨transaction₀, signers, hgathered, rfl⟩ := h.before hvalid hmultisig
      exact ⟨multisig, transaction₀, signers.set i true,
        hgathered.approve hvalid.position hvalid.ownerIndex_lt⟩
    · rw [Function.update_of_ne hk]
      have hsame : ∀ key, (k, key) ∈ approvals ↔
          (k, key) ∈ approvals ++ [(t.key, approver.key)] := by
        intro key
        simp [hk]
      obtain ⟨multisig', transaction', signers', hgathered⟩ :=
        h.gathered k key ((hsame key).mpr hmem)
      exact ⟨multisig', transaction', signers', hgathered.congr hsame⟩

theorem gatheredAll_of_approveAll (hworld : InRoleWorld rt w) (h : GatheredAll L approvals w)
    (hcalls : approveAll rt w calls = some w') :
    GatheredAll L (approvals ++ approvalsOf calls) w' := by
  induction calls generalizing w approvals with
  | nil =>
      obtain rfl : w = w' := Option.some.inj hcalls
      rw [approvalsOf, List.filterMap_nil, List.append_nil]
      exact h
  | cons accounts calls ih =>
      simp only [approveAll, List.map_cons, Library.Transition.perform] at hcalls
      split at hcalls
      · rename_i hrole
        obtain ⟨mid, hmid, hrest⟩ := Option.bind_eq_some_iff.mp hcalls
        obtain ⟨t, approver, hof, happroved⟩ :=
          h.approve (held_of_inRole hworld) hrole hmid
        have hafter := ih (hworld.next hrole hmid) happroved hrest
        rw [List.append_assoc, List.singleton_append] at hafter
        rw [approvalsOf, List.filterMap_cons_some hof]
        exact hafter
      · cases hcalls

end Approvals

/-- Two sequences of successful approvals that are about the same pairs of a
transaction and an approver end in the same ledger.  In it each transaction has the
flags that it had and those of its approvers, and nothing else is changed. -/
theorem approvals_converge {rt : Runtime} {w w₁ w₂ : World} (h : InRoleWorld rt w)
    {calls calls' : List (List AccountInfo)} (hcalls : approveAll rt w calls = some w₁)
    (hcalls' : approveAll rt w calls' = some w₂)
    (hsame : ∀ approval, approval ∈ approvalsOf calls ↔ approval ∈ approvalsOf calls') :
    w₁.ledger = w₂.ledger ∧
      (∀ k, (∀ approver, (k, approver) ∉ approvalsOf calls) → w₁.ledger k = w.ledger k) ∧
      ∀ t approver, (t, approver) ∈ approvalsOf calls →
        ∃ multisig transaction transaction',
          Transaction.checkedDeserialize (w.ledger t).data = .ok transaction ∧
          Multisig.checkedDeserialize (w.ledger transaction.multisig).data =
            .ok multisig ∧
          Transaction.checkedDeserialize (w₁.ledger t).data = .ok transaction' ∧
          transaction'.multisig = transaction.multisig ∧
          transaction'.instructions = transaction.instructions ∧
          transaction'.ownerSetSeqno = transaction.ownerSetSeqno ∧
          transaction'.signers.length = transaction.signers.length ∧
          (∀ i : Nat, transaction'.signers[i]? = some true ↔
            transaction.signers[i]? = some true ∨
              approverPositions multisig.owners (approvalsOf calls) t i) ∧
          (w₁.ledger t).data.length = (w.ledger t).data.length ∧
          (w₁.ledger t).lamports = (w.ledger t).lamports ∧
          (w₁.ledger t).owner = (w.ledger t).owner := by
  have hstart : GatheredAll w.ledger [] w := by
    refine ⟨?_, fun _ _ => rfl, ?_⟩
    · intro t approver hmem
      cases hmem
    · intro t approver hmem
      cases hmem
  have hafter := gatheredAll_of_approveAll h hstart hcalls
  have hafter' := gatheredAll_of_approveAll h hstart hcalls'
  rw [List.nil_append] at hafter hafter'
  refine ⟨?_, hafter.untouched, ?_⟩
  · funext k
    by_cases hk : ∃ approver, (k, approver) ∈ approvalsOf calls
    · rcases hk with ⟨approver, hmem⟩
      obtain ⟨_, _, _, hgathered⟩ := hafter.gathered k approver hmem
      obtain ⟨_, _, _, hgathered'⟩ := hafter'.gathered k approver ((hsame _).mp hmem)
      exact hgathered.unique hgathered' fun _ => hsame _
    · have hnone : ∀ approver, (k, approver) ∉ approvalsOf calls :=
        fun approver hmem => hk ⟨approver, hmem⟩
      have hnone' : ∀ approver, (k, approver) ∉ approvalsOf calls' :=
        fun approver hmem => hk ⟨approver, (hsame _).mpr hmem⟩
      rw [hafter.untouched k hnone, hafter'.untouched k hnone']
  · intro t approver hmem
    obtain ⟨multisig, transaction, signers, hgathered⟩ := hafter.gathered t approver hmem
    refine ⟨multisig, transaction, { transaction with signers := signers }, ?_, ?_, ?_, rfl,
      rfl, rfl, hgathered.flags.length_eq, hgathered.flags.getElem?_iff, ?_, ?_, ?_⟩
    · exact Transaction.checkedDeserialize_eq_ok_iff.mpr ⟨hgathered.fits, hgathered.data⟩
    · exact Multisig.checkedDeserialize_eq_ok_iff.mpr
        ⟨hgathered.multisig_fits, hgathered.multisig_data⟩
    · rw [hgathered.account_eq]
      exact Transaction.checkedDeserialize_encode hgathered.signers_fits
    · rw [hgathered.account_eq, hgathered.data, Transaction.format_encode_length,
        Transaction.format_encode_length]
      simp only [Transaction.len, hgathered.flags.length_eq]
    · rw [hgathered.account_eq]
    · rw [hgathered.account_eq]

section LocalRuns

/-- The accounts with which an owner approves the sample proposal. -/
def sampleApproval (owner : Pubkey) : List AccountInfo :=
  [readonly (keyOf 20), writable (keyOf 30), signer owner]

theorem approvals_converge_sample : ∃ w₁ w₂,
    approveAll localRuntime sampleConfig.world
      [sampleApproval (keyOf 13), sampleApproval (keyOf 11)] = some w₁ ∧
    approveAll localRuntime sampleConfig.world
      [sampleApproval (keyOf 11), sampleApproval (keyOf 13), sampleApproval (keyOf 11)] =
        some w₂ ∧
    w₁.ledger = w₂.ledger := by
  obtain ⟨w₁, hcalls⟩ := Option.isSome_iff_exists.mp
    (show (approveAll localRuntime sampleConfig.world
      [sampleApproval (keyOf 13), sampleApproval (keyOf 11)]).isSome = true by decide +kernel)
  obtain ⟨w₂, hcalls'⟩ := Option.isSome_iff_exists.mp
    (show (approveAll localRuntime sampleConfig.world
      [sampleApproval (keyOf 11), sampleApproval (keyOf 13),
        sampleApproval (keyOf 11)]).isSome = true by decide +kernel)
  have hinRole := (rolesKeptWorld_of_config sampleConfig_rolesKept).1.inRole
  refine ⟨w₁, w₂, hcalls, hcalls', (approvals_converge hinRole hcalls hcalls' ?_).1⟩
  intro approval
  simp only [approvalsOf, List.filterMap_cons, List.filterMap_nil, sampleApproval, approvalOf,
    List.mem_cons, List.not_mem_nil, or_false]
  constructor
  · rintro (rfl | rfl)
    · exact .inr (.inl rfl)
    · exact .inl rfl
  · rintro (rfl | rfl | rfl)
    · exact .inr rfl
    · exact .inl rfl
    · exact .inr rfl

end LocalRuns

end MultisigNative.Properties
