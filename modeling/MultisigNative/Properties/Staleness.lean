import MultisigNative.Properties.Reconfiguration

/-!
An owner change puts an end to every proposal that was open before it, and
nothing else does.
-/

namespace MultisigNative.Properties

open Library.StateError
open Solana
open State
open Instructions
open Processor
open MultisigNative.System
open LocalRuntime

section Stale

variable {rt : Runtime} {w : World} {m t : Pubkey} {g : Group} {p : Proposal}

/-- The counters stored in a proposal and in its multisig tell their epochs
apart as long as the counter has not wrapped. -/
theorem seqno_ne_of_epoch_lt {multisig : Multisig} {transaction : Transaction}
    (hmultisig : multisig.ownerSetSeqno = UInt32.ofNat g.epoch)
    (htransaction : transaction.ownerSetSeqno = UInt32.ofNat p.epoch)
    (hlt : p.epoch < g.epoch) (hbound : g.epoch < 2 ^ 32) :
    multisig.ownerSetSeqno ≠ transaction.ownerSetSeqno := by
  intro heq
  have hepoch := epoch_eq_of_seqno_eq hmultisig htransaction heq hbound (by omega)
  omega

/-- So whatever decodes at a stale proposal and at its multisig disagrees. -/
theorem seqno_ne_of_stale (hheld : Held rt w) (hg : w.registry m = .multisig g)
    (hp : w.registry t = .proposal p) (hm : p.multisig = m) (hlt : p.epoch < g.epoch)
    (hbound : g.epoch < 2 ^ 32) {k : Pubkey} {multisig : Multisig}
    {transaction : Transaction}
    (hdata : (w.ledger t).data = Transaction.format.encode transaction)
    (hfits : Transaction.format.fits transaction = true)
    (hmultisigData : (w.ledger k).data = Multisig.format.encode multisig)
    (hmultisigFits : Multisig.format.fits multisig = true)
    (hk : transaction.multisig = k) :
    multisig.ownerSetSeqno ≠ transaction.ownerSetSeqno := by
  obtain ⟨_, hproposal⟩ := hheld.exists_transaction hp
  obtain rfl := hproposal.eq_of_data hdata hfits
  obtain rfl : m = k := by rw [← hm, ← hproposal.multisig, hk]
  obtain ⟨_, hmultisig⟩ := hheld.exists_multisig hg
  obtain rfl := hmultisig.eq_of_data hmultisigData hmultisigFits
  exact seqno_ne_of_epoch_lt hmultisig.seqno hproposal.seqno hlt hbound

theorem approve_fails_of_stale (hheld : Held rt w) (hg : w.registry m = .multisig g)
    (hp : w.registry t = .proposal p) (hm : p.multisig = m) (hlt : p.epoch < g.epoch)
    (hbound : g.epoch < 2 ^ 32) {accounts : List AccountInfo}
    (ht : transactionArg .approveTransaction accounts = some t) (L' : Ledger) :
    approveTransaction rt.programId accounts w.ledger ≠ .ok () L' := by
  intro hok
  obtain ⟨info, t', approver, rest, multisig, transaction, i, rfl, hvalid, -⟩ :=
    approveTransaction_eq_ok_iff.mp hok
  obtain rfl : t'.key = t := Option.some.inj ht
  exact seqno_ne_of_stale hheld hg hp hm hlt hbound hvalid.data hvalid.fits
    hvalid.multisig_data hvalid.multisig_fits hvalid.multisig_eq hvalid.seqno

theorem execute_fails_of_stale (hheld : Held rt w) (hg : w.registry m = .multisig g)
    (hp : w.registry t = .proposal p) (hm : p.multisig = m) (hlt : p.epoch < g.epoch)
    (hbound : g.epoch < 2 ^ 32) {accounts : List AccountInfo}
    (ht : transactionArg .executeTransaction accounts = some t)
    (validated : ValidatedAccounts) (L' : Ledger) :
    ExecuteTransaction.validate rt rt.programId accounts w.ledger ≠
      .ok validated L' := by
  intro hok
  obtain ⟨executor, rest, rfl, hvalid, -⟩ :=
    ExecuteTransaction.validate_eq_ok_iff.mp hok
  obtain rfl : validated.transactionAccount.key = t := Option.some.inj ht
  exact seqno_ne_of_stale hheld hg hp hm hlt hbound hvalid.data hvalid.fits
    hvalid.multisig_data hvalid.multisig_fits hvalid.multisig_eq hvalid.seqno

end Stale

section Kept

variable {rt : Runtime} {w w' : World} {label : Label rt} {m t : Pubkey} {g : Group}

theorem proposal_epoch_kept (h : Held rt w) (heffect : Effect rt w label w')
    (hrole : label.keepsRoles w.registry = true) {p p' : Proposal}
    (hp : w.registry t = .proposal p) (hp' : w'.registry t = .proposal p')
    (hbirth : p'.birth = p.birth) : p'.epoch = p.epoch := by
  rcases h.enabled heffect hrole with hsame | ⟨event, hhistory, -⟩
  · rw [World.registry, hsame] at hp'
    obtain rfl := Occupant.proposal.inj (hp'.symm.trans hp)
    rfl
  · rw [World.registry, hhistory, replay_cons] at hp'
    change replay w.history t = .proposal p at hp
    have hold := birth_lt_of_replay hp
    rcases Event.apply_eq_proposal hp' with ⟨-, -, hnew⟩ | ⟨_, _, q, hq, -, rfl⟩ | ⟨hq, -⟩
    · omega
    · obtain rfl := Occupant.proposal.inj (hq.symm.trans hp)
      rfl
    · obtain rfl := Occupant.proposal.inj (hq.symm.trans hp)
      rfl

theorem transaction_seqno_kept (h : Held rt w) (h' : Held rt w')
    (heffect : Effect rt w label w') (hrole : label.keepsRoles w.registry = true)
    {p p' : Proposal} (hp : w.registry t = .proposal p)
    (hp' : w'.registry t = .proposal p') (hbirth : p'.birth = p.birth) :
    ∃ transaction transaction',
      Transaction.checkedDeserialize (w.ledger t).data = .ok transaction ∧
      Transaction.checkedDeserialize (w'.ledger t).data = .ok transaction' ∧
      transaction'.ownerSetSeqno = transaction.ownerSetSeqno := by
  obtain ⟨transaction, hproposal⟩ := h.exists_transaction hp
  obtain ⟨transaction', hproposal'⟩ := h'.exists_transaction hp'
  refine ⟨transaction, transaction', ?_, ?_, ?_⟩
  · exact hproposal.decodes
  · exact hproposal'.decodes
  · rw [hproposal.seqno, hproposal'.seqno,
      proposal_epoch_kept h heffect hrole hp hp' hbirth]

theorem multisig_seqno_kept (h : Held rt w) (heffect : Effect rt w label w')
    (hrole : label.keepsRoles w.registry = true) (hg : w.registry m = .multisig g)
    (hother : ownerChanges m w'.history = ownerChanges m w.history) :
    ∃ multisig multisig',
      Multisig.checkedDeserialize (w.ledger m).data = .ok multisig ∧
      Multisig.checkedDeserialize (w'.ledger m).data = .ok multisig' ∧
      multisig'.ownerSetSeqno = multisig.ownerSetSeqno := by
  obtain ⟨multisig, hholds⟩ := h.exists_multisig hg
  have hdecode : Multisig.checkedDeserialize (w.ledger m).data = .ok multisig :=
    hholds.decodes
  rcases h.multisig_step heffect hrole hg hholds with
    ⟨-, hkept, -⟩ | ⟨info, s, rest, instruction, written, event, -, rfl, -, hchange,
      hfits, rfl⟩
  · refine ⟨multisig, multisig, hdecode, ?_, rfl⟩
    rw [(hkept.owned hholds.owner hholds.funded).2.1]
    exact hdecode
  · refine ⟨multisig, written, hdecode, ?_, ?_⟩
    · simp only [writeData_self]
      exact Multisig.checkedDeserialize_encode hfits
    · cases hchange with
      | setOwners => simp [ownerChanges, Event.changesOwnersOf] at hother
      | changeThreshold => rfl
      | setOwnersAndChangeThreshold =>
          simp [ownerChanges, Event.changesOwnersOf] at hother

end Kept

/-- As long as no execution closes a multisig at its end: once the owners of `m` were
changed, no proposal of `m` that was open then can be approved or executed any more.
Every other step leaves the counter of `m` as it is, and every step those of its open
proposals. -/
theorem stale_proposals_dead {rt : Runtime} {c : Config rt} (h : RolesKeptConfig rt c)
    {m : Pubkey} (hfew : ownerChanges m c.world.history < 2 ^ 32) :
    (∀ later mid older owners t signers instructions,
      c.world.history = later ++ .ownersChanged m owners ::
        (mid ++ .proposed m t signers instructions :: older) →
      (∀ event ∈ later ++ mid, event.closes t = false) →
      ∀ accounts,
        (transactionArg .approveTransaction accounts = some t →
          ∀ L', approveTransaction rt.programId accounts c.world.ledger ≠ .ok () L') ∧
        (transactionArg .executeTransaction accounts = some t →
          ∀ validated L', ExecuteTransaction.validate rt rt.programId accounts
            c.world.ledger ≠ .ok validated L')) ∧
    ∀ action c', keepsRoles c action = true → step c action = some c' →
      action ≠ .rollback →
      (∀ g, c.world.registry m = .multisig g →
        ownerChanges m c'.world.history = ownerChanges m c.world.history →
        ∃ multisig multisig',
          Multisig.checkedDeserialize (c.world.ledger m).data = .ok multisig ∧
          Multisig.checkedDeserialize (c'.world.ledger m).data = .ok multisig' ∧
          multisig'.ownerSetSeqno = multisig.ownerSetSeqno) ∧
      ∀ t p p', c.world.registry t = .proposal p → p.multisig = m →
        c'.world.registry t = .proposal p' → p'.birth = p.birth →
        ∃ transaction transaction',
          Transaction.checkedDeserialize (c.world.ledger t).data = .ok transaction ∧
          Transaction.checkedDeserialize (c'.world.ledger t).data = .ok transaction' ∧
          transaction'.ownerSetSeqno = transaction.ownerSetSeqno := by
  have hrepresents := represents_of_config h
  constructor
  · intro later mid older owners t signers instructions hhistory hopen
    have hlawful := hrepresents.lawful
    rw [hhistory] at hlawful
    obtain ⟨p, g, hp, hm, hg, hlt⟩ := stale_of_changed hlawful hopen
    rw [← hhistory] at hp hg
    have hbound : g.epoch < 2 ^ 32 :=
      Nat.lt_of_le_of_lt (epoch_le_ownerChanges hg) hfew
    intro accounts
    exact ⟨approve_fails_of_stale hrepresents.held hg hp hm hlt hbound,
      execute_fails_of_stale hrepresents.held hg hp hm hlt hbound⟩
  · intro action c' hrole hstep hforward
    have hrepresents' := represents_of_config (h.next hrole hstep)
    rcases step_cases hstep with ⟨label, hplan, hperform, -⟩ | ⟨-, -, rfl⟩ | ⟨rfl, -⟩
    · have heffect := perform_effect hperform
      have hlabel := keepsRoles_of_planned hrole hplan
      constructor
      · intro g hg hother
        exact multisig_seqno_kept hrepresents.held heffect hlabel hg hother
      · intro t p p' hp _ hp' hbirth
        exact transaction_seqno_kept hrepresents.held hrepresents'.held heffect hlabel hp
          hp' hbirth
    · have hidle : Effect rt c.world .idle c.world := .idle
      constructor
      · intro g hg hother
        exact multisig_seqno_kept hrepresents.held hidle rfl hg hother
      · intro t p p' hp _ hp' hbirth
        exact transaction_seqno_kept hrepresents.held hrepresents.held hidle rfl hp hp'
          hbirth
    · exact absurd rfl hforward

/-- The call by which the sample multisig hands itself to 12 and 11. -/
def sampleHandover : TransactionInstructionData where
  programId := localRuntime.programId
  accounts := [⟨keyOf 20, false, true⟩, ⟨samplePda, true, false⟩]
  data := MultisigInstruction.format.encode (.setOwners ⟨[keyOf 12, keyOf 11]⟩)

/-- The owners change while a proposal of 11 is open at key 31. -/
def sampleChanged : Config localRuntime :=
  (localRun [keyOf 11] (sampleActions [sampleHandover] ++
    [localCall [readonly (keyOf 20), signer (keyOf 31), signer (keyOf 11),
        signer (keyOf 11), readonly systemProgram]
        (.proposeTransaction ⟨[⟨keyOf 99, [], []⟩]⟩),
      localCall sampleExecuteAccounts .executeTransaction, .invoke, .finish,
      .commit])).get (by decide +kernel)

theorem sampleChanged_rolesKept : RolesKeptConfig localRuntime sampleChanged :=
  rolesKept_of_localRun (Option.some_get _).symm

theorem stale_proposals_dead_sample :
    (∀ L', approveTransaction localRuntime.programId
        [readonly (keyOf 20), writable (keyOf 31), signer (keyOf 12)]
        sampleChanged.world.ledger ≠ .ok () L') ∧
      ∀ validated L', ExecuteTransaction.validate localRuntime localRuntime.programId
        [writable (keyOf 20), readonly samplePda, writable (keyOf 31),
          writable (keyOf 11), signer (keyOf 12)] sampleChanged.world.ledger ≠
        .ok validated L' := by
  have hfew : ownerChanges (keyOf 20) sampleChanged.world.history < 2 ^ 32 := by
    decide +kernel
  have hhistory : sampleChanged.world.history =
      [.executed (keyOf 20) (keyOf 30) (some 1)] ++
        .ownersChanged (keyOf 20) [keyOf 12, keyOf 11] ::
        ([] ++ .proposed (keyOf 20) (keyOf 31) [keyOf 31, keyOf 11, keyOf 11]
          [⟨keyOf 99, [], []⟩] :: sampleChanged.world.history.drop 3) := by
    decide +kernel
  have hdead := (stale_proposals_dead sampleChanged_rolesKept hfew).1 _ _ _ _ _ _ _ hhistory
    (by decide +kernel)
  exact ⟨(hdead _).1 rfl, (hdead _).2 rfl⟩

/-- The new multisig at key 30 counts its owner changes from zero again, so that the
proposal at 31, older than a change of the owners of 30, matches it. -/
theorem stale_proposal_accepted : InRoleConfig localRuntime renewedSample ∧
    ownerChanges (keyOf 30) renewedSample.world.history < 2 ^ 32 ∧
    (∃ later mid older, renewedSample.world.history =
        later ++ .ownersChanged (keyOf 30) [keyOf 11] ::
          (mid ++ .proposed (keyOf 30) (keyOf 31) [keyOf 31, keyOf 11, keyOf 11]
            [storedNote] :: older) ∧
      ∀ event ∈ later ++ mid, event.closes (keyOf 31) = false) ∧
    argsInRole renewedSample.world.registry .approveTransaction
      (renewedApproval (keyOf 12)) = true ∧
    (∃ L', approveTransaction localRuntime.programId (renewedApproval (keyOf 12))
      renewedSample.world.ledger = .ok () L') ∧
    argsInRole renewedSample.world.registry .executeTransaction renewedExecution = true ∧
    ∃ validated L', ExecuteTransaction.validate localRuntime localRuntime.programId
      renewedExecution renewedSample.world.ledger = .ok validated L' := by
  obtain ⟨hhistory, hopen, happroves, happroved, hexecutes, haccepted⟩ :
      renewedSample.world.history = renewedSample.world.history.take 4 ++
        .ownersChanged (keyOf 30) [keyOf 11] ::
          ((renewedSample.world.history.drop 5).take 2 ++
            .proposed (keyOf 30) (keyOf 31) [keyOf 31, keyOf 11, keyOf 11] [storedNote] ::
              renewedSample.world.history.drop 8) ∧
      (∀ event ∈ renewedSample.world.history.take 4 ++
        (renewedSample.world.history.drop 5).take 2, event.closes (keyOf 31) = false) ∧
      argsInRole renewedSample.world.registry .approveTransaction
        (renewedApproval (keyOf 12)) = true ∧
      succeeds (approveTransaction localRuntime.programId (renewedApproval (keyOf 12)))
        renewedSample.world.ledger = true ∧
      argsInRole renewedSample.world.registry .executeTransaction renewedExecution = true ∧
      succeeds (ExecuteTransaction.validate localRuntime localRuntime.programId
        renewedExecution) renewedSample.world.ledger = true := by
    decide +kernel
  obtain ⟨_, L', hrun⟩ := succeeds_eq_true_iff.mp happroved
  exact ⟨renewedSample_inRole, renewedSample_few _, ⟨_, _, _, hhistory, hopen⟩, happroves,
    ⟨L', hrun⟩, hexecutes, succeeds_eq_true_iff.mp haccepted⟩

end MultisigNative.Properties
