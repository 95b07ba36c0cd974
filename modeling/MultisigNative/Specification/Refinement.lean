import MultisigNative.Specification.Rendering

/-!
What each successful step does to the board that the world stands for.
-/

namespace MultisigNative.Specification

open Library.Voting
open Solana
open State
open Instructions
open Processor
open MultisigNative.System
open MultisigNative.Properties

section Values

variable {c : Council}

theorem threshold_toNat (hquorum : c.quorum < 256) :
    (multisigOf c).threshold.toNat = c.quorum := by
  simp only [multisigOf, UInt8.toNat_ofNat']
  exact Nat.mod_eq_of_lt hquorum

/-- Owners and padding together have room for the first roster. -/
theorem multisigOf_capacity (c : Council) :
    32 * (multisigOf c).owners.length + (multisigOf c).padding.length = 32 * c.capacity := by
  have hle := c.roster_le
  simp only [multisigOf, List.length_replicate, PUBKEY_BYTES]
  omega

theorem newMultisig_eq {data : CreateMultisigInstruction} (hnodup : data.owners.Nodup)
    (hpos : 0 < data.threshold.toNat) (hle : data.threshold.toNat ≤ data.owners.length) :
    CreateMultisig.newMultisig data =
      multisigOf (.found data.owners data.threshold.toNat data.nonce hnodup hpos hle) := by
  simp [CreateMultisig.newMultisig, multisigOf, Committee.found]

theorem ofNat_succ (n : Nat) : UInt32.ofNat (n + 1) = UInt32.ofNat n + 1 := by
  simp

section Reform

variable {owners : List Pubkey} (hfits : Multisig.format.fits (multisigOf c) = true)
  (hcapacity : 32 * owners.length ≤
    32 * (multisigOf c).owners.length + (multisigOf c).padding.length)
include hfits hcapacity

/-- The reformed committee stores what `set_owners` writes, but for the threshold. -/
theorem withOwners_eq {quorum : Nat} (haccepts : c.Accepts owners quorum) :
    { withOwners (multisigOf c) owners with threshold := UInt8.ofNat quorum } =
      multisigOf (c.reform owners quorum haccepts) := by
  have hpadding := paddingLen_toNat hfits hcapacity
  rw [multisigOf_capacity] at hpadding
  simp only [withOwners, multisigOf, Committee.reform, ofNat_succ, Multisig.mk.injEq,
    true_and, PUBKEY_BYTES]
  change List.replicate (paddingLen (multisigOf c) owners).toNat 0 = _
  rw [hpadding, Nat.mul_sub]

end Reform

/-- With fewer than 256 owners the clamp is exact. -/
theorem clamped_threshold {owners : List Pubkey} (hquorum : c.quorum < 256)
    (hfew : owners.length < 256) :
    (withOwners (multisigOf c) owners).threshold =
      UInt8.ofNat (c.nextQuorum owners none) := by
  apply UInt8.toNat_inj.mp
  rw [withOwners_threshold_toNat, threshold_toNat hquorum, UInt8.toNat_ofNat',
    Committee.nextQuorum]
  omega

theorem newTransaction_eq {a : Pubkey} {k : Pubkey} {i : Nat}
    {data : ProposeTransactionInstruction} (hmember : k ∈ c.roster)
    (hpayload : data.instructions ≠ []) (hposition : c.roster[i]? = some k) :
    ProposeTransaction.newTransaction a (multisigOf c) i data =
      transactionOf (c.move a k data.instructions hmember hpayload) := by
  rw [transactionOf, c.ballot_move hmember hpayload hposition]
  rfl

theorem withSigner_eq {m : Petition} {k : Pubkey} {i : Nat} (hnodup : m.roster.Nodup)
    (hmember : k ∈ m.roster) (hposition : m.roster[i]? = some k) :
    withSigner (transactionOf m) i = transactionOf (m.support k hmember) := by
  simp only [transactionOf, m.ballot_support hnodup hmember hposition]
  rfl

end Values

/-- What a reconfiguration is to the board. -/
def configureDeed (m : Pubkey) : MultisigInstruction → Option Deed
  | .setOwners data => some (.reform m data.owners none)
  | .changeThreshold data => some (.adjust m data.threshold.toNat)
  | .setOwnersAndChangeThreshold data =>
      some (.reform m data.owners (some data.threshold.toNat))
  | _ => none

/-- What a step is to the board. -/
def deedOf {rt : Runtime} : Label rt → Option Deed
  | .call (.createMultisig data) (m :: _) =>
      some (.found m.key data.owners data.threshold.toNat data.nonce)
  | .call (.proposeTransaction data) (m :: t :: proposer :: _) =>
      some (.move m.key t.key proposer.key data.instructions)
  | .call .approveTransaction (m :: t :: approver :: _) =>
      some (.support m.key t.key approver.key)
  | .call .cancelTransaction (m :: t :: _ :: executor :: _) =>
      some (.withdraw m.key t.key executor.key)
  | .call instruction (m :: _) => configureDeed m.key instruction
  | .start (m :: _ :: t :: _ :: executor :: _) => some (.start m.key t.key executor.key)
  | .close e =>
      some (.finish e.validated.multisigAccount.key e.validated.transactionAccount.key)
  | _ => none

/-- The motions that are being carried out after the step. -/
def runningAfter {rt : Runtime} (running : List (Pubkey × Pubkey)) :
    Label rt → List (Pubkey × Pubkey)
  | .start (m :: _ :: t :: _) => (m.key, t.key) :: running
  | .close _ => running.tail
  | _ => running

/-- A committee is reconfigured while one of its motions is being carried out, and the
motion that ends is the innermost. -/
def Licensed {rt : Runtime} (s : Board) : Label rt → Prop
  | .call instruction (m :: _) =>
      configureDeed m.key instruction ≠ none → ∃ t, (m.key, t) ∈ s.running
  | .close e => s.running.head? =
      some (e.validated.multisigAccount.key, e.validated.transactionAccount.key)
  | _ => True

/-- `set_owners` gets a list whose length the cast to `u8` leaves as it is. -/
def clampsExactly {rt : Runtime} : Label rt → Bool
  | .call (.setOwners data) _ => decide (data.owners.length < 256)
  | _ => true

namespace Mirrors

variable {rt : Runtime} {w w' : World} {s s' : Board} {label : Label rt}

/-- A step that is about no account, or about one that is as the board has it. -/
theorem same (h : Mirrors rt w s) (heffect : Effect rt w label w')
    (hcounting : Counting rt w label) (hsubject : label.subject = none) :
    Mirrors rt w' s where
  represents := h.represents.effect heffect hcounting.1
  few := few_of_effect h.represents heffect hcounting h.few
  matched k := by
    rw [(heffect.frame (k := k) (by simp [hsubject])).2.1]
    exact h.matched k
  stores k := (h.stores k).kept (heffect.frame (k := k) (by simp [hsubject])).1
  coherent := h.coherent

/-- A step about one account, which becomes what the board puts there. -/
theorem put (h : Mirrors rt w s) (heffect : Effect rt w label w')
    (hcounting : Counting rt w label) {k : Pubkey} {entry : Entry}
    (hsubject : label.subject = some k) (hitem : s'.item = (s.put k entry).item)
    (hmatches : Matches (w'.registry k) entry) (hstores : Stores rt (w'.ledger k) entry)
    (hcoherent : s'.Coherent) : Mirrors rt w' s' where
  represents := h.represents.effect heffect hcounting.1
  few := few_of_effect h.represents heffect hcounting h.few
  matched k' := by
    rw [hitem]
    by_cases hk : k' = k
    · subst hk
      rw [Assembly.put_item_self]
      exact hmatches
    · rw [Assembly.put_item_of_ne _ _ _ hk,
        (heffect.frame (by rw [hsubject]; simpa using Ne.symm hk)).2.1]
      exact h.matched k'
  stores k' := by
    rw [hitem]
    by_cases hk : k' = k
    · subst hk
      rw [Assembly.put_item_self]
      exact hstores
    · rw [Assembly.put_item_of_ne _ _ _ hk]
      exact (h.stores k').kept
        (heffect.frame (by rw [hsubject]; simpa using Ne.symm hk)).1
  coherent := hcoherent

section Steps

variable (h : Mirrors rt w s)
include h

theorem created {m s₀ payer system : AccountInfo} {data : CreateMultisigInstruction}
    {L' : Ledger} (hvalid : CreateMultisig.Valid rt rt.programId m s₀ system data)
    (hfits : Multisig.format.fits (CreateMultisig.newMultisig data) = true)
    (hinit : Initialised rt payer m
      (Multisig.format.encode (CreateMultisig.newMultisig data)) w.ledger L') :
    ∃ c : Council, Step s (.found m.key data.owners data.threshold.toNat data.nonce)
        (s.put m.key (.committee c)) ∧
      Matches (.multisig ⟨data.owners, data.nonce, data.owners.length, 0⟩)
        (.committee c) ∧
      Stores rt (L' m.key) (.committee c) := by
  have hle := Nat.le_trans hvalid.threshold_le (Nat.mod_le _ _)
  have hvacant := h.item_vacant (h.represents.held.occupied.vacant_of_unused hinit.unused)
  refine ⟨_, .found hvacant hvalid.nodup hvalid.threshold_pos hle,
    ⟨rfl, data.threshold.toNat_lt⟩, ?_⟩
  rw [hinit.account_eq]
  refine ⟨rfl, rt.minimumBalance_pos _, ?_⟩
  rw [Multisig.checkedDeserialize_encode hfits,
    newMultisig_eq hvalid.nodup hvalid.threshold_pos hle]

/-- The three reconfigurations are reforms and adjustments, if the clamp is exact. -/
theorem configured {m : AccountInfo} {instruction : MultisigInstruction}
    {multisig written : Multisig} {event : Event} {g : Group} {t : Pubkey}
    (hg : w.registry m.key = .multisig g)
    (hholds : HoldsMultisig rt m.key (w.ledger m.key) g multisig)
    (hchange : Reconfigures m.key multisig instruction written event)
    (hfits : Multisig.format.fits written = true)
    (hclamps : ∀ data, instruction = .setOwners data → data.owners.length < 256)
    (hrunning : (m.key, t) ∈ s.running) :
    ∃ (deed : Deed) (c : Council), configureDeed m.key instruction = some deed ∧
      Step s deed (s.put m.key (.committee c)) ∧
      Matches (.multisig (event.changeGroup g)) (.committee c) ∧
      Multisig.checkedDeserialize (Multisig.format.encode written) = .ok (multisigOf c) := by
  obtain ⟨c, hitem, rfl, rfl, hquorum⟩ := h.committee_of_holds hg hholds
  rw [Multisig.checkedDeserialize_encode hfits]
  cases hchange with
  | @setOwners data howners =>
      have hle := howners.capacity
      have haccepts : c.Accepts data.owners (c.nextQuorum data.owners none) := by
        rw [multisigOf_capacity] at hle
        have hpos := c.quorum_pos
        have hlength := List.length_pos_iff.mpr howners.ne_nil
        exact ⟨howners.nodup, by simp only [Committee.nextQuorum]; omega,
          Nat.min_le_right _ _, by omega⟩
      refine ⟨_, _, rfl, .reform hitem hrunning haccepts, ⟨rfl, ?_⟩, ?_⟩
      · exact Nat.lt_of_le_of_lt (Nat.min_le_left _ _) hquorum
      · rw [← withOwners_eq hholds.fits hle haccepts,
          ← clamped_threshold hquorum (hclamps data rfl)]
  | @changeThreshold data hthreshold =>
      have hle := Nat.le_trans hthreshold.2 (Nat.mod_le _ _)
      refine ⟨_, _, rfl, .adjust hitem hrunning hthreshold.1 hle,
        ⟨rfl, data.threshold.toNat_lt⟩, ?_⟩
      simp [multisigOf, Committee.adjust]
  | @setOwnersAndChangeThreshold data howners hthreshold =>
      have hle := howners.capacity
      have haccepts : c.Accepts data.owners
          (c.nextQuorum data.owners (some data.threshold.toNat)) := by
        rw [multisigOf_capacity] at hle
        exact ⟨howners.nodup, hthreshold.1,
          Nat.le_trans hthreshold.2 (Nat.mod_le _ _), by omega⟩
      refine ⟨_, _, rfl, .reform hitem hrunning haccepts,
        ⟨rfl, data.threshold.toNat_lt⟩, ?_⟩
      rw [← withOwners_eq hholds.fits hle haccepts]
      simp [withOwnersAndThreshold, Committee.nextQuorum]

theorem proposed {m t proposer payer system : AccountInfo}
    {data : ProposeTransactionInstruction} {multisig : Multisig} {i birth : Nat}
    {signers : List Pubkey} {g : Group} {L' : Ledger}
    (hg : w.registry m.key = .multisig g)
    (hholds : HoldsMultisig rt m.key (w.ledger m.key) g multisig)
    (hvalid : ProposeTransaction.Valid rt.programId w.ledger m proposer system data
      multisig i)
    (hfits : Transaction.format.fits
      (ProposeTransaction.newTransaction m.key multisig i data) = true)
    (hinit : Initialised rt payer t (Transaction.format.encode
      (ProposeTransaction.newTransaction m.key multisig i data)) w.ledger L') :
    ∃ motion : Petition, Step s (.move m.key t.key proposer.key data.instructions)
        (s.put t.key (.motion motion)) ∧
      Matches (.proposal ⟨m.key, data.instructions, g.epoch, birth, signers⟩)
        (.motion motion) ∧
      Stores rt (L' t.key) (.motion motion) := by
  obtain ⟨c, hitem, rfl, rfl, hquorum⟩ := h.committee_of_holds hg hholds
  have hvacant := h.item_vacant (h.represents.held.occupied.vacant_of_unused hinit.unused)
  have hposition := (ownerPosition_eq_some_iff.mp hvalid.position).1
  have hmember : proposer.key ∈ c.roster := List.mem_of_getElem? hposition
  refine ⟨_, .move hitem hvacant hmember hvalid.instructions_ne, ⟨rfl, rfl, rfl⟩, ?_⟩
  rw [hinit.account_eq]
  refine ⟨rfl, rt.minimumBalance_pos _, ?_⟩
  rw [Transaction.checkedDeserialize_encode hfits,
    newTransaction_eq hmember hvalid.instructions_ne hposition]

/-- Equal counters mean equal epochs, and these mean equal rosters. -/
theorem current {m t : Pubkey} {g : Group} {p : Proposal} {multisig : Multisig}
    {transaction : Transaction} (hg : w.registry m = .multisig g)
    (hmultisig : HoldsMultisig rt m (w.ledger m) g multisig)
    (hp : w.registry t = .proposal p)
    (hproposal : HoldsProposal rt (w.ledger t) p transaction) (hm : p.multisig = m)
    (hseqno : multisig.ownerSetSeqno = transaction.ownerSetSeqno) :
    ∃ (c : Council) (motion : Petition), s.item m = .committee c ∧ multisig = multisigOf c ∧
      c.quorum < 256 ∧ s.item t = .motion motion ∧ transaction = transactionOf motion ∧
      motion.committee = m ∧ motion.epoch = c.epoch ∧ motion.roster = c.roster ∧
      p.instructions = motion.payload ∧ p.epoch = motion.epoch := by
  have hle := epoch_le_of_proposal h.represents.lawful hp hm hg
  have hbound := Nat.lt_of_le_of_lt (epoch_le_ownerChanges hg) (h.few m)
  have hepoch := epoch_eq_of_seqno_eq hmultisig.seqno hproposal.seqno hseqno hbound
    (Nat.lt_of_le_of_lt hle hbound)
  obtain ⟨c, hitem, hvalue, rfl, hquorum⟩ := h.committee_of_holds hg hmultisig
  obtain ⟨motion, hmotion, hvalue', hcommittee, hpayload, hepoch'⟩ :=
    h.motion_of_holds hp hproposal
  obtain ⟨c', hc', -, hroster⟩ := h.coherent t motion hmotion
  rw [← hcommittee, hm, hitem] at hc'
  obtain rfl := Item.committee.inj hc'
  exact ⟨c, motion, hitem, hvalue, hquorum, hmotion, hvalue', hcommittee.symm.trans hm,
    hepoch'.symm.trans hepoch, hroster (hepoch'.symm.trans hepoch), hpayload, hepoch'⟩

theorem approved {m t approver : AccountInfo} {multisig : Multisig}
    {transaction : Transaction} {i : Nat} {g : Group} {p : Proposal} {signers : List Pubkey}
    (hg : w.registry m.key = .multisig g)
    (hmultisig : HoldsMultisig rt m.key (w.ledger m.key) g multisig)
    (hp : w.registry t.key = .proposal p)
    (hproposal : HoldsProposal rt (w.ledger t.key) p transaction) (hm : p.multisig = m.key)
    (hvalid : ApproveTransaction.Valid rt.programId w.ledger m t approver multisig
      transaction i) :
    ∃ motion : Petition, Step s (.support m.key t.key approver.key)
        (s.put t.key (.motion motion)) ∧
      Matches (.proposal { p with approvals := signers ++ p.approvals })
        (.motion motion) ∧
      Transaction.checkedDeserialize (Transaction.format.encode (withSigner transaction i)) =
        .ok (transactionOf motion) := by
  obtain ⟨c, motion, hitem, rfl, -, hmotion, rfl, hcommittee, hepoch, hroster, hpayload,
    hepoch'⟩ := h.current hg hmultisig hp hproposal hm hvalid.seqno
  have hposition : motion.roster[i]? = some approver.key := by
    rw [hroster]
    exact (ownerPosition_eq_some_iff.mp hvalid.position).1
  have hmember := List.mem_of_getElem? hposition
  refine ⟨_, .support hitem hmotion hcommittee hepoch hmember,
    ⟨hm.trans hcommittee.symm, hpayload, hepoch'⟩, ?_⟩
  rw [Transaction.checkedDeserialize_encode (by rw [withSigner_fits, hproposal.fits]),
    withSigner_eq (by rw [hroster]; exact c.nodup) hmember hposition]

theorem cancelled {m t refundee executor : AccountInfo} {multisig : Multisig}
    {transaction : Transaction} {g : Group} {p : Proposal}
    (hg : w.registry m.key = .multisig g)
    (hmultisig : HoldsMultisig rt m.key (w.ledger m.key) g multisig)
    (hp : w.registry t.key = .proposal p)
    (hproposal : HoldsProposal rt (w.ledger t.key) p transaction) (hm : p.multisig = m.key)
    (hvalid : CancelTransaction.Valid rt.programId w.ledger m t refundee executor multisig
      transaction) :
    Step s (.withdraw m.key t.key executor.key) (s.put t.key .vacant) := by
  obtain ⟨c, hitem, rfl, -, -⟩ := h.committee_of_holds hg hmultisig
  obtain ⟨motion, hmotion, -, hcommittee, -⟩ := h.motion_of_holds hp hproposal
  exact .withdraw hitem hmotion (hcommittee.symm.trans hm) hvalid.executor_mem

/-- An execution that is accepted has a quorum of supporters. -/
theorem started {accounts : List AccountInfo} {validated : ValidatedAccounts}
    (hrole : argsInRole w.registry .executeTransaction accounts = true)
    (hvalidate : ExecuteTransaction.validate rt rt.programId accounts w.ledger =
      .ok validated w.ledger) :
    ∃ deed : Deed, deedOf (.start accounts : Label rt) = some deed ∧
      Step s deed { s with running := runningAfter s.running (.start accounts : Label rt) } := by
  obtain ⟨g, p, hg, hmultisig, hp, hproposal, hm⟩ :=
    h.represents.held.executed hrole hvalidate
  obtain ⟨executor, rest, rfl, hvalid, -⟩ :=
    ExecuteTransaction.validate_eq_ok_iff.mp hvalidate
  obtain ⟨c, motion, hitem, hvalue, hquorum, hmotion, hvalue', hcommittee, hepoch, hroster,
    -, -⟩ := h.current hg hmultisig hp hproposal hm hvalid.seqno
  refine ⟨_, rfl, .start hitem hmotion hcommittee hepoch ?_ ?_⟩
  · have hmem := hvalid.executor_mem
    rwa [hvalue] at hmem
  · have hcount := ExecuteTransaction.threshold_le_of_approved hvalid.approved
    rw [hvalue, hvalue', threshold_toNat hquorum] at hcount
    rwa [← motion.ballot_count (by rw [hroster]; exact c.nodup)]

end Steps

/-- Each successful step of the world is a step of the board, or does not show there. -/
theorem effect (h : Mirrors rt w s) (heffect : Effect rt w label w')
    (hcounting : Counting rt w label) (hclamps : clampsExactly label = true)
    (hlicensed : Licensed s label) :
    (deedOf label = none ∧ runningAfter s.running label = s.running ∧ Mirrors rt w' s) ∨
      ∃ (deed : Deed) (s' : Board), deedOf label = some deed ∧ Step s deed s' ∧
        s'.running = runningAfter s.running label ∧ Mirrors rt w' s' := by
  have hargs := Label.inRole_of_keepsRoles hcounting.1
  have heffect' := heffect
  cases heffect with
  | idle => exact .inl ⟨rfl, rfl, h.same heffect' hcounting rfl⟩
  | «foreign» hforeign => exact .inl ⟨rfl, rfl, h.same heffect' hcounting rfl⟩
  | @started accounts validated hvalidate =>
      obtain ⟨deed, hdeed, hstep⟩ := h.started hargs hvalidate
      exact .inr ⟨deed, _, hdeed, hstep, rfl, h.represents, h.few, h.matched, h.stores,
        hstep.coherent h.coherent⟩
  | created hvalid hfits hinit =>
      obtain ⟨c, hstep, hmatches, hstores⟩ := h.created hvalid hfits hinit
      refine .inr ⟨_, _, rfl, hstep, rfl, h.put heffect' hcounting rfl rfl ?_ hstores
        (hstep.coherent h.coherent)⟩
      rw [World.registry_cons]
      simpa only [Event.apply, Function.update_self] using hmatches
  | @configured m s₀ rest instruction multisig written event hsigned hchange hfits =>
      obtain ⟨g, hg, hholds⟩ := h.represents.held.configured hargs hsigned hchange
      have hdeed : deedOf (.call instruction (m :: s₀ :: rest) : Label rt) =
          configureDeed m.key instruction := by
        cases hchange <;> rfl
      have hsubject : Label.subject (.call instruction (m :: s₀ :: rest) : Label rt) =
          some m.key := by
        cases hchange <;> rfl
      have hrunning : runningAfter s.running
          (.call instruction (m :: s₀ :: rest) : Label rt) = s.running := rfl
      obtain ⟨t, ht⟩ := hlicensed (by cases hchange <;> simp [configureDeed])
      obtain ⟨deed, c, hdeed', hstep, hmatches, hdecodes⟩ := h.configured hg hholds hchange
        hfits (by rintro data rfl; exact of_decide_eq_true hclamps) ht
      refine .inr ⟨deed, _, hdeed.trans hdeed', hstep, rfl,
        h.put heffect' hcounting hsubject rfl ?_ ?_ (hstep.coherent h.coherent)⟩
      · rw [World.registry_cons]
        cases hchange <;>
          simpa [Event.apply, hg, Occupant.changeOwners, Event.changeGroup] using hmatches
      · simp only [writeData_self]
        exact ⟨hholds.owner, hholds.funded, hdecodes⟩
  | proposed hvalid hfits hinit =>
      obtain ⟨g, hg, hholds⟩ := h.represents.held.proposed hargs hvalid
      obtain ⟨motion, hstep, hmatches, hstores⟩ := h.proposed hg hholds hvalid hfits hinit
      refine .inr ⟨_, _, rfl, hstep, rfl, h.put heffect' hcounting rfl rfl ?_ hstores
        (hstep.coherent h.coherent)⟩
      rw [World.registry_cons]
      simp only [Event.apply, Function.update_self, hg, Occupant.epoch]
      exact hmatches
  | approved hvalid =>
      obtain ⟨g, p, hg, hmultisig, hp, hproposal, hm⟩ := h.represents.held.approved hargs hvalid
      obtain ⟨motion, hstep, hmatches, hdecodes⟩ :=
        h.approved hg hmultisig hp hproposal hm hvalid
      refine .inr ⟨_, _, rfl, hstep, rfl, h.put heffect' hcounting rfl rfl ?_ ?_
        (hstep.coherent h.coherent)⟩
      · rw [World.registry_cons]
        simp only [Event.apply, Function.update_self, hp, Occupant.approve]
        exact hmatches
      · simp only [writeData_self]
        exact ⟨hproposal.owner, hproposal.funded, hdecodes⟩
  | cancelled hvalid hclose =>
      obtain ⟨g, p, hg, hmultisig, hp, hproposal, hm⟩ :=
        h.represents.held.cancelled hargs hvalid
      have hstep := h.cancelled hg hmultisig hp hproposal hm hvalid
      refine .inr ⟨_, _, rfl, hstep, rfl, h.put heffect' hcounting rfl rfl ?_ ?_
        (hstep.coherent h.coherent)⟩
      · rw [World.registry_cons]
        simp only [Event.apply, Function.update_self]
        trivial
      · simp only [hclose.account_eq]
        exact fun _ => zeroed_of_nil rfl
  | @closed e L' hclose howner =>
      obtain ⟨rest, hrunning⟩ : ∃ rest, s.running = (e.validated.multisigAccount.key,
          e.validated.transactionAccount.key) :: rest := by
        cases hs : s.running with
        | nil => simp [Licensed, hs] at hlicensed
        | cons entry rest =>
            rw [Licensed, hs, List.head?_cons, Option.some.injEq] at hlicensed
            exact ⟨rest, by rw [hlicensed]⟩
      have hvacant : (w.registry e.validated.transactionAccount.key).isMultisig = false := by
        simpa using hcounting.1
      have hstep := Step.finish hrunning
        ((h.matched e.validated.transactionAccount.key).not_committee hvacant)
      refine .inr ⟨_, _, rfl, hstep, by simp [runningAfter, hrunning],
        h.put heffect' hcounting rfl rfl ?_ ?_ (hstep.coherent h.coherent)⟩
      · rw [World.registry_cons]
        simp only [Event.apply, Function.update_self]
        trivial
      · simp only [hclose.account_eq]
        exact fun _ => zeroed_of_nil rfl

end Mirrors

end MultisigNative.Specification
