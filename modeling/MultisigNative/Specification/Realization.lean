import MultisigNative.Properties.Cancellation
import MultisigNative.Properties.Liveness
import MultisigNative.Specification.Simulation
import MultisigNative.System.Progress

/-!
The program does what the board allows: a step of the board is refused only to those who
have not brought the accounts and the money for it.
-/

namespace MultisigNative.Specification

open Library.Voting
open Solana
open State
open Instructions
open Processor
open MultisigNative.System
open MultisigNative.Properties

/-- What a call brings besides the consent of its committee: the accounts with their
privileges, the address derived from the multisig, money for what is created and room for
what is refunded. -/
inductive Supplied (rt : Runtime) (w : World) : Label rt → Prop
  | createMultisig {data : CreateMultisigInstruction} {m s payer system : AccountInfo}
      {infos : List AccountInfo} (hsystem : system.key = systemProgram)
      (hpda : rt.createProgramAddress [m.key.bytes, [data.nonce]] rt.programId =
        some s.key)
      (hfew : data.owners.length < 256)
      (hcreate : w.registry m.key = .vacant → ∃ L', rt.createAccount payer m
        (rt.minimumBalance (CreateMultisig.newMultisig data).len)
        (CreateMultisig.newMultisig data).len rt.programId w.ledger = .ok () L') :
      Supplied rt w
        (.call (.createMultisig data) (m :: s :: payer :: system :: infos))
  | configure {instruction : MultisigInstruction} {m s : AccountInfo}
      {infos : List AccountInfo} (hconfigures : configureDeed m.key instruction ≠ none)
      (hwritable : m.isWritable = true) (hsigner : s.isSigner = true)
      (hpda : ∀ multisig, Multisig.checkedDeserialize (w.ledger m.key).data = .ok multisig →
        rt.createProgramAddress [m.key.bytes, [multisig.nonce]] rt.programId =
          some s.key) :
      Supplied rt w (.call instruction (m :: s :: infos))
  | proposeTransaction {data : ProposeTransactionInstruction}
      {m t proposer payer system : AccountInfo} {infos : List AccountInfo}
      (hsystem : system.key = systemProgram) (hsigner : proposer.isSigner = true)
      (hcreate : w.registry t.key = .vacant → ∀ multisig,
        Multisig.checkedDeserialize (w.ledger m.key).data = .ok multisig →
        ∃ L', rt.createAccount payer t
          (rt.minimumBalance (proposalLen multisig data.instructions))
          (proposalLen multisig data.instructions) rt.programId w.ledger = .ok () L') :
      Supplied rt w
        (.call (.proposeTransaction data) (m :: t :: proposer :: payer :: system :: infos))
  | approveTransaction {m t approver : AccountInfo} {infos : List AccountInfo}
      (hwritable : t.isWritable = true) (hsigner : approver.isSigner = true) :
      Supplied rt w (.call .approveTransaction (m :: t :: approver :: infos))
  | executeTransaction {m s t refundee executor : AccountInfo} {infos : List AccountInfo}
      (hwritable : t.isWritable = true) (hrefundable : refundee.isWritable = true)
      (hne : refundee.key ≠ t.key) (hsigner : executor.isSigner = true)
      (hpda : ∀ multisig, Multisig.checkedDeserialize (w.ledger m.key).data = .ok multisig →
        rt.createProgramAddress [m.key.bytes, [multisig.nonce]] rt.programId =
          some s.key) :
      Supplied rt w (.start (m :: s :: t :: refundee :: executor :: infos))
  | cancelTransaction {m t refundee executor : AccountInfo} {infos : List AccountInfo}
      (hwritable : t.isWritable = true) (hrefundable : refundee.isWritable = true)
      (hne : refundee.key ≠ t.key) (hsigner : executor.isSigner = true)
      (hsum : (w.ledger refundee.key).lamports.toNat + (w.ledger t.key).lamports.toNat <
        2 ^ 64) :
      Supplied rt w (.call .cancelTransaction (m :: t :: refundee :: executor :: infos))
  | close {e : Execution rt}
      (hsum : (w.ledger e.validated.refundee.key).lamports.toNat +
        (w.ledger e.validated.transactionAccount.key).lamports.toNat < 2 ^ 64)
      (hunused : w.registry e.validated.transactionAccount.key = .vacant →
        w.ledger e.validated.transactionAccount.key = Account.unused) :
      Supplied rt w (.close e)

namespace Mirrors

variable {rt : Runtime} {w : World} {s s' : Board} (h : Mirrors rt w s)
include h

theorem holds_committee {a : Pubkey} {c : Council} (hitem : s.item a = .committee c) :
    w.registry a = .multisig ⟨c.roster, c.charter, c.capacity, c.epoch⟩ ∧
      HoldsMultisig rt a (w.ledger a) ⟨c.roster, c.charter, c.capacity, c.epoch⟩
        (multisigOf c) ∧
      c.quorum < 256 := by
  have hmatched := h.matched a
  rw [hitem] at hmatched
  cases ho : w.registry a with
  | vacant =>
      rw [ho] at hmatched
      exact absurd hmatched id
  | proposal p =>
      rw [ho] at hmatched
      exact absurd hmatched id
  | multisig g =>
      obtain ⟨multisig, hholds⟩ := h.represents.held.exists_multisig ho
      obtain ⟨c', hc', rfl, rfl, hquorum⟩ := h.committee_of_holds ho hholds
      obtain rfl := Item.committee.inj (hitem.symm.trans hc')
      exact ⟨rfl, hholds, hquorum⟩

theorem holds_motion {t : Pubkey} {motion : Petition} (hitem : s.item t = .motion motion) :
    ∃ p, w.registry t = .proposal p ∧
      HoldsProposal rt (w.ledger t) p (transactionOf motion) ∧
      p.multisig = motion.committee := by
  have hmatched := h.matched t
  rw [hitem] at hmatched
  cases ho : w.registry t with
  | vacant =>
      rw [ho] at hmatched
      exact absurd hmatched id
  | multisig g =>
      rw [ho] at hmatched
      exact absurd hmatched id
  | proposal p =>
      obtain ⟨transaction, hholds⟩ := h.represents.held.exists_transaction ho
      obtain ⟨motion', hmotion', rfl, hcommittee, -⟩ := h.motion_of_holds ho hholds
      obtain rfl := Item.motion.inj (hitem.symm.trans hmotion')
      exact ⟨p, rfl, hholds, hcommittee⟩

/-- The flags of a current motion are those of its supporters. -/
theorem collected {a t : Pubkey} {c : Council} {motion : Petition}
    (hitem : s.item a = .committee c) (hmotion : s.item t = .motion motion)
    (hcommittee : motion.committee = a) (hepoch : motion.epoch = c.epoch) :
    Collected rt w a t (multisigOf c) motion.supporters.toList := by
  obtain ⟨-, hmultisig, -⟩ := h.holds_committee hitem
  obtain ⟨p, -, hproposal, -⟩ := h.holds_motion hmotion
  have hroster := (h.coherent.motion_current hitem hmotion hcommittee).2 hepoch
  refine ⟨?_, hmultisig.owner, hmultisig.data, hmultisig.fits, hproposal.owner,
    transactionOf motion, hproposal.data, hproposal.fits, hcommittee, ?_, ?_, ?_⟩
  · rintro rfl
    rw [hitem] at hmotion
    cases hmotion
  · simp only [multisigOf, transactionOf, hepoch]
  · simp [multisigOf, transactionOf, hroster]
  · intro i k hk
    change c.roster[i]? = some k at hk
    simp [transactionOf, Motion.ballot, hroster, hk]

theorem performs_found {data : CreateMultisigInstruction} {m signer payer system : AccountInfo}
    (hstep : Step s (.found m.key data.owners data.threshold.toNat data.nonce) s')
    (hsystem : system.key = systemProgram)
    (hpda : rt.createProgramAddress [m.key.bytes, [data.nonce]] rt.programId =
      some signer.key)
    (hfew : data.owners.length < 256)
    (hcreate : w.registry m.key = .vacant → ∃ L', rt.createAccount payer m
      (rt.minimumBalance (CreateMultisig.newMultisig data).len)
      (CreateMultisig.newMultisig data).len rt.programId w.ledger = .ok () L')
    (infos : List AccountInfo) :
    ∃ w', perform rt w
      (.call (.createMultisig data) (m :: signer :: payer :: system :: infos)) = some w' := by
  cases hstep with
  | found hvacant hnodup hpos hle =>
      refine perform_create ⟨hsystem, hnodup, hpos, ?_, hpda⟩ ?_
        (hcreate ((h.matched m.key).vacant_iff.mpr hvacant)) infos
      · rwa [Nat.mod_eq_of_lt hfew]
      · rw [Multisig.format_fits_iff]
        simp only [CreateMultisig.newMultisig, List.length_nil]
        omega

theorem performs_move {data : ProposeTransactionInstruction}
    {m t proposer payer system : AccountInfo}
    (hstep : Step s (.move m.key t.key proposer.key data.instructions) s')
    (hsystem : system.key = systemProgram) (hsigner : proposer.isSigner = true)
    (hcreate : w.registry t.key = .vacant → ∀ multisig,
      Multisig.checkedDeserialize (w.ledger m.key).data = .ok multisig →
      ∃ L', rt.createAccount payer t
        (rt.minimumBalance (proposalLen multisig data.instructions))
        (proposalLen multisig data.instructions) rt.programId w.ledger = .ok () L')
    (infos : List AccountInfo) :
    ∃ w', perform rt w (.call (.proposeTransaction data)
      (m :: t :: proposer :: payer :: system :: infos)) = some w' := by
  cases hstep with
  | @move _ _ _ c _ hitem hvacant hmember hpayload =>
      obtain ⟨-, hmultisig, -⟩ := h.holds_committee hitem
      have haccounts : ProposesWith m.key t.key proposer.key payer t
          (m :: t :: proposer :: payer :: system :: infos) :=
        ⟨rfl, rfl, rfl, rfl, hsigner, rfl, hsystem⟩
      obtain ⟨w', hperform, -⟩ := propose_collects hmultisig.owner hmultisig.data
        hmultisig.fits c.nodup hmember hpayload haccounts
        (hcreate ((h.matched t.key).vacant_iff.mpr hvacant) _ hmultisig.decodes)
      exact ⟨w', hperform⟩

theorem performs_support {m t approver : AccountInfo}
    (hstep : Step s (.support m.key t.key approver.key) s') (hwritable : t.isWritable = true)
    (hsigner : approver.isSigner = true) (infos : List AccountInfo) :
    ∃ w', perform rt w (.call .approveTransaction (m :: t :: approver :: infos)) =
      some w' := by
  cases hstep with
  | @support _ _ _ c motion hitem hmotion hcommittee hepoch hmember =>
      rw [(h.coherent.motion_current hitem hmotion hcommittee).2 hepoch] at hmember
      have haccounts : ApprovesWith m.key t.key approver.key (m :: t :: approver :: infos) :=
        ⟨rfl, rfl, hwritable, rfl, hsigner⟩
      obtain ⟨w', hperform, -⟩ :=
        (h.collected hitem hmotion hcommittee hepoch).approve c.nodup hmember haccounts
      exact ⟨w', hperform⟩

/-- Fewer than 256 supporters are counted as they are. -/
theorem performs_start {m signer t refundee executor : AccountInfo}
    (hsmall : ∀ a c, s.item a = .committee c → c.capacity < 256)
    (hstep : Step s (.start m.key t.key executor.key) s') (hwritable : t.isWritable = true)
    (hrefundable : refundee.isWritable = true) (hne : refundee.key ≠ t.key)
    (hsigner : executor.isSigner = true)
    (hpda : ∀ multisig, Multisig.checkedDeserialize (w.ledger m.key).data = .ok multisig →
      rt.createProgramAddress [m.key.bytes, [multisig.nonce]] rt.programId =
        some signer.key) (infos : List AccountInfo) :
    ∃ w', perform rt w (.start (m :: signer :: t :: refundee :: executor :: infos)) =
      some w' := by
  cases hstep with
  | @start _ _ _ c motion hitem hmotion hcommittee hepoch hmember hquorum =>
      obtain ⟨-, hmultisig, hlt⟩ := h.holds_committee hitem
      obtain ⟨p, -, hproposal, -⟩ := h.holds_motion hmotion
      have hroster := (h.coherent.motion_current hitem hmotion hcommittee).2 hepoch
      have hnodup : motion.roster.Nodup := by
        rw [hroster]
        exact c.nodup
      have hcount := motion.ballot_count hnodup
      have hfew : motion.supporters.card < 256 := by
        have hlength := List.length_filter_le (fun flag => flag) motion.ballot
        rw [hcount, motion.ballot_length, hroster] at hlength
        exact Nat.lt_of_le_of_lt (Nat.le_trans hlength c.roster_le) (hsmall m.key c hitem)
      have happroved : (multisigOf c).threshold ≤ approvalCount (transactionOf motion) := by
        rw [UInt8.le_iff_toNat_le, threshold_toNat hlt, approvalCount, UInt8.toNat_ofNat']
        change c.quorum ≤ (motion.ballot.filter fun flag => flag).length % 256
        rwa [hcount, Nat.mod_eq_of_lt hfew]
      have hvalidate : ExecuteTransaction.validate rt rt.programId
          (m :: signer :: t :: refundee :: executor :: infos) w.ledger =
            .ok ⟨m, signer, t, refundee, multisigOf c, transactionOf motion⟩ w.ledger := by
        refine ExecuteTransaction.validate_eq_ok_iff.mpr ⟨executor, infos, rfl, ?_, rfl⟩
        exact ⟨hmultisig.owner, hproposal.owner, hmultisig.fits, hmultisig.data,
          hproposal.fits, hproposal.data, hsigner, hmember,
          by simp only [multisigOf, transactionOf, hepoch], hpda _ hmultisig.decodes,
          hwritable, hcommittee, hne, hrefundable, happroved⟩
      exact ⟨w, by simp only [perform, hvalidate]⟩

theorem performs_withdraw {m t refundee executor : AccountInfo}
    (hstep : Step s (.withdraw m.key t.key executor.key) s') (hwritable : t.isWritable = true)
    (hrefundable : refundee.isWritable = true) (hne : refundee.key ≠ t.key)
    (hsigner : executor.isSigner = true)
    (hsum : (w.ledger refundee.key).lamports.toNat + (w.ledger t.key).lamports.toNat <
      2 ^ 64) (infos : List AccountInfo) :
    ∃ w', perform rt w (.call .cancelTransaction
      (m :: t :: refundee :: executor :: infos)) = some w' := by
  cases hstep with
  | @withdraw _ _ _ c motion hitem hmotion hcommittee hmember =>
      obtain ⟨hg, hmultisig, -⟩ := h.holds_committee hitem
      obtain ⟨p, hp, hproposal, hm⟩ := h.holds_motion hmotion
      have hvalid := cancel_valid h.represents hp (hm.trans hcommittee) (h.few m.key)
        hproposal hg hmultisig hsigner hmember hwritable hrefundable hne
      obtain ⟨L', hperform, -⟩ := cancel_performs hvalid hsum infos
      exact ⟨_, hperform⟩

/-- A change that the committee accepts is made. -/
theorem performs_change {m signer : AccountInfo} {c : Council}
    {instruction : MultisigInstruction} {written : Multisig} {event : Event}
    (hitem : s.item m.key = .committee c) (hsmall : c.capacity < 256)
    (hchange : Reconfigures m.key (multisigOf c) instruction written event)
    (hwritable : m.isWritable = true) (hsigner : signer.isSigner = true)
    (hpda : ∀ multisig, Multisig.checkedDeserialize (w.ledger m.key).data = .ok multisig →
      rt.createProgramAddress [m.key.bytes, [multisig.nonce]] rt.programId =
        some signer.key) (infos : List AccountInfo) :
    ∃ w', perform rt w (.call instruction (m :: signer :: infos)) = some w' := by
  obtain ⟨-, hmultisig, -⟩ := h.holds_committee hitem
  have hsigned : SignedMultisig rt rt.programId w.ledger m signer (multisigOf c) :=
    ⟨hmultisig.data, hmultisig.fits, hmultisig.owner, hpda _ hmultisig.decodes, hsigner⟩
  have hshort : (multisigOf c).len < 2 ^ 32 := by
    have hcapacity := multisigOf_capacity c
    simp only [Multisig.len, PUBKEY_BYTES]
    omega
  exact ⟨_, perform_change hsigned hwritable hchange
    (written_fits hchange hmultisig.fits hshort) infos⟩

theorem performs_configure {m signer : AccountInfo} {instruction : MultisigInstruction}
    {deed : Deed} (hsmall : ∀ a c, s.item a = .committee c → c.capacity < 256)
    (hdeed : configureDeed m.key instruction = some deed) (hstep : Step s deed s')
    (hwritable : m.isWritable = true) (hsigner : signer.isSigner = true)
    (hpda : ∀ multisig, Multisig.checkedDeserialize (w.ledger m.key).data = .ok multisig →
      rt.createProgramAddress [m.key.bytes, [multisig.nonce]] rt.programId =
        some signer.key) (infos : List AccountInfo) :
    ∃ w', perform rt w (.call instruction (m :: signer :: infos)) = some w' := by
  have hchanges : ∀ {c : Council} {written : Multisig} {event : Event},
      s.item m.key = .committee c → Reconfigures m.key (multisigOf c) instruction written event →
      ∃ w', perform rt w (.call instruction (m :: signer :: infos)) = some w' :=
    fun hitem hchange => h.performs_change hitem (hsmall _ _ hitem) hchange hwritable hsigner
      hpda infos
  have howners : ∀ {c : Council} {owners : List Pubkey} {quorum : Nat},
      c.Accepts owners quorum → AcceptedOwners (multisigOf c) owners := by
    intro c owners quorum haccepts
    refine ⟨haccepts.nodup, List.length_pos_iff.mp
      (Nat.lt_of_lt_of_le haccepts.pos haccepts.le), ?_⟩
    rw [multisigOf_capacity]
    exact Nat.mul_le_mul_left _ haccepts.roster_le
  unfold configureDeed at hdeed
  split at hdeed
  · cases hdeed
    cases hstep with
    | reform hitem hrunning haccepts => exact hchanges hitem (.setOwners (howners haccepts))
  · cases hdeed
    cases hstep with
    | @adjust _ _ c _ hitem hrunning hpos hle =>
        refine hchanges hitem (.changeThreshold ⟨hpos, ?_⟩)
        have hlt := Nat.lt_of_le_of_lt c.roster_le (hsmall _ c hitem)
        change _ ≤ c.roster.length % 256
        rwa [Nat.mod_eq_of_lt hlt]
  · cases hdeed
    cases hstep with
    | @reform _ _ c _ _ hitem hrunning haccepts =>
        refine hchanges hitem (.setOwnersAndChangeThreshold (howners haccepts)
          ⟨haccepts.pos, ?_⟩)
        have hlt := Nat.lt_of_le_of_lt haccepts.roster_le (hsmall _ c hitem)
        rw [Nat.mod_eq_of_lt hlt]
        exact haccepts.le
  · cases hdeed

theorem performs_finish {e : Execution rt}
    (hstep : Step s (.finish e.validated.multisigAccount.key
      e.validated.transactionAccount.key) s')
    (hsum : (w.ledger e.validated.refundee.key).lamports.toNat +
      (w.ledger e.validated.transactionAccount.key).lamports.toNat < 2 ^ 64)
    (hunused : w.registry e.validated.transactionAccount.key = .vacant →
      w.ledger e.validated.transactionAccount.key = Account.unused) :
    ∃ w', perform rt w (.close e) = some w' := by
  cases hstep with
  | finish hrunning hitem =>
      have howner : (w.ledger e.validated.transactionAccount.key).owner = rt.programId ∨
          w.ledger e.validated.transactionAccount.key = Account.unused := by
        cases hentry : s.item e.validated.transactionAccount.key with
        | vacant => exact .inr (hunused ((h.matched _).vacant_iff.mpr hentry))
        | committee c => exact absurd hentry (hitem c)
        | motion motion =>
            obtain ⟨p, -, hproposal, -⟩ := h.holds_motion hentry
            exact .inl hproposal.owner
      obtain ⟨L', -, hperform⟩ := perform_close howner hsum
      exact ⟨_, hperform⟩

/-- Whatever the board allows is performed, if it is supplied. -/
theorem performs {label : Label rt} {deed : Deed}
    (hsmall : ∀ a c, s.item a = .committee c → c.capacity < 256)
    (hsupplied : Supplied rt w label) (hdeed : deedOf label = some deed)
    (hstep : Step s deed s') : ∃ w', perform rt w label = some w' := by
  cases hsupplied with
  | createMultisig hsystem hpda hfew hcreate =>
      cases hdeed
      exact h.performs_found hstep hsystem hpda hfew hcreate _
  | @configure instruction m signer infos hconfigures hwritable hsigner hpda =>
      refine h.performs_configure hsmall ?_ hstep hwritable hsigner hpda infos
      rw [← hdeed]
      cases instruction <;> first | rfl | exact absurd rfl hconfigures
  | proposeTransaction hsystem hsigner hcreate =>
      cases hdeed
      exact h.performs_move hstep hsystem hsigner hcreate _
  | approveTransaction hwritable hsigner =>
      cases hdeed
      exact h.performs_support hstep hwritable hsigner _
  | executeTransaction hwritable hrefundable hne hsigner hpda =>
      cases hdeed
      exact h.performs_start hsmall hstep hwritable hrefundable hne hsigner hpda _
  | cancelTransaction hwritable hrefundable hne hsigner hsum =>
      cases hdeed
      exact h.performs_withdraw hstep hwritable hrefundable hne hsigner hsum _
  | close hsum hunused =>
      cases hdeed
      exact h.performs_finish hstep hsum hunused

end Mirrors

end MultisigNative.Specification
