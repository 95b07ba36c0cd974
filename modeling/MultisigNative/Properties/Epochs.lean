import MultisigNative.Properties.AtMostOnce
import MultisigNative.Properties.Cancellation
import MultisigNative.Properties.Staleness

/-!
The counter of owner changes.  As long as it does not wrap it is the number of owner
changes so far, so no two owner sets of a multisig share a value; where it wraps they do.
-/

namespace MultisigNative.Properties

open Library.Transition
open Solana
open State
open Instructions
open Processor
open MultisigNative.System
open LocalRuntime

/-- Does the multisig at this address have the greatest value of the counter? -/
def counterFull (w : World) (m : Pubkey) : Bool :=
  match Multisig.checkedDeserialize (w.ledger m).data with
  | .ok multisig => multisig.ownerSetSeqno == 4294967295
  | .error _ => false

/-- The step is no owner change of a multisig whose counter would wrap. -/
def sparesCounter {rt : Runtime} (w : World) : Label rt → Bool
  | .call (.setOwners _) (m :: _) => !counterFull w m.key
  | .call (.setOwnersAndChangeThreshold _) (m :: _) => !counterFull w m.key
  | _ => true

/-- Accounts are taken in their roles, no execution closes a multisig at its end, and no
counter wraps. -/
def Counting (rt : Runtime) (w : World) (label : Label rt) : Prop :=
  label.keepsRoles w.registry = true ∧ sparesCounter w label = true

/-- The worlds of the runs all of whose steps meet this condition. -/
def CountingWorld (rt : Runtime) : World → Prop :=
  Reachable (World.Initial rt) (perform rt) (Counting rt)

section Counter

variable {rt : Runtime} {w w' : World} {label : Label rt} {m t : Pubkey}

theorem seqno_of_few {multisig : Multisig} {g : Group} (h : Represents rt w)
    (hg : w.registry m = .multisig g)
    (hholds : HoldsMultisig rt m (w.ledger m) g multisig)
    (hfew : ownerChanges m w.history < 2 ^ 32) :
    multisig.ownerSetSeqno.toNat = ownerChanges m w.history := by
  have hepoch := epoch_eq_ownerChanges h.lawful m
  change (w.registry m).epoch = _ at hepoch
  rw [hg, Occupant.epoch] at hepoch
  rw [hholds.seqno, hepoch, UInt32.toNat_ofNat', Nat.mod_eq_of_lt hfew]

/-- One more owner change is still counted. -/
theorem few_of_spared {multisig : Multisig} {g : Group} (h : Represents rt w)
    (hg : w.registry m = .multisig g)
    (hholds : HoldsMultisig rt m (w.ledger m) g multisig)
    (hfew : ownerChanges m w.history < 2 ^ 32) (hspared : counterFull w m = false) :
    ownerChanges m w.history + 1 < 2 ^ 32 := by
  have hseqno := seqno_of_few h hg hholds hfew
  rw [counterFull, hholds.decodes] at hspared
  have hne : multisig.ownerSetSeqno ≠ 4294967295 := by simpa using hspared
  have htoNat : multisig.ownerSetSeqno.toNat ≠ 4294967295 :=
    fun heq => hne (UInt32.toNat_inj.mp heq)
  omega

theorem few_of_effect (h : Represents rt w) (heffect : Effect rt w label w')
    (hcounting : Counting rt w label)
    (hfew : ∀ m, ownerChanges m w.history < 2 ^ 32) (m : Pubkey) :
    ownerChanges m w'.history < 2 ^ 32 := by
  rcases hcounting with ⟨hrole, hspares⟩
  have hargs := Label.inRole_of_keepsRoles hrole
  have hold := hfew m
  cases heffect with
  | @configured info s rest instruction multisig written event hsigned hchange hfits =>
      obtain ⟨g, hg, hholds⟩ := h.held.configured hargs hsigned hchange
      have hcounted : counterFull w info.key = false →
          ∀ owners, ownerChanges m (.ownersChanged info.key owners :: w.history) < 2 ^ 32 := by
        intro hspared owners
        have hnext := few_of_spared h hg hholds (hfew info.key) hspared
        rw [ownerChanges, List.countP_cons, ← ownerChanges]
        by_cases hm : info.key = m
        · subst hm
          simpa [Event.changesOwnersOf] using hnext
        · simpa [Event.changesOwnersOf, hm] using hold
      cases hchange with
      | setOwners howners => exact hcounted (by simpa [sparesCounter] using hspares) _
      | changeThreshold hthreshold => simpa [ownerChanges, Event.changesOwnersOf] using hold
      | setOwnersAndChangeThreshold howners hthreshold =>
          exact hcounted (by simpa [sparesCounter] using hspares) _
  | _ => simpa [ownerChanges, Event.changesOwnersOf] using hold

theorem CountingWorld.rolesKept (h : CountingWorld rt w) : RolesKeptWorld rt w :=
  h.mono fun _ _ hcounting => hcounting.1

theorem CountingWorld.few (h : CountingWorld rt w) (m : Pubkey) :
    ownerChanges m w.history < 2 ^ 32 := by
  refine Reachable.invariant
    (I := fun w => ∀ m, ownerChanges m w.history < 2 ^ 32) ?_ ?_ h m
  · intro w hinit m
    rw [hinit.history]
    exact Nat.two_pow_pos 32
  · intro w label w' hw hfew hcounting hperform
    exact few_of_effect (represents_of_rolesKept (CountingWorld.rolesKept hw))
      (perform_effect hperform) hcounting hfew

/-- Multisigs stay. -/
theorem multisig_kept (h : RolesKeptWorld rt w) (hm : (w.registry m).isMultisig = true)
    (hrun : Continues rt w w') : (w'.registry m).isMultisig = true := by
  refine (Reachable.invariant
    (I := fun v => RolesKeptWorld rt v ∧ (v.registry m).isMultisig = true) ?_ ?_ hrun).2
  · rintro v rfl
    exact ⟨h, hm⟩
  · rintro v label v' - ⟨hv, hmultisig⟩ hrole hperform
    obtain ⟨g, hg⟩ := Occupant.isMultisig_iff.mp hmultisig
    obtain ⟨g', hg', -⟩ :=
      (represents_of_rolesKept hv).held.group_kept (perform_effect hperform) hrole hg
    exact ⟨hv.next hrole hperform, Occupant.isMultisig_iff.mpr ⟨g', hg'⟩⟩

end Counter

/-- In every run that takes accounts in their roles, closes no multisig at the end of an
execution and makes no owner change at the greatest value of the counter, the counter of a
multisig is greater after an owner change than before it, no open proposal is ahead of its
multisig, and one that was proposed before an owner change is behind. -/
theorem epochs_never_reused {rt : Runtime} {w w' : World} (h : CountingWorld rt w)
    (hrun : Reachable (fun v => v = w) (perform rt) (Counting rt) w') {m : Pubkey}
    (hm : (w.registry m).isMultisig = true) :
    ∃ multisig multisig',
      Multisig.checkedDeserialize (w.ledger m).data = .ok multisig ∧
      Multisig.checkedDeserialize (w'.ledger m).data = .ok multisig' ∧
      (ownerChanges m w.history < ownerChanges m w'.history →
        multisig.ownerSetSeqno < multisig'.ownerSetSeqno) ∧
      (∀ t p, w'.registry t = .proposal p → p.multisig = m →
        ∃ transaction, Transaction.checkedDeserialize (w'.ledger t).data = .ok transaction ∧
          transaction.ownerSetSeqno ≤ multisig'.ownerSetSeqno) ∧
      ∀ later mid older owners t signers instructions,
        w'.history = later ++ .ownersChanged m owners ::
          (mid ++ .proposed m t signers instructions :: older) →
        (∀ event ∈ later ++ mid, event.closes t = false) →
        ∃ transaction, Transaction.checkedDeserialize (w'.ledger t).data = .ok transaction ∧
          transaction.ownerSetSeqno < multisig'.ownerSetSeqno := by
  have h' : CountingWorld rt w' := h.trans hrun
  have hrepresents := represents_of_rolesKept h.rolesKept
  have hrepresents' := represents_of_rolesKept h'.rolesKept
  have hm' := multisig_kept h.rolesKept hm (hrun.mono fun _ _ hcounting => hcounting.1)
  obtain ⟨g, hg⟩ := Occupant.isMultisig_iff.mp hm
  obtain ⟨g', hg'⟩ := Occupant.isMultisig_iff.mp hm'
  obtain ⟨multisig, hholds⟩ := hrepresents.held.exists_multisig hg
  obtain ⟨multisig', hholds'⟩ := hrepresents'.held.exists_multisig hg'
  have hbound : g'.epoch < 2 ^ 32 :=
    Nat.lt_of_le_of_lt (epoch_le_ownerChanges hg') (h'.few m)
  refine ⟨multisig, multisig', hholds.decodes, hholds'.decodes, ?_, ?_, ?_⟩
  · intro hchanged
    rw [UInt32.lt_iff_toNat_lt, seqno_of_few hrepresents hg hholds (h.few m),
      seqno_of_few hrepresents' hg' hholds' (h'.few m)]
    exact hchanged
  · intro t p hp hpm
    obtain ⟨transaction, hproposal⟩ := hrepresents'.held.exists_transaction hp
    have hle := epoch_le_of_proposal hrepresents'.lawful hp hpm hg'
    exact ⟨transaction, hproposal.decodes,
      seqno_le_of_epoch_le hholds'.seqno hproposal.seqno hle hbound⟩
  · intro later mid older owners t signers instructions hhistory hopen
    have hlawful := hrepresents'.lawful
    rw [hhistory] at hlawful
    obtain ⟨p, g₁, hp, hpm, hg₁, hlt⟩ := stale_of_changed hlawful hopen
    rw [← hhistory] at hp hg₁
    obtain rfl : g₁ = g' := Occupant.multisig.inj (hg₁.symm.trans hg')
    obtain ⟨transaction, hproposal⟩ := hrepresents'.held.exists_transaction hp
    refine ⟨transaction, hproposal.decodes, ?_⟩
    have hle := seqno_le_of_epoch_le hholds'.seqno hproposal.seqno hlt.le hbound
    have hne := seqno_ne_of_epoch_lt hholds'.seqno hproposal.seqno hlt hbound
    exact UInt32.lt_of_le_of_ne hle hne.symm

section LocalRuns

/-- A multisig of 11 alone after some owner changes. -/
def lonely (seqno : UInt32) : Multisig := ⟨[keyOf 11], 1, 5, seqno, []⟩

/-- The run is made of steps that meet the condition. -/
def countingRun (w : World) (labels : List (Label localRuntime)) : Option World :=
  Library.Transition.perform (System.perform localRuntime)
    (fun w label => label.keepsRoles w.registry && sparesCounter w label) w labels

theorem reachable_of_countingRun {w w' : World} {labels : List (Label localRuntime)}
    {initial : World → Prop} (hw : initial w) (hrun : countingRun w labels = some w') :
    Reachable initial (perform localRuntime) (Counting localRuntime) w' :=
  reachable_of_perform (fun _ _ h => Bool.and_eq_true_iff.mp h) (.init hw) hrun

/-- It has been created, and 11 has proposed a note at key 30. -/
def lonelyWorld : World :=
  (countingRun ⟨genesis [keyOf 11], []⟩
    [.call (.createMultisig ⟨[keyOf 11], 1, 5⟩) [signer (keyOf 20), readonly samplePda,
        signer (keyOf 11), readonly systemProgram],
      .call (.proposeTransaction ⟨[storedNote]⟩) (proposeAccounts (keyOf 30))]).get
    (by decide +kernel)

theorem lonelyWorld_counting : CountingWorld localRuntime lonelyWorld :=
  reachable_of_countingRun (localStart_initial _).world (Option.some_get _).symm

theorem lonely_multisig : (lonelyWorld.registry (keyOf 20)).isMultisig = true := by
  decide +kernel

/-- The owner 11 hands the multisig over to 11. -/
def handover : Label localRuntime :=
  .call (.setOwners ⟨[keyOf 11]⟩) [writable (keyOf 20), signer samplePda]

theorem lonely_fits (seqno : UInt32) : Multisig.format.fits (lonely seqno) = true := by
  rw [Multisig.format_fits_iff]
  exact ⟨show 1 < 2 ^ 32 by decide, show 0 < 2 ^ 32 by decide⟩

theorem withOwners_lonely (seqno : UInt32) :
    withOwners (lonely seqno) [keyOf 11] = lonely (seqno + 1) := by
  have hpadding : paddingLen (lonely seqno) [keyOf 11] = 0 :=
    show UInt64.ofNat 0 + UInt64.ofNat 32 * (UInt64.ofNat 1 - UInt64.ofNat 1) = 0 by decide
  rw [withOwners, hpadding]
  simp [lonely]

/-- After `n` owner changes, each of which changed nothing but the counter. -/
structure HandedOver (w : World) (n : Nat) : Prop where
  continues : Continues localRuntime lonelyWorld w
  owner : (w.ledger (keyOf 20)).owner = localRuntime.programId
  data : (w.ledger (keyOf 20)).data = Multisig.format.encode (lonely (UInt32.ofNat n))
  proposal : w.ledger (keyOf 30) = lonelyWorld.ledger (keyOf 30)
  changes : ownerChanges (keyOf 20) w.history = n

theorem handedOver_zero : HandedOver lonelyWorld 0 where
  continues := .init rfl
  owner := by decide +kernel
  data := by decide +kernel
  proposal := rfl
  changes := by decide +kernel

theorem HandedOver.keepsRoles {w : World} {n : Nat} (h : HandedOver w n) :
    handover.keepsRoles w.registry = true := by
  have hmultisig := multisig_kept lonelyWorld_counting.rolesKept lonely_multisig h.continues
  obtain ⟨g, hg⟩ := Occupant.isMultisig_iff.mp hmultisig
  simp [handover, argsInRole, multisigArg, transactionArg,
    writable, hg, Occupant.isProposal]

theorem HandedOver.perform {w : World} {n : Nat} (h : HandedOver w n) :
    System.perform localRuntime w handover = some
      ⟨writeData w.ledger (keyOf 20) (Multisig.format.encode (lonely (UInt32.ofNat n + 1))),
        .ownersChanged (keyOf 20) [keyOf 11] :: w.history⟩ := by
  have hsigned : SignedMultisig localRuntime localRuntime.programId w.ledger
      (writable (keyOf 20)) (signer samplePda) (lonely (UInt32.ofNat n)) :=
    ⟨h.data, lonely_fits _, h.owner, samplePda_created, rfl⟩
  have howners : validateOwners (lonely (UInt32.ofNat n)) [keyOf 11] = .ok () :=
    (validateOwners_eq_ok_iff (lonely_fits _) (by decide)).mpr
      ⟨List.nodup_singleton _, by simp, show 32 * 1 ≤ 32 * 1 + 0 by decide⟩
  have hrun := setOwners_of_accepted hsigned howners (show 32 * 1 ≤ 32 * 1 + 0 by decide)
    (by rw [withOwners_lonely, lonely_fits]) []
  rw [withOwners_lonely] at hrun
  have hcall : MultisigInstruction.setOwners ⟨[keyOf 11]⟩ ≠ .executeTransaction := by simp
  refine (perform_call_eq_some_iff hcall).mpr ⟨_, hrun, ?_, rfl⟩
  change effectAllowed localRuntime _ _ _ = true
  exact effectAllowed_update h.owner (by decide) _

theorem HandedOver.next {w : World} {n : Nat} (h : HandedOver w n) :
    HandedOver ⟨writeData w.ledger (keyOf 20)
        (Multisig.format.encode (lonely (UInt32.ofNat n + 1))),
      .ownersChanged (keyOf 20) [keyOf 11] :: w.history⟩ (n + 1) where
  continues := h.continues.next h.keepsRoles h.perform
  owner := by simpa only [writeData_self] using h.owner
  data := by simp
  proposal := by
    simp only
    rw [writeData_of_ne _ (by decide), h.proposal]
  changes := by simp [ownerChanges, Event.changesOwnersOf, ← h.changes]

theorem exists_handedOver (n : Nat) : ∃ w, HandedOver w n := by
  induction n with
  | zero => exact ⟨_, handedOver_zero⟩
  | succ n ih =>
      rcases ih with ⟨w, h⟩
      exact ⟨_, h.next⟩

theorem lonely_spared : sparesCounter lonelyWorld handover = true := by decide +kernel

theorem epochs_never_reused_sample : ∃ w' : World,
    CountingWorld localRuntime lonelyWorld ∧
    Reachable (fun v => v = lonelyWorld) (perform localRuntime) (Counting localRuntime) w' ∧
    (lonelyWorld.registry (keyOf 20)).isMultisig = true ∧
    ownerChanges (keyOf 20) lonelyWorld.history < ownerChanges (keyOf 20) w'.history ∧
    ∃ multisig multisig',
      Multisig.checkedDeserialize (lonelyWorld.ledger (keyOf 20)).data = .ok multisig ∧
      Multisig.checkedDeserialize (w'.ledger (keyOf 20)).data = .ok multisig' ∧
      (ownerChanges (keyOf 20) lonelyWorld.history < ownerChanges (keyOf 20) w'.history →
        multisig.ownerSetSeqno < multisig'.ownerSetSeqno) ∧
      (∀ t p, w'.registry t = .proposal p → p.multisig = keyOf 20 →
        ∃ transaction, Transaction.checkedDeserialize (w'.ledger t).data = .ok transaction ∧
          transaction.ownerSetSeqno ≤ multisig'.ownerSetSeqno) ∧
      ∀ later mid older owners t signers instructions,
        w'.history = later ++ .ownersChanged (keyOf 20) owners ::
          (mid ++ .proposed (keyOf 20) t signers instructions :: older) →
        (∀ event ∈ later ++ mid, event.closes t = false) →
        ∃ transaction, Transaction.checkedDeserialize (w'.ledger t).data = .ok transaction ∧
          transaction.ownerSetSeqno < multisig'.ownerSetSeqno := by
  have hrun : Reachable (fun v => v = lonelyWorld) (perform localRuntime)
      (Counting localRuntime) _ :=
    .next (.init rfl) ⟨handedOver_zero.keepsRoles, lonely_spared⟩ handedOver_zero.perform
  refine ⟨_, lonelyWorld_counting, hrun, lonely_multisig, ?_,
    epochs_never_reused lonelyWorld_counting hrun lonely_multisig⟩
  rw [handedOver_zero.next.changes, handedOver_zero.changes]
  exact Nat.zero_lt_one

/-- 2³² owner changes later the counter is back at zero, where it was before the first. -/
theorem epoch_reused : ∃ w w' : World,
    RolesKeptWorld localRuntime w ∧ Continues localRuntime w w' ∧
    ownerChanges (keyOf 20) w.history < ownerChanges (keyOf 20) w'.history ∧
    ∃ multisig multisig' transaction,
      Multisig.checkedDeserialize (w.ledger (keyOf 20)).data = .ok multisig ∧
      Multisig.checkedDeserialize (w'.ledger (keyOf 20)).data = .ok multisig' ∧
      Transaction.checkedDeserialize (w.ledger (keyOf 30)).data = .ok transaction ∧
      Transaction.checkedDeserialize (w'.ledger (keyOf 30)).data = .ok transaction ∧
      multisig'.ownerSetSeqno = multisig.ownerSetSeqno ∧
      transaction.ownerSetSeqno = multisig'.ownerSetSeqno := by
  obtain ⟨w, h⟩ := exists_handedOver (2 ^ 32)
  have hwrapped : UInt32.ofNat (2 ^ 32) = 0 := by decide
  have hproposed : Transaction.checkedDeserialize (lonelyWorld.ledger (keyOf 30)).data =
      .ok ⟨keyOf 20, [storedNote], [true], 0⟩ := by decide +kernel
  refine ⟨lonelyWorld, w, lonelyWorld_counting.rolesKept, h.continues, ?_, lonely 0, lonely 0,
    ⟨keyOf 20, [storedNote], [true], 0⟩, ?_, ?_, hproposed, ?_, rfl, rfl⟩
  · rw [h.changes, handedOver_zero.changes]
    exact Nat.two_pow_pos 32
  · rw [handedOver_zero.data]
    exact Multisig.checkedDeserialize_encode (lonely_fits 0)
  · rw [h.data, hwrapped]
    exact Multisig.checkedDeserialize_encode (lonely_fits 0)
  · rw [h.proposal, hproposed]

end LocalRuns

end MultisigNative.Properties
