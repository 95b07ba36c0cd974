import MultisigNative.Instructions.OverflowChecks
import MultisigNative.Properties.Capacity

/-!
Owner changes in the two builds.  The sizes that `validate_owners` computes are in range;
the padding that `execute_set_owners` computes is not when a list grows back, and only
because the release build wraps does that go unnoticed.  Runs that never lengthen a list
are the same in either build.
-/

namespace MultisigNative.Properties

open Library.StateError
open Library.Transition
open Solana
open State
open Instructions
open Processor
open MultisigNative.System
open LocalRuntime

/-- No `usize` operation of an owner change goes below zero or overflows. -/
structure SizesInRange (multisig : Multisig) (owners : List Pubkey) : Prop where
  skips : ∀ i, i < owners.length → (skipSize i).InRange
  needed : (ownersSize owners).InRange
  available : (capacitySize multisig).InRange
  padding : (paddingSize multisig owners).InRange

section Builds

variable {rt : Runtime} {programId : Pubkey} {L : Ledger} {m s : AccountInfo}
  {multisig : Multisig} {owners : List Pubkey}

theorem sizesInRange_iff (hfits : Multisig.format.fits multisig = true)
    (hmemory : FitsMemory owners) :
    SizesInRange multisig owners ↔ owners.length ≤ multisig.owners.length := by
  have hlen := hmemory.size_lt
  rw [← paddingSize_inRange_iff hfits hlen]
  constructor
  · intro h
    exact h.padding
  · intro hpadding
    exact ⟨fun i hi => skipSize_inRange hi hlen, ownersSize_inRange hlen,
      capacitySize_inRange hfits, hpadding⟩

/-- What follows the owner change in a handler plays no part, if it does not panic. -/
theorem executeSetOwnersIn_bind_eq_iff (hfits : Multisig.format.fits multisig = true)
    (hmemory : FitsMemory owners) {f : Multisig → Handler Unit}
    (hf : ∀ written L L', f written L ≠ .error .panicked L') :
    (executeSetOwnersIn .overflowChecks m multisig owners >>= f) L =
        (executeSetOwnersIn .release m multisig owners >>= f) L ↔
      owners.length ≤ multisig.owners.length ∧ multisig.ownerSetSeqno ≠ 4294967295 := by
  rw [← paddingSize_inRange_iff hfits hmemory.size_lt, ← nextSeqno_inRange_iff]
  constructor
  · intro hsame
    by_contra hout
    rw [bind_of_error (executeSetOwnersIn_panicked hout), executeSetOwnersIn_release]
      at hsame
    rcases bind_eq_error_iff.mp hsame.symm with hwrite | ⟨written, mid, -, hrest⟩
    · exact executeSetOwners_ne_panicked hwrite
    · exact hf written mid L hrest
  · rintro ⟨hpadding, hseqno⟩
    rw [executeSetOwnersIn_eq .overflowChecks hpadding hseqno, executeSetOwnersIn_release]

theorem setOwnersIn_of_accepted (build : Build)
    (hsigned : SignedMultisig rt programId L m s multisig) (hmemory : FitsMemory owners)
    (howners : validateOwners multisig owners = .ok ()) (rest : List AccountInfo) :
    setOwnersIn build rt programId (m :: s :: rest) ⟨owners⟩ L =
      (executeSetOwnersIn build m multisig owners >>= fun _ => pure ()) L := by
  rw [setOwnersIn, withSignedMultisig_of_signed hsigned,
    validateOwnersIn_eq build hsigned.fits hmemory.size_lt, liftM_bind_of_ok howners]

theorem setOwnersAndChangeThresholdIn_of_accepted (build : Build) {threshold : UInt8}
    (hsigned : SignedMultisig rt programId L m s multisig) (hmemory : FitsMemory owners)
    (howners : validateOwners multisig owners = .ok ())
    (hthreshold : validateThreshold threshold owners = .ok ()) (rest : List AccountInfo) :
    setOwnersAndChangeThresholdIn build rt programId (m :: s :: rest) ⟨owners, threshold⟩ L =
      (executeSetOwnersIn build m multisig owners >>= fun written =>
        executeChangeThreshold m written threshold >>= fun _ => pure ()) L := by
  rw [setOwnersAndChangeThresholdIn, withSignedMultisig_of_signed hsigned,
    validateOwnersIn_eq build hsigned.fits hmemory.size_lt, liftM_bind_of_ok howners,
    liftM_bind_of_ok hthreshold]

/-- The two handlers that change owners do the same in either build if and only if the list
is no longer than the current one and the counter of owner changes is not full. -/
theorem ownerChanges_eq_iff (hsigned : SignedMultisig rt programId L m s multisig)
    (hmemory : FitsMemory owners) (howners : validateOwners multisig owners = .ok ())
    (rest : List AccountInfo) :
    (setOwnersIn .overflowChecks rt programId (m :: s :: rest) ⟨owners⟩ L =
        setOwnersIn .release rt programId (m :: s :: rest) ⟨owners⟩ L ↔
      owners.length ≤ multisig.owners.length ∧ multisig.ownerSetSeqno ≠ 4294967295) ∧
    ∀ threshold, validateThreshold threshold owners = .ok () →
      (setOwnersAndChangeThresholdIn .overflowChecks rt programId (m :: s :: rest)
            ⟨owners, threshold⟩ L =
          setOwnersAndChangeThresholdIn .release rt programId (m :: s :: rest)
            ⟨owners, threshold⟩ L ↔
        owners.length ≤ multisig.owners.length ∧ multisig.ownerSetSeqno ≠ 4294967295) := by
  constructor
  · rw [setOwnersIn_of_accepted .overflowChecks hsigned hmemory howners,
      setOwnersIn_of_accepted .release hsigned hmemory howners]
    refine executeSetOwnersIn_bind_eq_iff hsigned.fits hmemory ?_
    intro written L L' h
    cases h
  · intro threshold hthreshold
    rw [setOwnersAndChangeThresholdIn_of_accepted .overflowChecks hsigned hmemory howners
        hthreshold,
      setOwnersAndChangeThresholdIn_of_accepted .release hsigned hmemory howners hthreshold]
    refine executeSetOwnersIn_bind_eq_iff hsigned.fits hmemory ?_
    intro written L L' h
    rcases bind_eq_error_iff.mp h with hwrite | ⟨_, _, -, hrest⟩
    · exact executeChangeThreshold_ne_panicked hwrite
    · cases hrest

end Builds

section Runs

variable {rt : Runtime} {w : World} {label : Label rt} {programId : Pubkey} {L : Ledger}
  {accounts : List AccountInfo} {owners : List Pubkey}

/-- What becomes of the world when an owner change returns. -/
def afterChange (rt : Runtime) (w : World) (instruction : MultisigInstruction)
    (accounts : List AccountInfo) : EStateM.Result Fault Ledger Unit → Option World
  | .ok _ L =>
      if effectAllowed rt accounts w.ledger L then
        some ⟨L, eventsOf instruction accounts ++ w.history⟩
      else none
  | .error _ _ => none

/-- The steps of the program with the owner changes of a build. -/
def performIn (build : Build) (rt : Runtime) (w : World) : Label rt → Option World
  | .call (.setOwners data) accounts =>
      afterChange rt w (.setOwners data) accounts
        (setOwnersIn build rt rt.programId accounts data w.ledger)
  | .call (.setOwnersAndChangeThreshold data) accounts =>
      afterChange rt w (.setOwnersAndChangeThreshold data) accounts
        (setOwnersAndChangeThresholdIn build rt rt.programId accounts data w.ledger)
  | label => perform rt w label

theorem performIn_release : performIn .release rt w label = perform rt w label := by
  cases label with
  | call instruction accounts =>
      cases instruction with
      | setOwners data =>
          rw [performIn, setOwnersIn_release]
          rfl
      | setOwnersAndChangeThreshold data =>
          rw [performIn, setOwnersAndChangeThresholdIn_release]
          rfl
      | _ => rfl
  | _ => rfl

/-- The list is a slice in memory that does not lengthen the list of the multisig at `k`,
whose counter of owner changes is not full. -/
def ownersInRange (L : Ledger) (k : Pubkey) (owners : List Pubkey) : Bool :=
  decide (FitsMemory owners) &&
    match Multisig.checkedDeserialize (L k).data with
    | .ok multisig =>
        decide (owners.length ≤ multisig.owners.length ∧
          multisig.ownerSetSeqno ≠ 4294967295)
    | .error _ => true

/-- A step changes owners only so. -/
def changesInRange (w : World) : Label rt → Bool
  | .call (.setOwners data) (m :: _) => ownersInRange w.ledger m.key data.owners
  | .call (.setOwnersAndChangeThreshold data) (m :: _) =>
      ownersInRange w.ledger m.key data.owners
  | _ => true

/-- There the two builds validate and change the owners alike. -/
theorem builds_eq_of_inRange {m s : AccountInfo} {multisig : Multisig}
    (hsigned : SignedMultisig rt programId L m s multisig)
    (h : ownersInRange L m.key owners = true) :
    validateOwnersIn .overflowChecks multisig owners =
        validateOwnersIn .release multisig owners ∧
      executeSetOwnersIn .overflowChecks m multisig owners =
        executeSetOwnersIn .release m multisig owners := by
  have hdecode : Multisig.checkedDeserialize (L m.key).data = .ok multisig :=
    Multisig.checkedDeserialize_eq_ok_iff.mpr ⟨hsigned.fits, hsigned.data⟩
  simp only [ownersInRange, hdecode, Bool.and_eq_true, decide_eq_true_eq] at h
  obtain ⟨hmemory, hle, hseqno⟩ := h
  have hpadding := (paddingSize_inRange_iff hsigned.fits hmemory.size_lt).mpr hle
  have hnext := nextSeqno_inRange_iff.mpr hseqno
  constructor
  · rw [validateOwnersIn_eq .overflowChecks hsigned.fits hmemory.size_lt,
      validateOwnersIn_release]
  · rw [executeSetOwnersIn_eq .overflowChecks hpadding hnext, executeSetOwnersIn_release]

theorem setOwnersIn_eq_of_inRange
    (h : ∀ m rest, accounts = m :: rest → ownersInRange L m.key owners = true) :
    setOwnersIn .overflowChecks rt programId accounts ⟨owners⟩ L =
      setOwnersIn .release rt programId accounts ⟨owners⟩ L := by
  refine withSignedMultisig_congr ?_
  intro m s rest multisig haccounts hsigned
  obtain ⟨hvalidate, hexecute⟩ := builds_eq_of_inRange hsigned (h m _ haccounts)
  simp only [hvalidate, hexecute]

theorem setOwnersAndChangeThresholdIn_eq_of_inRange {threshold : UInt8}
    (h : ∀ m rest, accounts = m :: rest → ownersInRange L m.key owners = true) :
    setOwnersAndChangeThresholdIn .overflowChecks rt programId accounts
        ⟨owners, threshold⟩ L =
      setOwnersAndChangeThresholdIn .release rt programId accounts
        ⟨owners, threshold⟩ L := by
  refine withSignedMultisig_congr ?_
  intro m s rest multisig haccounts hsigned
  obtain ⟨hvalidate, hexecute⟩ := builds_eq_of_inRange hsigned (h m _ haccounts)
  simp only [hvalidate, hexecute]

/-- A step that stays in range is the same in either build. -/
theorem performIn_overflowChecks (h : changesInRange w label = true) :
    performIn .overflowChecks rt w label = perform rt w label := by
  rw [← performIn_release]
  cases label with
  | call instruction accounts =>
      cases instruction with
      | setOwners data =>
          rw [performIn, performIn, setOwnersIn_eq_of_inRange]
          rintro m rest rfl
          exact h
      | setOwnersAndChangeThreshold data =>
          rw [performIn, performIn, setOwnersAndChangeThresholdIn_eq_of_inRange]
          rintro m rest rfl
          exact h
      | _ => rfl
  | _ => rfl

end Runs

/-- For every list of owners that `validate_owners` accepts, all sizes are in range if and
only if the list is no longer than the current one.  The owner changes of a build with
overflow checks are those of a release build if and only if, moreover, the counter of owner
changes is not full.  Runs of which this holds at every owner change reach the same worlds
in either build. -/
theorem sizes_in_range_iff (rt : Runtime) :
    (∀ multisig owners, Multisig.format.fits multisig = true → FitsMemory owners →
      validateOwners multisig owners = .ok () →
      (SizesInRange multisig owners ↔ owners.length ≤ multisig.owners.length) ∧
      ∀ programId L m s rest, SignedMultisig rt programId L m s multisig →
        (setOwnersIn .overflowChecks rt programId (m :: s :: rest) ⟨owners⟩ L =
            setOwnersIn .release rt programId (m :: s :: rest) ⟨owners⟩ L ↔
          owners.length ≤ multisig.owners.length ∧ multisig.ownerSetSeqno ≠ 4294967295) ∧
        ∀ threshold, validateThreshold threshold owners = .ok () →
          (setOwnersAndChangeThresholdIn .overflowChecks rt programId (m :: s :: rest)
                ⟨owners, threshold⟩ L =
              setOwnersAndChangeThresholdIn .release rt programId (m :: s :: rest)
                ⟨owners, threshold⟩ L ↔
            owners.length ≤ multisig.owners.length ∧
              multisig.ownerSetSeqno ≠ 4294967295)) ∧
    ∀ w,
      Reachable (World.Initial rt) (performIn .overflowChecks rt)
          (fun w label => changesInRange w label = true) w ↔
        Reachable (World.Initial rt) (perform rt)
          (fun w label => changesInRange w label = true) w := by
  constructor
  · intro multisig owners hfits hmemory howners
    refine ⟨sizesInRange_iff hfits hmemory, ?_⟩
    intro programId L m s rest hsigned
    exact ownerChanges_eq_iff hsigned hmemory howners rest
  · intro w
    constructor
    · exact Reachable.congr fun _ _ hrange => performIn_overflowChecks hrange
    · exact Reachable.congr fun _ _ hrange => (performIn_overflowChecks hrange).symm

section LocalRuns

/-- The two steps that lead there, tested for their range. -/
def shrunkSample : World :=
  (Library.Transition.perform (System.perform localRuntime) changesInRange
    ⟨genesis [keyOf 11], []⟩ configuredSteps).get (by decide +kernel)

theorem shrunkSample_reachable :
    Reachable (World.Initial localRuntime) (System.perform localRuntime)
      (fun w label => changesInRange w label = true) shrunkSample :=
  reachable_of_perform (fun _ _ h => h) (.init (localStart_initial _).world)
    (Option.some_get _).symm

/-- One of its two owners is replaced, and a build with overflow checks gets there. -/
theorem sizes_in_range_iff_sample :
    SizesInRange shrunk [keyOf 13, keyOf 11] ∧
    setOwnersIn .overflowChecks localRuntime localRuntime.programId
        [writable (keyOf 20), signer samplePda] ⟨[keyOf 13, keyOf 11]⟩
        configuredSample.ledger =
      setOwnersIn .release localRuntime localRuntime.programId
        [writable (keyOf 20), signer samplePda] ⟨[keyOf 13, keyOf 11]⟩
        configuredSample.ledger ∧
    Reachable (World.Initial localRuntime) (performIn .overflowChecks localRuntime)
      (fun w label => changesInRange w label = true) shrunkSample ∧
    Multisig.checkedDeserialize (shrunkSample.ledger (keyOf 20)).data = .ok shrunk := by
  obtain ⟨hstates, hruns⟩ := sizes_in_range_iff localRuntime
  obtain ⟨hsizes, hbuilds⟩ := hstates shrunk [keyOf 13, keyOf 11] shrunk_signed.fits
    (by decide) (by decide +kernel)
  refine ⟨hsizes.mpr (by decide), ?_, ?_, by decide +kernel⟩
  · exact (hbuilds _ _ _ _ [] shrunk_signed).1.mpr (by decide)
  · exact (hruns shrunkSample).mpr shrunkSample_reachable

/-- Back to three owners, as many as it was created with, the sample multisig is accepted;
a release build writes the owners, and one with overflow checks panics. -/
theorem sizes_out_of_range : ∃ w,
    ConfiguredWorld localRuntime (fun _ => true) w ∧
    Multisig.checkedDeserialize (w.ledger (keyOf 20)).data = .ok shrunk ∧
    validateOwners shrunk [keyOf 11, keyOf 12, keyOf 13] = .ok () ∧
    ¬ SizesInRange shrunk [keyOf 11, keyOf 12, keyOf 13] ∧
    setOwnersIn .overflowChecks localRuntime localRuntime.programId
        [writable (keyOf 20), signer samplePda] ⟨[keyOf 11, keyOf 12, keyOf 13]⟩ w.ledger =
      .error .panicked w.ledger ∧
    ∃ L', setOwnersIn .release localRuntime localRuntime.programId
        [writable (keyOf 20), signer samplePda] ⟨[keyOf 11, keyOf 12, keyOf 13]⟩ w.ledger =
      .ok () L' := by
  have hmemory : FitsMemory [keyOf 11, keyOf 12, keyOf 13] := by decide
  have hreachable : ConfiguredWorld localRuntime (fun _ => true) configuredSample :=
    configuredSample_reachable.mono fun _ _ hallowed => ⟨hallowed.1, rfl⟩
  have howners : validateOwners shrunk [keyOf 11, keyOf 12, keyOf 13] = .ok () := by
    decide +kernel
  have hlonger : ¬ (paddingSize shrunk [keyOf 11, keyOf 12, keyOf 13]).InRange := by
    rw [paddingSize_inRange_iff shrunk_signed.fits hmemory.size_lt]
    decide
  have hpanics : ¬ ((paddingSize shrunk [keyOf 11, keyOf 12, keyOf 13]).InRange ∧
      (nextSeqno shrunk).InRange) := fun h => hlonger h.1
  refine ⟨configuredSample, hreachable, by decide +kernel, howners,
    fun h => hlonger h.padding, ?_, ?_⟩
  · rw [setOwnersIn_of_accepted .overflowChecks shrunk_signed hmemory howners]
    exact bind_of_error (executeSetOwnersIn_panicked hpanics)
  · have hle := capacity_of_accepted shrunk_signed.fits hmemory howners
    rw [setOwnersIn_release]
    exact ⟨_, setOwners_of_accepted shrunk_signed howners hle (by decide) []⟩

end LocalRuns

end MultisigNative.Properties
