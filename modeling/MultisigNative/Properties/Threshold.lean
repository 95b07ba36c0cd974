import MultisigNative.Properties.Quorum

/-!
Owners and threshold of a multisig in the runs that create and configure
multisigs.  The number of owners counts modulo 256, so a list of a multiple of
256 owners takes the threshold down to zero.
-/

namespace MultisigNative.Properties

open Library.StateError
open Library.Transition
open Solana
open State
open Instructions
open Processor
open MultisigNative.System
open LocalRuntime

/-- The steps that create or configure a multisig, and those of other programs. -/
def configures {rt : Runtime} : Label rt → Bool
  | .idle => true
  | .foreign _ => true
  | .call (.createMultisig _) _ => true
  | .call (.setOwners _) _ => true
  | .call (.changeThreshold _) _ => true
  | .call (.setOwnersAndChangeThreshold _) _ => true
  | _ => false

/-- The worlds reached by such steps alone, each of which satisfies `ok`. -/
def ConfiguredWorld (rt : Runtime) (ok : Label rt → Bool) : World → Prop :=
  Reachable (World.Initial rt) (perform rt) fun _ label =>
    configures label = true ∧ ok label = true

section Configured

variable {rt : Runtime} {w w' : World} {label : Label rt}

structure OnlyMultisigs (rt : Runtime) (w : World) : Prop where
  held : Held rt w
  lawful : Lawful w.history
  no_proposals : ∀ k, (w.registry k).isProposal = false

/-- Without proposals every account is in its role. -/
theorem OnlyMultisigs.keepsRoles (h : OnlyMultisigs rt w)
    (hconfigures : configures label = true) : label.keepsRoles w.registry = true := by
  cases label with
  | idle => rfl
  | «foreign» updates => rfl
  | start accounts => cases hconfigures
  | close e => cases hconfigures
  | call instruction accounts =>
      have hmultisig : ∀ k, multisigArg instruction accounts = some k →
          (!(w.registry k).isProposal) = true := by
        intro k _
        rw [h.no_proposals k]
        rfl
      cases instruction with
      | proposeTransaction data => cases hconfigures
      | approveTransaction => cases hconfigures
      | executeTransaction => cases hconfigures
      | cancelTransaction => cases hconfigures
      | _ =>
          simp only [Label.keepsRoles_call, argsInRole, transactionArg,
            Option.all_none, Bool.and_true]
          exact (Option.all_eq_true _ _).mpr hmultisig

theorem OnlyMultisigs.effect (h : OnlyMultisigs rt w) (heffect : Effect rt w label w')
    (hconfigures : configures label = true) : OnlyMultisigs rt w' := by
  have hrole := h.keepsRoles hconfigures
  refine ⟨h.held.effect heffect (Label.inRole_of_keepsRoles hrole), ?_, ?_⟩
  · rcases h.held.enabled heffect hrole with hsame | ⟨event, hhistory, henabled⟩
    · rw [hsame]
      exact h.lawful
    · rw [hhistory]
      exact lawful_cons.mpr ⟨henabled, h.lawful⟩
  · intro k
    by_cases hk : label.subject = some k
    · cases heffect with
      | created hvalid hfits hinit =>
          obtain rfl := Option.some.inj hk
          simp [World.registry_cons, Event.apply, Occupant.isProposal]
      | @configured m s rest instruction multisig written event hsigned hchange hfits =>
          obtain rfl : m.key = k := by cases hchange <;> exact Option.some.inj hk
          obtain ⟨g, hg, -⟩ := h.held.configured (Label.inRole_of_keepsRoles hrole)
            hsigned hchange
          rw [World.registry_cons]
          cases hchange <;>
            simp [Event.apply, hg, Occupant.changeOwners, Occupant.isProposal]
      | idle => cases hk
      | «foreign» hforeign => cases hk
      | _ => cases hconfigures
    · rw [(heffect.frame hk).2.1]
      exact h.no_proposals k

theorem onlyMultisigs_of_configured {ok : Label rt → Bool}
    (h : ConfiguredWorld rt ok w) : OnlyMultisigs rt w := by
  refine h.invariant (I := OnlyMultisigs rt) ?_ ?_
  · intro w hinit
    refine ⟨.of_initial hinit, ?_, ?_⟩
    · rw [hinit.history]
      trivial
    · intro k
      rw [hinit.vacant k]
      rfl
  · intro w label w' _ honly hallowed hperform
    exact honly.effect (perform_effect hperform) hallowed.1

end Configured

section Threshold

variable {rt : Runtime} {w w' : World} {label : Label rt}

/-- `set_owners` gets a number of owners that the cast to `u8` does not take to
zero. -/
def keepsThreshold {rt : Runtime} : Label rt → Bool
  | .call (.setOwners data) _ => decide (data.owners.length % 256 ≠ 0)
  | _ => true

/-- The clamp keeps a threshold positive unless the list counts as empty. -/
theorem withOwners_threshold_pos_iff {multisig : Multisig} {owners : List Pubkey}
    (hpos : 0 < multisig.threshold.toNat) :
    0 < (withOwners multisig owners).threshold.toNat ↔ owners.length % 256 ≠ 0 := by
  rw [withOwners_threshold_toNat]
  omega

theorem Reconfigures.threshold_pos {key : Pubkey} {multisig written : Multisig}
    {instruction : MultisigInstruction} {event : Event} {accounts : List AccountInfo}
    (hchange : Reconfigures key multisig instruction written event)
    (hpos : 0 < multisig.threshold.toNat)
    (hkeeps : keepsThreshold (.call instruction accounts : Label rt) = true) :
    0 < written.threshold.toNat := by
  cases hchange with
  | setOwners howners =>
      exact (withOwners_threshold_pos_iff hpos).mpr (of_decide_eq_true hkeeps)
  | changeThreshold hthreshold => exact hthreshold.1
  | setOwnersAndChangeThreshold howners hthreshold => exact hthreshold.1

def ThresholdsPositive (w : World) : Prop :=
  ∀ k m, (w.registry k).isMultisig = true → Multisig.format.fits m = true →
    (w.ledger k).data = Multisig.format.encode m → 0 < m.threshold.toNat

theorem thresholdsPositive_effect (honly : OnlyMultisigs rt w)
    (h : ThresholdsPositive w) (heffect : Effect rt w label w')
    (hconfigures : configures label = true) (hkeeps : keepsThreshold label = true) :
    ThresholdsPositive w' := by
  have hrole := honly.keepsRoles hconfigures
  intro k m hk' hfits hdata
  by_cases hk : label.subject = some k
  · cases heffect with
    | @created m' s payer system rest data L' hvalid hfits' hinit =>
        obtain rfl := Option.some.inj hk
        simp only [hinit.account_eq] at hdata
        obtain rfl := Multisig.format.encode_injective hfits' hfits hdata
        exact hvalid.threshold_pos
    | @configured m' s rest instruction multisig written event hsigned hchange hfits' =>
        obtain rfl : m'.key = k := by cases hchange <;> exact Option.some.inj hk
        obtain ⟨g, hg, hholds⟩ := honly.held.configured
          (Label.inRole_of_keepsRoles hrole) hsigned hchange
        simp only [writeData_self] at hdata
        obtain rfl := Multisig.format.encode_injective hfits' hfits hdata
        have hpos := h m'.key multisig (by rw [hg, Occupant.isMultisig]) hholds.fits
          hholds.data
        exact Reconfigures.threshold_pos hchange hpos hkeeps
    | idle => cases hk
    | «foreign» hforeign => cases hk
    | _ => cases hconfigures
  · obtain ⟨hkept, hsame, -⟩ := heffect.frame hk
    rw [hsame] at hk'
    obtain ⟨g, hg⟩ := Occupant.isMultisig_iff.mp hk'
    obtain ⟨multisig, hholds⟩ := honly.held.exists_multisig hg
    rw [(hkept.owned hholds.owner hholds.funded).2.1] at hdata
    exact h k m hk' hfits hdata

/-- As long as `set_owners` never gets a multiple of 256 owners, every multisig has
distinct owners and a threshold between one and their number. -/
theorem configuration_valid (h : ConfiguredWorld rt keepsThreshold w) {k : Pubkey}
    (hk : (w.registry k).isMultisig = true) :
    ∃ multisig, Multisig.checkedDeserialize (w.ledger k).data = .ok multisig ∧
      multisig.owners ≠ [] ∧ multisig.owners.Nodup ∧ 1 ≤ multisig.threshold.toNat ∧
      multisig.threshold.toNat ≤ multisig.owners.length := by
  have honly := onlyMultisigs_of_configured h
  have hpositive : OnlyMultisigs rt w ∧ ThresholdsPositive w := by
    refine h.invariant (I := fun w => OnlyMultisigs rt w ∧ ThresholdsPositive w) ?_ ?_
    · intro w hinit
      refine ⟨onlyMultisigs_of_configured (.init hinit : ConfiguredWorld rt
        keepsThreshold w), ?_⟩
      intro k m hk
      rw [hinit.vacant k] at hk
      cases hk
    · rintro w label w' - ⟨honly, hpositive⟩ ⟨hconfigures, hkeeps⟩ hperform
      have heffect := perform_effect hperform
      exact ⟨honly.effect heffect hconfigures,
        thresholdsPositive_effect honly hpositive heffect hconfigures hkeeps⟩
  obtain ⟨g, hg⟩ := Occupant.isMultisig_iff.mp hk
  obtain ⟨multisig, hholds⟩ := honly.held.exists_multisig hg
  refine ⟨multisig, hholds.decodes, ?_, ?_, ?_, hholds.threshold_le⟩
  · rw [hholds.owners]
    exact hholds.ne_nil
  · rw [hholds.owners]
    exact hholds.nodup
  · exact hpositive.2 k multisig hk hholds.fits hholds.data

end Threshold

section LocalRuns

/-- A multisig of three owners goes down to two. -/
def configuredSteps : List (Label localRuntime) :=
  [.call (.createMultisig ⟨[keyOf 11, keyOf 12, keyOf 13], 3, 5⟩)
      [signer (keyOf 20), readonly samplePda, signer (keyOf 11), readonly systemProgram],
    .call (.setOwners ⟨[keyOf 12, keyOf 11]⟩) [writable (keyOf 20), signer samplePda]]

def configuredSample : World :=
  (Library.Transition.perform (System.perform localRuntime)
    (fun _ label => configures label && keepsThreshold label) ⟨genesis [keyOf 11], []⟩
    configuredSteps).get (by decide +kernel)

theorem configuredSample_reachable :
    ConfiguredWorld localRuntime keepsThreshold configuredSample := by
  refine reachable_of_perform ?_ (.init (localStart_initial _).world)
    (Option.some_get _).symm
  intro w label h
  exact Bool.and_eq_true_iff.mp h

/-- What the sample multisig of three owners is after it has gone down to two. -/
def shrunk : Multisig := ⟨[keyOf 12, keyOf 11], 2, 5, 1, List.replicate 32 0⟩

theorem shrunk_signed : SignedMultisig localRuntime localRuntime.programId
    configuredSample.ledger (writable (keyOf 20)) (signer samplePda) shrunk :=
  ⟨by decide +kernel, by decide, by decide +kernel, samplePda_created, rfl⟩

theorem configuration_valid_sample :
    (configuredSample.registry (keyOf 20)).isMultisig = true ∧
    ∃ multisig, Multisig.checkedDeserialize (configuredSample.ledger (keyOf 20)).data =
        .ok multisig ∧
      multisig.owners ≠ [] ∧ multisig.owners.Nodup ∧ 1 ≤ multisig.threshold.toNat ∧
      multisig.threshold.toNat ≤ multisig.owners.length := by
  have hmultisig : (configuredSample.registry (keyOf 20)).isMultisig = true := by
    decide +kernel
  exact ⟨hmultisig, configuration_valid configuredSample_reachable hmultisig⟩

/-- Distinct keys, as many as needed. -/
def numbered (i : Nat) : Pubkey :=
  ⟨[UInt8.ofNat i, UInt8.ofNat (i / 256)] ++ List.replicate 30 0, rfl⟩

def manyOwners (n : Nat) : List Pubkey := (List.range n).map numbered

@[simp] theorem manyOwners_length (n : Nat) : (manyOwners n).length = n := by
  simp [manyOwners]

theorem manyOwners_nodup {n : Nat} (hn : n ≤ 65536) : (manyOwners n).Nodup := by
  refine List.Nodup.map_on ?_ List.nodup_range
  intro i hi j hj heq
  simp only [List.mem_range] at hi hj
  have hbytes := congrArg Pubkey.bytes heq
  simp only [numbered, List.cons_append, List.nil_append, List.cons.injEq,
    and_true] at hbytes
  have hlow := congrArg UInt8.toNat hbytes.1
  have hhigh := congrArg UInt8.toNat hbytes.2
  simp only [UInt8.toNat_ofNat'] at hlow hhigh
  omega

/-- A multisig of 257 owners, any one of whom may act. -/
def crowd : CreateMultisigInstruction := ⟨manyOwners 257, 1, 5⟩

theorem crowd_len : (CreateMultisig.newMultisig crowd).len = 8238 := by
  simp [Multisig.len, PUBKEY_BYTES, CreateMultisig.newMultisig, crowd]

theorem crowd_fits : Multisig.format.fits (CreateMultisig.newMultisig crowd) = true := by
  rw [Multisig.format_fits_iff]
  simp [CreateMultisig.newMultisig, crowd]

theorem crowd_created : ∃ L,
    Initialised localRuntime (signer (keyOf 11)) (signer (keyOf 20))
      (Multisig.format.encode (CreateMultisig.newMultisig crowd)) (genesis [keyOf 11]) L ∧
    perform localRuntime ⟨genesis [keyOf 11], []⟩ (.call (.createMultisig crowd)
        [signer (keyOf 20), readonly samplePda, signer (keyOf 11),
          readonly systemProgram]) =
      some ⟨L, [.multisigCreated (keyOf 20) crowd.owners 5]⟩ := by
  have hsucceeds : succeeds (localRuntime.createAccount (signer (keyOf 11))
      (signer (keyOf 20)) (localRuntime.minimumBalance 8238) 8238
      localRuntime.programId) (genesis [keyOf 11]) = true := by decide +kernel
  obtain ⟨_, mid, hmid⟩ := succeeds_eq_true_iff.mp hsucceeds
  rw [← crowd_len] at hmid
  obtain ⟨L, hL⟩ :=
    createAndSerialize_of_created (Multisig.format_encode_length _) crowd_fits hmid
  obtain ⟨-, hinit⟩ :=
    initialised_of_createAndSerialize (Multisig.format_encode_length _) hL
  have hnodup : crowd.owners.Nodup := manyOwners_nodup (n := 257) (by decide)
  have hvalid : CreateMultisig.Valid localRuntime localRuntime.programId
      (signer (keyOf 20)) (readonly samplePda) (readonly systemProgram) crowd :=
    ⟨rfl, hnodup, by decide, by simp [crowd], by decide⟩
  have hne : MultisigInstruction.createMultisig crowd ≠ .executeTransaction := by simp
  refine ⟨L, hinit, (perform_call_eq_some_iff hne).mpr ⟨L, ?_, ?_, rfl⟩⟩
  · rw [runHandler_createMultisig, createMultisig_eq_ok_iff]
    exact ⟨_, _, _, _, _, rfl, hvalid, hL⟩
  · rw [createsAccount, Bool.true_or]

/-- Given 256 owners, its threshold is clamped to zero. -/
theorem crowd_halved {L : Ledger} {payer : AccountInfo} {before : Ledger}
    (hinit : Initialised localRuntime payer (signer (keyOf 20))
      (Multisig.format.encode (CreateMultisig.newMultisig crowd)) before L)
    (history : List Event) :
    Multisig.format.fits
      (withOwners (CreateMultisig.newMultisig crowd) (manyOwners 256)) = true ∧
    perform localRuntime ⟨L, history⟩ (.call (.setOwners ⟨manyOwners 256⟩)
        [writable (keyOf 20), signer samplePda]) =
      some ⟨writeData L (keyOf 20) (Multisig.format.encode
        (withOwners (CreateMultisig.newMultisig crowd) (manyOwners 256))),
        .ownersChanged (keyOf 20) (manyOwners 256) :: history⟩ := by
  have haccount := hinit.account_eq
  change L (keyOf 20) = _ at haccount
  have howner := congrArg Account.owner haccount
  have hsigned : SignedMultisig localRuntime localRuntime.programId L (writable (keyOf 20))
      (signer samplePda) (CreateMultisig.newMultisig crowd) :=
    ⟨congrArg Account.data haccount, crowd_fits, howner, samplePda_created, rfl⟩
  have hroom : 32 * (manyOwners 256).length ≤
      32 * (CreateMultisig.newMultisig crowd).owners.length +
        (CreateMultisig.newMultisig crowd).padding.length := by
    simp [CreateMultisig.newMultisig, crowd]
  have hfits := withOwners_fits crowd_fits hroom (by rw [crowd_len]; decide)
  have hnodup : (manyOwners 256).Nodup := manyOwners_nodup (by decide)
  have hnonempty : manyOwners 256 ≠ [] := List.ne_nil_of_length_pos (by simp)
  have haccepted : validateOwners (CreateMultisig.newMultisig crowd) (manyOwners 256) =
      .ok () := by
    refine (validateOwners_eq_ok_iff crowd_fits ?_).mpr ⟨hnodup, hnonempty, hroom⟩
    rw [manyOwners_length]
    decide
  have hcall : MultisigInstruction.setOwners ⟨manyOwners 256⟩ ≠ .executeTransaction := by simp
  refine ⟨hfits, (perform_call_eq_some_iff hcall).mpr
    ⟨_, setOwners_of_accepted hsigned haccepted hroom hfits [], ?_, rfl⟩⟩
  change effectAllowed localRuntime _ _ _ = true
  exact effectAllowed_update howner (by decide) _

/-- Its 256 owners count as none, and so does the quorum. -/
theorem configuration_broken : ∃ w,
    ConfiguredWorld localRuntime (fun _ => true) w ∧
    (w.registry (keyOf 20)).isMultisig = true ∧
    ∃ multisig, Multisig.checkedDeserialize (w.ledger (keyOf 20)).data = .ok multisig ∧
      ¬ 1 ≤ multisig.threshold.toNat := by
  rcases crowd_created with ⟨L, hinit, hcreated⟩
  obtain ⟨hfits, hhalved⟩ := crowd_halved hinit [.multisigCreated (keyOf 20) crowd.owners 5]
  refine ⟨_, .next (.next (.init (localStart_initial [keyOf 11]).world) ⟨rfl, rfl⟩ hcreated)
    ⟨rfl, rfl⟩ hhalved, rfl,
    withOwners (CreateMultisig.newMultisig crowd) (manyOwners 256), ?_, ?_⟩
  · simp only [writeData_self]
    exact Multisig.checkedDeserialize_encode hfits
  · rw [withOwners_threshold_toNat, manyOwners_length]
    decide

end LocalRuns

end MultisigNative.Properties
