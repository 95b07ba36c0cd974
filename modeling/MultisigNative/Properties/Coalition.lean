import MultisigNative.Properties.Specification

/-!
What owners who do not reach the threshold together can do to their multisig, with
whatever they call: nothing.
-/

namespace MultisigNative.Properties

open Library.Simulation
open Library.Transition
open Library.Voting
open Solana
open State
open Instructions
open Processor
open MultisigNative.System
open MultisigNative.Specification
open LocalRuntime

/-- The configurations of the runs that keep accounts in their roles, up to the close at
the end of an execution, wrap no counter and pass `set_owners` fewer than 256 owners. -/
def IntendedConfig (rt : Runtime) : Config rt → Prop :=
  Reachable Config.Initial step fun c action => intended c action = true

/-- How many owners are in the coalition. -/
def headcount (coalition : Finset Pubkey) (multisig : Multisig) : Nat :=
  (multisig.owners.filter fun key => decide (key ∈ coalition)).length

/-- How many owners have approved the transaction or are in the coalition. -/
def strength (coalition : Finset Pubkey) (multisig : Multisig) (transaction : Transaction) :
    Nat :=
  ((multisig.owners.zip transaction.signers).filter fun entry =>
    entry.2 || decide (entry.1 ∈ coalition)).length

/-- If the step proposes or approves for the multisig at `m`, a member of the coalition
does. -/
def actsWithin {rt : Runtime} (m : Pubkey) (coalition : Finset Pubkey) (label : Label rt) :
    Bool :=
  (deedOf label).all (Act.within m coalition)

section Counts

variable {coalition : Finset Pubkey} {c : Council} {m : Petition}

theorem length_filter_eq_card {roster : List Pubkey} (hnodup : roster.Nodup)
    (S : Finset Pubkey) (hsubset : ∀ key ∈ S, key ∈ roster) :
    (roster.filter fun key => decide (key ∈ S)).length = S.card := by
  rw [← List.toFinset_card_of_nodup (hnodup.filter _)]
  congr 1
  ext key
  simp only [List.mem_toFinset, List.mem_filter, decide_eq_true_eq]
  exact ⟨fun h => h.2, fun h => ⟨hsubset key h, h⟩⟩

theorem headcount_eq (coalition : Finset Pubkey) (c : Council) :
    headcount coalition (multisigOf c) = (coalition ∩ c.roster.toFinset).card := by
  rw [← length_filter_eq_card c.nodup _ fun key hkey =>
    List.mem_toFinset.mp (Finset.mem_inter.mp hkey).2]
  refine congrArg List.length (List.filter_congr ?_)
  intro key hkey
  simp [show key ∈ c.roster from hkey]

theorem strength_eq (coalition : Finset Pubkey) (hroster : m.roster = c.roster) :
    strength coalition (multisigOf c) (transactionOf m) =
      (m.supporters ∪ coalition ∩ c.roster.toFinset).card := by
  rw [← length_filter_eq_card c.nodup]
  · have hzip : (multisigOf c).owners.zip (transactionOf m).signers =
        c.roster.map fun key => (key, decide (key ∈ m.supporters)) := by
      change c.roster.zip (m.roster.map _) = _
      rw [hroster]
      simpa using List.zip_map' (f := id) (g := fun key => decide (key ∈ m.supporters))
        (l := c.roster)
    rw [strength, hzip, List.filter_map, List.length_map]
    refine congrArg List.length (List.filter_congr ?_)
    intro key hkey
    simp [hkey]
  · intro key hkey
    rcases Finset.mem_union.mp hkey with hsupporter | hmember
    · exact hroster ▸ m.supporters_subset key hsupporter
    · exact List.mem_toFinset.mp (Finset.mem_inter.mp hmember).2

end Counts

section Containment

variable {rt : Runtime} {c c' : Config rt} {m : Pubkey} {multisig : Multisig}
  {coalition : Finset Pubkey}

/-- With whom the coalition falls short: alone and with the approvals that an open
proposal of the present owners has. -/
structure FallsShort (w : World) (m : Pubkey) (multisig : Multisig)
    (coalition : Finset Pubkey) : Prop where
  alone : headcount coalition multisig < multisig.threshold.toNat
  joined : ∀ t p transaction, w.registry t = .proposal p → p.multisig = m →
    Transaction.checkedDeserialize (w.ledger t).data = .ok transaction →
    transaction.ownerSetSeqno = multisig.ownerSetSeqno →
    strength coalition multisig transaction < multisig.threshold.toNat

/-- On the board the coalition falls short, too. -/
theorem FallsShort.contained {w : World} {s : Board} {council : Council}
    (h : FallsShort w m (multisigOf council) coalition) (hmirrors : Mirrors rt w s)
    (hidle : s.running = []) (hitem : s.item m = .committee council)
    (hquorum : council.quorum < 256) : Contained m council coalition s where
  coherent := hmirrors.coherent
  item := hitem
  idle t := by simp [hidle]
  alone := by
    have halone := h.alone
    rwa [headcount_eq, threshold_toNat hquorum] at halone
  joined := by
    intro t motion hmotion hcommittee hepoch
    have hstores := hmirrors.stores t
    have hmatched := hmirrors.matched t
    rw [hmotion] at hstores hmatched
    obtain ⟨council', hitem', -, hroster⟩ := hmirrors.coherent t motion hmotion
    rw [hcommittee, hitem] at hitem'
    obtain rfl := Item.committee.inj hitem'
    cases hregistry : w.registry t with
    | proposal p =>
        rw [hregistry] at hmatched
        have hjoined := h.joined t p _ hregistry (hmatched.1.trans hcommittee) hstores.2.2
          (by rw [transactionOf, multisigOf, hepoch])
        rwa [strength_eq coalition (hroster hepoch), threshold_toNat hquorum] at hjoined
    | vacant =>
        rw [hregistry] at hmatched
        exact absurd hmatched id
    | multisig g =>
        rw [hregistry] at hmatched
        exact absurd hmatched id

/-- From between two transactions on, as long as only members of a coalition that falls
short propose and approve for a multisig, its account keeps its bytes and none of its
transactions is executed. -/
theorem coalition_contained (h : IntendedConfig rt c) (hstack : c.stack = [])
    (hcommitted : c.committed = c.world) (hm : (c.world.registry m).isMultisig = true)
    (hdecodes : Multisig.checkedDeserialize (c.world.ledger m).data = .ok multisig)
    (hshort : FallsShort c.world m multisig coalition)
    (hrun : Reachable (fun s => s = c) step (fun c action => intended c action = true ∧
      planned c action (actsWithin m coalition) = true) c') :
    (c'.world.ledger m).data = (c.world.ledger m).data ∧
      ∀ e ∈ executions c'.stack, e.validated.multisigAccount.key ≠ m := by
  obtain ⟨deeds, kept, hjournal⟩ := exists_journal meaning h
  obtain ⟨s, back, -, -, hstands⟩ := (simulates Stands.of_initial).runs hjournal
  have hidle : s.running = [] := by
    rw [hstands.running, hstack]
    rfl
  have hstart : Stands c s s :=
    ⟨hstands.world, hcommitted ▸ hstands.world, hstands.running, hidle, hstands.confined⟩
  obtain ⟨g, hg⟩ := Occupant.isMultisig_iff.mp hm
  obtain ⟨multisig', hholds⟩ := hstands.world.represents.held.exists_multisig hg
  obtain rfl := Except.ok.inj (hdecodes.symm.trans hholds.decodes)
  obtain ⟨council, hitem, rfl, -, hquorum⟩ := hstands.world.committee_of_holds hg hholds
  have hcontained := hshort.contained hstands.world hidle hitem hquorum
  have hsim : Simulates (fun s => s = c) step (fun c action => intended c action = true ∧
      planned c action (actsWithin m coalition) = true) meaning
      (CoalitionStep m coalition) s Stands := by
    have hinit : ∀ {c₁}, c₁ = c → Stands c₁ s s := by
      rintro _ rfl
      exact hstart
    refine (simulates hinit).narrow (fun hallowed => hallowed.1) ?_
    intro c₁ action t t' back deed _ hallowed hmeaning hspec
    obtain ⟨label, hdeed, hwithin⟩ := planned_of_event hmeaning hallowed.2
    rw [actsWithin, hdeed, Option.all_some] at hwithin
    exact ⟨hspec, hwithin⟩
  obtain ⟨deeds', kept', hjournal'⟩ := exists_journal meaning hrun
  obtain ⟨s', back', hrun', -, hstands'⟩ := hsim.runs hjournal'
  have hcontained' := contained_of_runs hcontained hrun'
  have hstores := hstands'.world.stores m
  rw [hcontained'.item] at hstores
  constructor
  · obtain ⟨-, hdata⟩ := Multisig.checkedDeserialize_eq_ok_iff.mp hdecodes
    obtain ⟨-, hdata'⟩ := Multisig.checkedDeserialize_eq_ok_iff.mp hstores.2.2
    rw [hdata', hdata]
  · rintro e he rfl
    apply hcontained'.idle e.validated.transactionAccount.key
    rw [hstands'.running]
    exact List.mem_map_of_mem he

theorem IntendedConfig.commit (h : IntendedConfig rt c) (hstack : c.stack = []) :
    IntendedConfig rt { c with committed := c.world } := by
  refine h.next (a := .commit) rfl ?_
  simp [step, hstack]

end Containment

section LocalRuns

/-- 11 has proposed a note to the sample multisig; 12 and 13 have not answered. -/
def proposingSample : Config localRuntime :=
  (anyRun [keyOf 11] intended ((sampleActions [storedNote]).take 2)).get (by decide +kernel)

def proposedSample : Config localRuntime :=
  { proposingSample with committed := proposingSample.world }

theorem proposingSample_stack : proposingSample.stack = [] := by
  rw [← List.isEmpty_iff]
  decide +kernel

theorem proposedSample_intended : IntendedConfig localRuntime proposedSample :=
  IntendedConfig.commit
    (reachable_of_perform (fun _ _ h => h) (.init (localStart_initial [keyOf 11]))
      (Option.some_get _).symm)
    proposingSample_stack

theorem proposedSample_stack : proposedSample.stack = [] := by
  simp only [proposedSample, proposingSample_stack]

theorem proposedSample_committed : proposedSample.committed = proposedSample.world := by
  simp only [proposedSample]

theorem proposedSample_history : proposedSample.world.history =
    [.proposed (keyOf 20) (keyOf 30) [keyOf 30, keyOf 11, keyOf 11] [storedNote],
      .multisigCreated (keyOf 20) [keyOf 11, keyOf 12, keyOf 13] 5] := by
  decide +kernel

/-- 11 approves its own proposal once more, makes another and approves it, too. -/
def insistingActions : List Action :=
  [localCall [readonly (keyOf 20), writable (keyOf 30), signer (keyOf 11)]
      .approveTransaction,
    localCall (proposeAccounts (keyOf 31)) (.proposeTransaction ⟨[sampleChange]⟩),
    localCall [readonly (keyOf 20), writable (keyOf 31), signer (keyOf 11)]
      .approveTransaction]

def insistedSample : Config localRuntime :=
  (Library.Transition.perform step (fun c action => intended c action &&
    planned c action (actsWithin (keyOf 20) {keyOf 11})) proposedSample insistingActions).get
    (by decide +kernel)

theorem fallsShort_sample :
    FallsShort proposedSample.world (keyOf 20) ⟨[keyOf 11, keyOf 12, keyOf 13], 2, 5, 0, []⟩
      {keyOf 11} where
  alone := by decide +kernel
  joined := by
    intro t p transaction hp _ hdecodes _
    have ht : t = keyOf 30 := by
      by_contra ht
      rw [World.registry, proposedSample_history, replay_cons, Event.apply,
        Function.update_of_ne ht, replay_cons, Event.apply, Function.update_apply] at hp
      split at hp <;> cases hp
    subst ht
    have hstored : Transaction.checkedDeserialize
        (proposedSample.world.ledger (keyOf 30)).data =
          .ok ⟨keyOf 20, [storedNote], [true, false, false], 0⟩ := by
      decide +kernel
    obtain rfl := Except.ok.inj (hstored.symm.trans hdecodes)
    decide +kernel

theorem coalition_contained_sample :
    (insistedSample.world.ledger (keyOf 20)).data =
        (proposedSample.world.ledger (keyOf 20)).data ∧
      ∀ e ∈ executions insistedSample.stack, e.validated.multisigAccount.key ≠ keyOf 20 := by
  refine coalition_contained proposedSample_intended proposedSample_stack
    proposedSample_committed (by decide +kernel) (by decide +kernel) fallsShort_sample ?_
  exact reachable_of_perform (fun _ _ h => Bool.and_eq_true_iff.mp h) (.init rfl)
    (Option.some_get _).symm

end LocalRuns

end MultisigNative.Properties
