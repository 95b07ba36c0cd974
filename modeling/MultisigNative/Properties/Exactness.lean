import MultisigNative.Properties.Specification
import MultisigNative.Specification.Realization

/-!
The program does no less than its committees allow, and no more.
-/

namespace MultisigNative.Properties

open Library.Simulation
open Library.Voting
open Solana
open State
open Processor
open MultisigNative.System
open MultisigNative.Specification
open LocalRuntime

/-- In every such run whose multisigs were created with fewer than 256 owners: an action
that the runtime passes on, and for which accounts and money have been brought, succeeds
exactly if its deed is a step of the committees, and leaves behind exactly what the deed
does. -/
theorem accepted_iff_allowed {rt : Runtime} {c : Config rt} {deeds kept : List Deed}
    (h : IntendedRun rt c deeds kept)
    (hfounded : ∀ a roster quorum charter, .found a roster quorum charter ∈ deeds →
      roster.length < 256) :
    ∃ s : Board, Runs Step .empty deeds s ∧
      ∀ action label deed, Asks c action label → deedOf label = some deed →
        Supplied rt c.world label → intended c action = true →
          (∀ c', step c action = some c' → ∃ s', Step s deed s' ∧
            s'.running = docket c'.stack ∧ ∀ k, Stores rt (c'.world.ledger k) (s'.item k)) ∧
          ∀ s', Step s deed s' → ∃ c', step c action = some c' ∧
            s'.running = docket c'.stack ∧
            ∀ k, Stores rt (c'.world.ledger k) (s'.item k) := by
  obtain ⟨s, back, hrun, -, hstands⟩ := (simulates Stands.of_initial).runs h
  have hsmall : ∀ a c, s.item a = .committee c → c.capacity < 256 :=
    fun a c hitem => capacity_lt_of_runs hfounded hrun hitem
  refine ⟨s, hrun, ?_⟩
  intro action label deed hasks hdeed hsupplied hintended
  have hsound : ∀ c', step c action = some c' → ∃ s', Step s deed s' ∧
      s'.running = docket c'.stack ∧ ∀ k, Stores rt (c'.world.ledger k) (s'.item k) := by
    intro c' hstep
    obtain ⟨hplan, hperform, hcommitted⟩ := plan_of_asks hasks hstep
    rcases hstands.perform hintended hcommitted hplan hperform with
      ⟨hnone, -⟩ | ⟨deed', s', hdeed', hs', hstands'⟩
    · rw [hdeed] at hnone
      cases hnone
    · obtain rfl := Option.some.inj (hdeed.symm.trans hdeed')
      exact ⟨s', hs', hstands'.running, hstands'.world.stores⟩
  refine ⟨hsound, ?_⟩
  intro s' hs'
  obtain ⟨w, hperform⟩ := hstands.world.performs hsmall hsupplied hdeed hs'
  obtain ⟨stack, hstep⟩ := step_of_asks hasks hperform
  obtain ⟨s'', hs'', hrunning, hstores⟩ := hsound _ hstep
  obtain rfl := hs'.deterministic hs''
  exact ⟨_, hstep, hrunning, hstores⟩

section LocalRuns

/-- The sample multisig is ready to lower its threshold. -/
def loweringSample : Config localRuntime :=
  ((intendedRun [keyOf 11] (sampleActions [sampleChange])).get (by decide +kernel)).1

theorem loweringSample_intended :
    IntendedRun localRuntime loweringSample (loweringDeeds.drop 3) (loweringDeeds.drop 3) := by
  have hjournal : (intendedRun [keyOf 11] (sampleActions [sampleChange])).map Prod.snd =
      some (loweringDeeds.drop 3, loweringDeeds.drop 3) := by
    decide +kernel
  obtain ⟨⟨c, journal⟩, hrun, hsnd⟩ := Option.map_eq_some_iff.mp hjournal
  subst hsnd
  have hc : loweringSample = c := by
    rw [loweringSample]
    simp only [hrun, Option.get_some]
  rw [hc]
  exact intended_of_intendedRun hrun

/-- The owner 13 asks for the execution. -/
def executingAction : Action := localCall sampleExecuteAccounts .executeTransaction

theorem loweringSample_asks : Asks loweringSample executingAction
    (.start sampleExecuteAccounts) := by
  have hidle : loweringSample.stack = [] := List.isEmpty_iff.mp (by decide +kernel)
  change Asks _ _ (labelOf sampleExecuteAccounts .executeTransaction)
  refine .call ?_ ?_ ⟨?_, ?_, ?_⟩
  · simp [hidle]
  · rw [hidle]
    decide
  · rw [hidle]
    decide
  · decide
  · rintro ⟨⟩

theorem loweringSample_supplied : Supplied localRuntime loweringSample.world
    (.start sampleExecuteAccounts) := by
  refine .executeTransaction rfl rfl (by decide) rfl ?_
  intro multisig hdecode
  have hvalue : Multisig.checkedDeserialize
      (loweringSample.world.ledger (writable (keyOf 20)).key).data =
        .ok ⟨[keyOf 11, keyOf 12, keyOf 13], 2, 5, 0, []⟩ := by
    decide +kernel
  rw [hvalue] at hdecode
  obtain rfl := Except.ok.inj hdecode
  exact samplePda_created

theorem accepted_iff_allowed_sample : ∃ (s s' : Board) (c' : Config localRuntime),
    Runs Step .empty (loweringDeeds.drop 3) s ∧
    Step s (.start (keyOf 20) (keyOf 30) (keyOf 13)) s' ∧
    step loweringSample executingAction = some c' ∧ s'.running = docket c'.stack ∧
    ∀ k, Stores localRuntime (c'.world.ledger k) (s'.item k) := by
  have hfounded : ∀ a roster quorum charter,
      .found a roster quorum charter ∈ loweringDeeds.drop 3 → roster.length < 256 := by
    rintro a roster quorum charter (_ | ⟨_, _ | ⟨_, _ | ⟨_, ⟨⟩⟩⟩⟩)
    decide
  obtain ⟨s, hs, hexact⟩ := accepted_iff_allowed loweringSample_intended hfounded
  obtain ⟨hsound, -⟩ := hexact _ _ (.start (keyOf 20) (keyOf 30) (keyOf 13))
    loweringSample_asks rfl loweringSample_supplied (by decide +kernel)
  obtain ⟨c', hc'⟩ := Option.isSome_iff_exists.mp
    (show (step loweringSample executingAction).isSome = true by decide +kernel)
  obtain ⟨s', hs', hrunning, hstores⟩ := hsound c' hc'
  exact ⟨s, s', c', hs, hs', hc', hrunning, hstores⟩

end LocalRuns

end MultisigNative.Properties
