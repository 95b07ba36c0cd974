import MultisigNative.Properties.Quorum
import MultisigNative.System.Lifetimes

/-!
How often a proposal is executed.  An execution closes its account only at its
end, so its own instructions can execute the same proposal once more; apart from
that each proposal is run through at most once.
-/

namespace MultisigNative.Properties

open Library.Transition
open Solana
open State
open Instructions
open MultisigNative.System
open LocalRuntime

section Runs

variable {rt : Runtime}

/-- Does the open proposal at `t` have an execution running? -/
def isRunning (c : Config rt) (t : Pubkey) : Bool :=
  (c.world.registry t).isProposal && (births c.stack).contains (c.world.registry t).birth

/-- No execution starts on a proposal that is being executed. -/
def startsAnew (c : Config rt) : Label rt → Bool
  | .start accounts =>
      (transactionArg .executeTransaction accounts).all fun t => !isRunning c t
  | _ => true

/-- The configurations of the runs in which no proposal is executed from within
its own execution. -/
def AnewConfig (rt : Runtime) : Config rt → Prop :=
  Reachable Config.Initial step fun c action => planned c action (startsAnew c) = true

/-- How often a proposal was run through or is being executed. -/
def runCount (birth : Nat) (w : World) (stack : List (Frame rt)) : Nat :=
  executedCount birth w.history + (births stack).count (some birth)

/-- Executions, those that are over and those that run, are of proposals that were
made at their address. -/
structure Recorded (w : World) (stack : List (Frame rt)) : Prop where
  occupied : Occupied rt w
  running : ∀ e ∈ executions stack, ∀ birth, e.birth = some birth →
    ProposedAt e.validated.transactionAccount.key birth w.history
  executed : ∀ later earlier m t birth,
    w.history = later ++ .executed m t (some birth) :: earlier → ProposedAt t birth earlier

namespace Recorded

variable {w w' : World} {stack : List (Frame rt)} {label : Label rt}

theorem of_initial (h : w.Initial rt) : Recorded w ([] : List (Frame rt)) where
  occupied := .of_initial h
  running := by
    intro e he
    cases he
  executed := by
    intro later earlier m t birth hhistory
    rw [h.history] at hhistory
    simp at hhistory

theorem of_empty (h : Recorded w stack) : Recorded w ([] : List (Frame rt)) where
  occupied := h.occupied
  running := by
    intro e he
    cases he
  executed := h.executed

/-- A proposal that was run through is not open any more. -/
theorem executedCount_eq_zero (h : Recorded w stack) {t : Pubkey} {p : Proposal}
    (hp : w.registry t = .proposal p) : executedCount p.birth w.history = 0 := by
  rw [executedCount, List.countP_eq_zero]
  intro event hmem hexecutes
  cases event with
  | executed m t' birth =>
      obtain rfl : birth = some p.birth := by simpa [Event.executes] using hexecutes
      obtain ⟨later, earlier, hhistory⟩ := List.append_of_mem hmem
      have hproposed := h.executed later earlier m t' p.birth hhistory
      rw [World.registry, hhistory] at hp
      exact birth_ne_of_closed hproposed (by simp [Event.closes]) hp rfl
  | _ => cases hexecutes

/-- The history grows by at most one event; the end of an execution is recorded
with the proposal it was of. -/
theorem effect {c : Config rt} {action : Action} {stack' : List (Frame rt)}
    (h : Recorded c.world c.stack) (hplans : Plans c action label stack')
    (heffect : Effect rt c.world label w') (hsuffix : c.world.history <:+ w'.history) :
    Recorded w' stack' := by
  refine ⟨h.occupied.effect heffect, ?_, ?_⟩
  · intro e he birth hbirth
    rcases executions_of_plans hplans he with ⟨e₀, he₀, -, hvalidated, hsame⟩ | ⟨-, -, hnew⟩
    · rw [hvalidated]
      exact (h.running e₀ he₀ birth (hsame ▸ hbirth)).suffix hsuffix
    · rw [hnew] at hbirth
      obtain ⟨p, hp, rfl⟩ := Occupant.birth_eq_some_iff.mp hbirth
      exact (proposedAt_of_replay hp).suffix hsuffix
  · intro later earlier m t birth hhistory
    have hold : ∀ event, w'.history = event :: c.world.history →
        (event = .executed m t (some birth) → ProposedAt t birth c.world.history) →
        ProposedAt t birth earlier := by
      intro event hevent hproposed
      rw [hevent] at hhistory
      cases later with
      | nil =>
          obtain ⟨rfl, rfl⟩ := List.cons.inj hhistory
          exact hproposed rfl
      | cons first later =>
          exact h.executed later earlier m t birth (List.cons.inj hhistory).2
    have hother : ∀ event, w'.history = event :: c.world.history →
        event ≠ .executed m t (some birth) → ProposedAt t birth earlier :=
      fun event hevent hne => hold event hevent fun heq => absurd heq hne
    cases heffect with
    | idle => exact h.executed later earlier m t birth hhistory
    | «foreign» hforeign => exact h.executed later earlier m t birth hhistory
    | started hvalidate => exact h.executed later earlier m t birth hhistory
    | created hvalid hfits hinit => exact hother _ rfl (by simp)
    | configured hsigned hchange hfits =>
        refine hother _ rfl ?_
        cases hchange <;> simp
    | proposed hvalid hfits hinit => exact hother _ rfl (by simp)
    | approved hvalid => exact hother _ rfl (by simp)
    | cancelled hvalid hclose => exact hother _ rfl (by simp)
    | @closed e L' hclose howner =>
        refine hold _ rfl ?_
        intro hevent
        obtain ⟨-, rfl, hbirth⟩ := Event.executed.inj hevent
        rcases births_of_plans hplans with
          ⟨_, _, hlabel, -⟩ | ⟨e', he', hlabel, -⟩ | ⟨hquiet, -⟩
        · cases hlabel
        · obtain rfl := Label.close.inj hlabel
          exact h.running e he' birth hbirth
        · cases hquiet

end Recorded

/-- A step moves an execution from the running to those that are over, or starts
one; nothing else changes the count. -/
theorem runCount_of_plans {c : Config rt} {action : Action} {label : Label rt}
    {stack : List (Frame rt)} {w' : World} (hplans : Plans c action label stack)
    (heffect : Effect rt c.world label w') (birth : Nat) :
    (∃ accounts validated, label = .start accounts ∧
        ExecuteTransaction.validate rt rt.programId accounts c.world.ledger =
          .ok validated c.world.ledger ∧
        runCount birth w' stack = runCount birth c.world c.stack +
          [(c.world.registry validated.transactionAccount.key).birth].count (some birth)) ∨
      ((∀ accounts, label ≠ .start accounts) ∧
        runCount birth w' stack = runCount birth c.world c.stack) := by
  rcases births_of_plans hplans with
    ⟨accounts, validated, rfl, hvalidate, hbirths⟩ | ⟨e, -, rfl, hbirths⟩ | ⟨hquiet, hbirths⟩
  · refine .inl ⟨accounts, validated, rfl, hvalidate, ?_⟩
    cases heffect
    simp only [runCount, hbirths, List.count_cons, List.count_nil]
    omega
  · refine .inr ⟨?_, ?_⟩
    · intro accounts h
      cases h
    rw [runCount, runCount, history_of_close heffect, hbirths, executedCount, executedCount,
      List.countP_cons, List.count_cons, Event.executes]
    by_cases hbirth : e.birth = some birth
    · simp only [hbirth, beq_self_eq_true, if_true]
      omega
    · simp [hbirth]
  · refine .inr ⟨?_, ?_⟩
    · rintro accounts rfl
      cases hquiet
    rw [runCount, runCount, hbirths, executedCount_of_effect heffect hquiet]

/-- A proposal that is open, and not being executed, was never run. -/
theorem runCount_eq_zero {c : Config rt} (h : Recorded c.world c.stack) {t : Pubkey}
    {birth : Nat} (hbirth : (c.world.registry t).birth = some birth)
    (hidle : isRunning c t = false) : runCount birth c.world c.stack = 0 := by
  obtain ⟨p, hp, rfl⟩ := Occupant.birth_eq_some_iff.mp hbirth
  rw [runCount, h.executedCount_eq_zero hp]
  simp only [isRunning, hp, Occupant.isProposal, Occupant.birth, Bool.true_and] at hidle
  rw [Nat.zero_add, List.count_eq_zero]
  intro hmem
  rw [List.contains_iff_mem.mpr hmem] at hidle
  cases hidle

theorem runCount_le_one {c : Config rt} {action : Action} {label : Label rt}
    {stack : List (Frame rt)} {w' : World} (h : Recorded c.world c.stack)
    (hcount : ∀ birth, runCount birth c.world c.stack ≤ 1)
    (hanew : startsAnew c label = true) (hplans : Plans c action label stack)
    (heffect : Effect rt c.world label w') (birth : Nat) : runCount birth w' stack ≤ 1 := by
  rcases runCount_of_plans hplans heffect birth with
    ⟨accounts, validated, rfl, hvalidate, hnew⟩ | ⟨-, hsame⟩
  · rw [hnew, List.count_singleton]
    split
    · rename_i hbirth
      obtain ⟨executor, rest, rfl, -, -⟩ :=
        ExecuteTransaction.validate_eq_ok_iff.mp hvalidate
      have hidle : isRunning c validated.transactionAccount.key = false := by
        simpa [startsAnew, transactionArg] using hanew
      have hzero := runCount_eq_zero h (eq_of_beq hbirth) hidle
      omega
    · exact hcount birth
  · rw [hsame]
    exact hcount birth

/-- Whatever the run does, its executions are of proposals that were made. -/
theorem recorded_of_reachable {c : Config rt}
    (h : Reachable Config.Initial step (fun _ _ => True) c) :
    Recorded c.world c.stack ∧ Recorded c.committed ([] : List (Frame rt)) := by
  refine h.invariant (I := fun c =>
    Recorded c.world c.stack ∧ Recorded c.committed ([] : List (Frame rt))) ?_ ?_
  · intro c hinit
    rw [hinit.stack, hinit.committed]
    exact ⟨.of_initial hinit.world, .of_initial hinit.world⟩
  · rintro c action c' - ⟨hrecorded, hcommitted⟩ - hstep
    rcases step_cases hstep with ⟨label, hplan, hperform, hsame⟩ | ⟨-, -, rfl⟩ | ⟨-, rfl⟩
    · rw [hsame]
      exact ⟨hrecorded.effect (plans_of_plan hplan) (perform_effect hperform)
        (history_suffix hperform), hcommitted⟩
    · exact ⟨hrecorded, hrecorded.of_empty⟩
    · exact ⟨hcommitted, hcommitted⟩

theorem runCount_of_anew {c : Config rt} (h : AnewConfig rt c) :
    (∀ birth, runCount birth c.world c.stack ≤ 1) ∧
      ∀ birth, executedCount birth c.committed.history ≤ 1 := by
  refine h.invariant (I := fun c => (∀ birth, runCount birth c.world c.stack ≤ 1) ∧
    ∀ birth, executedCount birth c.committed.history ≤ 1) ?_ ?_
  · intro c hinit
    have hzero : ∀ birth, executedCount birth c.world.history = 0 := by
      intro birth
      rw [hinit.world.history]
      rfl
    constructor
    · intro birth
      rw [runCount, hzero, hinit.stack, births, executions_nil, List.map_nil, List.count_nil]
      decide
    · intro birth
      rw [hinit.committed, hzero]
      decide
  · rintro c action c' hreach ⟨hcount, honce⟩ hanew hstep
    have hrecorded := (recorded_of_reachable (hreach.mono fun _ _ _ => trivial)).1
    rcases step_cases hstep with ⟨label, hplan, hperform, hsame⟩ | ⟨-, -, rfl⟩ | ⟨-, rfl⟩
    · rw [planned, hplan, Option.all_some] at hanew
      rw [hsame]
      exact ⟨runCount_le_one hrecorded hcount hanew (plans_of_plan hplan)
        (perform_effect hperform), honce⟩
    · refine ⟨hcount, ?_⟩
      intro birth
      exact Nat.le_trans (Nat.le_add_right _ _) (hcount birth)
    · refine ⟨?_, honce⟩
      intro birth
      rw [runCount]
      exact honce birth

/-- If no proposal is executed from within its own execution, each proposal is run
through at most once among the effects that are kept.  And in every run, after a
proposal was closed, no execution that starts is of it. -/
theorem executed_at_most_once {rt : Runtime} :
    (∀ c : Config rt, AnewConfig rt c → ∀ later earlier m t signers instructions,
      c.committed.history = later ++ .proposed m t signers instructions :: earlier →
      executedCount earlier.length c.committed.history ≤ 1) ∧
    ∀ c : Config rt, Reachable Config.Initial step (fun _ _ => True) c →
      ∀ later earlier event t p, c.world.history = later ++ event :: earlier →
        replay earlier t = .proposal p → event.closes t = true →
        ∀ accounts validated L,
          ExecuteTransaction.validate rt rt.programId accounts c.world.ledger =
            .ok validated L →
          c.world.registry validated.transactionAccount.key ≠ .vacant ∧
            (c.world.registry validated.transactionAccount.key).birth ≠ some p.birth := by
  constructor
  · intro c h later earlier m t signers instructions _
    exact (runCount_of_anew h).2 earlier.length
  · intro c h later earlier event t p hhistory hp hcloses accounts validated L hvalidate
    obtain ⟨executor, rest, -, hvalid, -⟩ :=
      ExecuteTransaction.validate_eq_ok_iff.mp hvalidate
    have hrecorded := (recorded_of_reachable h).1
    refine ⟨(hrecorded.occupied.executed_ne_vacant hvalid).2, ?_⟩
    intro hbirth
    obtain ⟨q, hq, hsame⟩ := Occupant.birth_eq_some_iff.mp hbirth
    rw [World.registry, hhistory] at hq
    exact birth_ne_of_closed (proposedAt_of_replay hp) hcloses hq hsame

theorem runCount_mono {c c' : Config rt} {action : Action} (hforward : action ≠ .rollback)
    (hstep : step c action = some c') (birth : Nat) :
    runCount birth c.world c.stack ≤ runCount birth c'.world c'.stack := by
  rcases step_cases hstep with ⟨label, hplan, hperform, -⟩ | ⟨-, -, rfl⟩ | ⟨rfl, -⟩
  · rcases runCount_of_plans (plans_of_plan hplan) (perform_effect hperform) birth with
      ⟨_, _, -, -, hnew⟩ | ⟨-, hsame⟩
    · omega
    · omega
  · exact Nat.le_refl _
  · exact absurd rfl hforward

/-- Conversely, an execution that starts on a proposal that is being executed makes
two of it, unless the transaction is rolled back. -/
theorem executed_again_of_running {c c' d : Config rt} {action : Action}
    {accounts : List AccountInfo} {stack : List (Frame rt)} {t : Pubkey}
    (hplan : plan c action = some (.start accounts, stack))
    (hstep : step c action = some c')
    (ht : transactionArg .executeTransaction accounts = some t)
    (hrunning : isRunning c t = true)
    (hrest : Reachable (fun s => s = c') step (fun _ a => a ≠ .rollback) d)
    (hdone : d.stack = []) :
    ∃ birth, (c.world.registry t).birth = some birth ∧
      2 ≤ executedCount birth d.world.history := by
  simp only [isRunning, Bool.and_eq_true, List.contains_iff_mem] at hrunning
  rcases hrunning with ⟨hproposal, hmem⟩
  obtain ⟨p, ho⟩ := Occupant.isProposal_iff.mp hproposal
  rw [ho, Occupant.birth] at hmem
  refine ⟨p.birth, by rw [ho, Occupant.birth], ?_⟩
  have hcount : 2 ≤ runCount p.birth c'.world c'.stack := by
    have hone : 1 ≤ (births c.stack).count (some p.birth) :=
      List.one_le_count_iff.mpr hmem
    rcases step_cases hstep with ⟨label, hplan', hperform, -⟩ | ⟨rfl, -⟩ | ⟨rfl, -⟩
    · obtain ⟨rfl, rfl⟩ := Prod.mk.inj (Option.some.inj (hplan'.symm.trans hplan))
      rcases runCount_of_plans (plans_of_plan hplan') (perform_effect hperform)
        p.birth with ⟨accounts', validated, hlabel, hvalidate, hnew⟩ | ⟨hstart, -⟩
      · obtain rfl := Label.start.inj hlabel
        obtain ⟨executor, rest, rfl, -, -⟩ :=
          ExecuteTransaction.validate_eq_ok_iff.mp hvalidate
        obtain rfl : validated.transactionAccount.key = t := Option.some.inj ht
        rw [hnew, ho, Occupant.birth, List.count_singleton_self, runCount]
        omega
      · exact absurd rfl (hstart accounts)
    · cases hplan
    · cases hplan
  have hlast : 2 ≤ runCount p.birth d.world d.stack := by
    refine hrest.invariant (I := fun s => 2 ≤ runCount p.birth s.world s.stack) ?_ ?_
    · rintro s rfl
      exact hcount
    · intro s a s' _ hs hforward hstep
      exact Nat.le_trans hs (runCount_mono hforward hstep p.birth)
  rwa [runCount, hdone, births, executions_nil, List.map_nil, List.count_nil] at hlast

end Runs

section LocalRuns

/-- The sample proposal has been executed. -/
def anewSample : Config localRuntime :=
  (anyRun [keyOf 11] (fun c action => planned c action (startsAnew c))
    (sampleActions [storedNote] ++
      [localCall sampleExecuteAccounts .executeTransaction, .invoke, .leave, .finish,
        .commit])).get (by decide +kernel)

theorem anewSample_reachable : AnewConfig localRuntime anewSample :=
  reachable_of_perform (fun _ _ h => h) (.init (localStart_initial _))
    (Option.some_get _).symm

theorem executed_at_most_once_sample :
    executedCount 1 anewSample.committed.history ≤ 1 ∧
    ∀ accounts validated L,
      ExecuteTransaction.validate localRuntime localRuntime.programId accounts
          anewSample.world.ledger = .ok validated L →
        (anewSample.world.registry validated.transactionAccount.key).birth ≠ some 1 := by
  have hhistory : anewSample.world.history =
      [] ++ .executed (keyOf 20) (keyOf 30) (some 1) ::
        anewSample.world.history.drop 1 := by
    decide +kernel
  have hproposed : anewSample.committed.history =
      anewSample.committed.history.take 2 ++
        .proposed (keyOf 20) (keyOf 30) [keyOf 30, keyOf 11, keyOf 11] [storedNote] ::
          [.multisigCreated (keyOf 20) [keyOf 11, keyOf 12, keyOf 13] 5] := by
    decide +kernel
  have hp : replay (anewSample.world.history.drop 1) (keyOf 30) =
      .proposal ⟨keyOf 20, [storedNote], 0, 1,
        [keyOf 12, keyOf 30, keyOf 11, keyOf 11]⟩ := by
    decide +kernel
  obtain ⟨honce, hclosed⟩ := @executed_at_most_once localRuntime
  have hcount := honce _ anewSample_reachable _ _ _ _ _ _ hproposed
  rw [List.length_singleton] at hcount
  refine ⟨hcount, ?_⟩
  intro accounts validated L hvalidate
  exact (hclosed _ (anewSample_reachable.mono fun _ _ _ => trivial) _ _ _ _ _ hhistory hp
    (by decide) accounts validated L hvalidate).2

/-- With these accounts 11 executes the proposal at `t`; those at 30 and 31 sign as
well, so that the proposal's instructions can make new ones there. -/
def doublingAccounts (t : Pubkey) : List AccountInfo :=
  [readonly (keyOf 20), readonly samplePda, signer t, signer (keyOf 11), signer (keyOf 11),
    signer (keyOf 30), signer (keyOf 31), readonly systemProgram,
    readonly localRuntime.programId, readonly (keyOf 99)]

def proposeAccounts (t : Pubkey) : List AccountInfo :=
  [readonly (keyOf 20), signer t, signer (keyOf 11), signer (keyOf 11),
    readonly systemProgram]

/-- Puts another proposal in the place of the one at 30. -/
def replacing : List TransactionInstructionData :=
  [storedCall [readonly (keyOf 20), writable (keyOf 30), writable (keyOf 11),
      signer (keyOf 11)] .cancelTransaction,
    storedCall (proposeAccounts (keyOf 30)) (.proposeTransaction ⟨[storedNote]⟩)]

/-- Executes what is at 31, renews that, and executes what is at 30: this proposal
the first time, its replacement the second time. -/
def doubling : List TransactionInstructionData :=
  [storedCall (doublingAccounts (keyOf 31)) .executeTransaction,
    storedCall (proposeAccounts (keyOf 31)) (.proposeTransaction ⟨replacing⟩),
    storedCall (doublingAccounts (keyOf 30)) .executeTransaction]

def doublingActions : List Action :=
  [localCall [signer (keyOf 20), readonly samplePda, signer (keyOf 11),
      readonly systemProgram] (.createMultisig ⟨[keyOf 11], 1, 5⟩),
    localCall (proposeAccounts (keyOf 30)) (.proposeTransaction ⟨doubling⟩),
    localCall (proposeAccounts (keyOf 31)) (.proposeTransaction ⟨[storedNote]⟩),
    .commit,
    localCall (doublingAccounts (keyOf 30)) .executeTransaction,
    -- the first execution runs what is at 31 and renews it
    .invoke, .invoke, .leave, .finish, .invoke,
    -- the second one, inside the first, has 30 replaced and renews 31 again
    .invoke, .invoke, .invoke, .invoke, .finish, .invoke,
    -- it runs the replacement and ends, and so does the first one
    .invoke, .invoke, .leave, .finish, .finish, .finish,
    .commit]

def doublingSample : Config localRuntime :=
  (localRun [keyOf 11] doublingActions).get (by decide +kernel)

/-- The proposal made at 30 is run through twice in one transaction, each account
being taken in its role. -/
theorem executed_twice : RolesKeptConfig localRuntime doublingSample ∧
    doublingSample.committed.history =
      doublingSample.committed.history.take 10 ++
        .proposed (keyOf 20) (keyOf 30) (signersOf (proposeAccounts (keyOf 30))) doubling ::
          [.multisigCreated (keyOf 20) [keyOf 11] 5] ∧
    executedCount 1 doublingSample.committed.history = 2 := by
  refine ⟨rolesKept_of_localRun (Option.some_get _).symm, ?_⟩
  decide +kernel

end LocalRuns

end MultisigNative.Properties
