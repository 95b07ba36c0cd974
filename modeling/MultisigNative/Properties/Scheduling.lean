import MultisigNative.Library.Schedule
import MultisigNative.Properties.Quorum
import MultisigNative.System.Footprint

/-!
Transactions that share no account that one of them may write can be reordered or run side by
side: whatever the schedule, each is accepted or refused as before, and the same ledger is left.
-/

namespace MultisigNative.Properties

open Library.Borsh
open Library.StateError
open Library.Footprint
open Library.Schedule
open Solana
open Instructions
open Processor
open MultisigNative.System
open LocalRuntime

/-- A call of this program as a transaction contains it. -/
structure Call where
  accounts : List AccountInfo
  data : Bytes

/-- What the runtime and the other programs contribute.  They look only at the accounts that
are passed, and the runtime admits no change of an account that is passed as read-only. -/
structure Host (rt : Runtime) where
  invokeSigned : Invocation → Handler Unit
  admits : List AccountInfo → Ledger → Ledger → Bool
  creates : CreatesLocally rt
  invokes : ∀ invocation, Local (keysOf invocation.accounts) (invokeSigned invocation)
  admits_congr : ∀ {accounts L L' M M'}, Set.EqOn L M (keysOf accounts) →
    Set.EqOn L' M' (keysOf accounts) → admits accounts L L' = admits accounts M M'
  admits_readonly : ∀ {accounts L L'}, admits accounts L L' = true → ∀ k ∈ keysOf accounts,
    isWritableIn accounts k = false → L' k = L k

section Transactions

variable {rt : Runtime}

def runCall (host : Host rt) (c : Call) : Handler Unit := fun L =>
  match processInstruction rt host.invokeSigned rt.programId c.accounts c.data L with
  | .ok _ L' =>
      if host.admits c.accounts L L' then .ok () L' else .error (.error (.other 0)) L'
  | .error e L' => .error e L'

/-- A transaction leaves the ledger as it was unless all its calls succeed. -/
def settle (host : Host rt) (calls : List Call) (L : Ledger) : Ledger × Bool :=
  match calls.forM (runCall host) L with
  | .ok _ L' => (L', true)
  | .error _ _ => (L, false)

def touched (calls : List Call) : Set Pubkey := {k | ∃ c ∈ calls, k ∈ keysOf c.accounts}

/-- No account that the first may write is passed to the second. -/
def spares (calls others : List Call) : Bool :=
  calls.all fun c => others.all fun other =>
    other.accounts.all fun info => !isWritableIn c.accounts info.key

/-- Neither may write what the other is passed. -/
def Independent (calls others : List Call) : Prop :=
  spares calls others = true ∧ spares others calls = true

end Transactions

section Running

variable {rt : Runtime} {host : Host rt} {calls others : List Call} {c : Call} {L L' : Ledger}
  {u : Unit} {k : Pubkey}

theorem runCall_eq_ok_iff : runCall host c L = .ok u L' ↔
    processInstruction rt host.invokeSigned rt.programId c.accounts c.data L = .ok () L' ∧
      host.admits c.accounts L L' = true := by
  unfold runCall
  split
  · rename_i mid hrun
    rw [hrun]
    split
    · rename_i hadmits
      constructor
      · intro h
        cases h
        exact ⟨rfl, hadmits⟩
      · rintro ⟨h, -⟩
        cases h
        rfl
    · rename_i hrefused
      constructor
      · intro h
        cases h
      · rintro ⟨h, hadmits⟩
        cases h
        exact absurd hadmits hrefused
  · rename_i e mid hrun
    rw [hrun]
    simp

theorem local_runCall (host : Host rt) (c : Call) :
    Local (keysOf c.accounts) (runCall host c) := by
  have hprogram := local_processInstruction host.creates host.invokes rt.programId
    c.accounts c.data
  constructor
  · intro L u L' h
    exact hprogram.frame (runCall_eq_ok_iff.mp h).1
  · intro L M u L' hsame h
    obtain ⟨hrun, hadmits⟩ := runCall_eq_ok_iff.mp h
    obtain ⟨M', hrun', hsame'⟩ := hprogram.congr hsame hrun
    rw [host.admits_congr hsame hsame'] at hadmits
    exact ⟨M', runCall_eq_ok_iff.mpr ⟨hrun', hadmits⟩, hsame'⟩

/-- A call keeps what it may not write. -/
theorem apply_of_runCall (h : runCall host c L = .ok u L')
    (hreadonly : isWritableIn c.accounts k = false) : L' k = L k := by
  obtain ⟨-, hadmits⟩ := runCall_eq_ok_iff.mp h
  by_cases hk : k ∈ keysOf c.accounts
  · exact host.admits_readonly hadmits k hk hreadonly
  · exact (local_runCall host c).frame h k hk

theorem apply_of_forM (h : calls.forM (runCall host) L = .ok u L')
    (hreadonly : ∀ c ∈ calls, isWritableIn c.accounts k = false) : L' k = L k := by
  induction calls generalizing L with
  | nil =>
      cases h
      rfl
  | cons c calls ih =>
      obtain ⟨_, mid, hrun, hrest⟩ := bind_eq_ok_iff.mp h
      rw [List.forall_mem_cons] at hreadonly
      rw [ih hrest hreadonly.2, apply_of_runCall hrun hreadonly.1]

theorem settle_of_ok (h : calls.forM (runCall host) L = .ok u L') :
    settle host calls L = (L', true) := by
  simp only [settle, h]

theorem settle_of_not_ok (h : ∀ L', calls.forM (runCall host) L ≠ .ok () L') :
    settle host calls L = (L, false) := by
  unfold settle
  split
  · rename_i L' hrun
    exact absurd hrun (h L')
  · rfl

theorem settle_cases (host : Host rt) (calls : List Call) (L : Ledger) :
    (∃ L', calls.forM (runCall host) L = .ok () L' ∧ settle host calls L = (L', true)) ∨
      ((∀ L', calls.forM (runCall host) L ≠ .ok () L') ∧
        settle host calls L = (L, false)) := by
  by_cases h : ∃ L', calls.forM (runCall host) L = .ok () L'
  · obtain ⟨L', hrun⟩ := h
    exact .inl ⟨L', hrun, settle_of_ok hrun⟩
  · have hfails : ∀ L', calls.forM (runCall host) L ≠ .ok () L' := fun L' hrun => h ⟨L', hrun⟩
    exact .inr ⟨hfails, settle_of_not_ok hfails⟩

theorem localStep_settle (host : Host rt) (calls : List Call) :
    LocalStep (touched calls) (settle host calls) := by
  have hruns : Local (touched calls) (calls.forM (runCall host)) :=
    .forM calls fun c hc => (local_runCall host c).mono fun k hk => ⟨c, hc, hk⟩
  constructor
  · intro L k hk
    rcases settle_cases host calls L with ⟨L', hrun, hsettle⟩ | ⟨-, hsettle⟩
    · rw [hsettle]
      exact hruns.frame hrun k hk
    · rw [hsettle]
  · intro L M hsame
    rcases settle_cases host calls L with ⟨L', hrun, hsettle⟩ | ⟨hfails, hsettle⟩
    · obtain ⟨M', hrun', hsame'⟩ := hruns.congr hsame hrun
      rw [hsettle, settle_of_ok hrun']
      exact ⟨rfl, hsame'⟩
    · have hfails' : ∀ M', calls.forM (runCall host) M ≠ .ok () M' := by
        intro M' hrun'
        obtain ⟨L', hrun, -⟩ := hruns.congr hsame.symm hrun'
        exact hfails L' hrun
      rw [hsettle, settle_of_not_ok hfails']
      exact ⟨rfl, hsame⟩

/-- A transaction keeps the accounts of those that it spares. -/
theorem apply_of_spares (hspares : spares calls others = true) (hk : k ∈ touched others)
    (L : Ledger) : (settle host calls L).1 k = L k := by
  obtain ⟨other, hother, info, hinfo, rfl⟩ := hk
  rcases settle_cases host calls L with ⟨L', hrun, hsettle⟩ | ⟨-, hsettle⟩
  · rw [hsettle]
    refine apply_of_forM hrun fun c hc => ?_
    have hall := List.all_eq_true.mp (List.all_eq_true.mp
      (List.all_eq_true.mp hspares c hc) other hother) info hinfo
    rwa [Bool.not_eq_true'] at hall
  · rw [hsettle]

theorem interchange_of_independent (host : Host rt) (h : Independent calls others) :
    Interchange (settle host) calls others := by
  have hcalls := localStep_settle host calls
  have hothers := localStep_settle host others
  have hkeeps : ∀ L, ∀ k ∈ touched others, (settle host calls L).1 k = L k :=
    fun L k hk => apply_of_spares h.1 hk L
  have hkept : ∀ L, ∀ k ∈ touched calls, (settle host others L).1 k = L k :=
    fun L k hk => apply_of_spares h.2 hk L
  exact ⟨hcalls.commute hothers hkeeps hkept, hcalls.report_eq hkept,
    hothers.report_eq hkeeps⟩

end Running

/-- Whatever the transactions call, and whatever ledger they start on: every schedule in
which a transaction overtakes only those it is independent of accepts the same ones and
leaves the same ledger. -/
theorem schedules_agree {rt : Runtime} (host : Host rt) {waiting scheduled : List (List Call)}
    (h : Schedules Independent waiting scheduled) (L : Ledger) :
    (runAll (settle host) waiting L).1 = (runAll (settle host) scheduled L).1 ∧
      (runAll (settle host) waiting L).2.Perm (runAll (settle host) scheduled L).2 :=
  agree_schedules (fun _ _ => interchange_of_independent host) h L

section LocalRuns

theorem createsLocally_localRuntime : CreatesLocally localRuntime := by
  intro payer account space owner
  constructor
  · intro L u L' h k hk
    have hcreated := localRuntime.accountCreated _ _ _ _ _ _ h
    rw [Set.mem_insert_iff, Set.mem_singleton_iff, not_or] at hk
    exact hcreated.apply_of_ne hk.1 hk.2
  · intro L M u L' hsame h
    have hpayer : M payer.key = L payer.key := (hsame (Set.mem_insert _ _)).symm
    have haccount : M account.key = L account.key :=
      (hsame (Set.mem_insert_of_mem _ rfl)).symm
    simp only [localRuntime, createAccount] at h ⊢
    rw [hpayer, haccount]
    split at h
    · rename_i hchecks
      obtain ⟨-, rfl⟩ := EStateM.Result.ok.inj h
      rw [if_pos hchecks]
      refine ⟨_, rfl, fun k hk => ?_⟩
      simp only [Function.update_apply, hsame hk]
    · cases h

/-- The check of read-only accounts. -/
def keepsReadonly (accounts : List AccountInfo) (L L' : Ledger) : Bool :=
  accounts.all fun info => isWritableIn accounts info.key || L' info.key == L info.key

/-- The invoked programs do nothing. -/
def localHost : Host localRuntime where
  invokeSigned _ := pure ()
  admits := keepsReadonly
  creates := createsLocally_localRuntime
  invokes _ := .pure ()
  admits_congr := by
    intro accounts L L' M M' hbefore hafter
    rw [Bool.eq_iff_iff]
    simp only [keepsReadonly, List.all_eq_true]
    refine forall₂_congr fun info hmem => ?_
    rw [hbefore (key_mem_keysOf hmem), hafter (key_mem_keysOf hmem)]
  admits_readonly := by
    rintro accounts L L' hadmits k ⟨info, hmem, rfl⟩ hreadonly
    have hkept := List.all_eq_true.mp hadmits info hmem
    rw [hreadonly, Bool.false_or] at hkept
    exact beq_iff_eq.mp hkept

/-- 13 approves the sample proposal. -/
def approvingSample : List Call :=
  [⟨[readonly (keyOf 20), writable (keyOf 30), signer (keyOf 13)],
    MultisigInstruction.format.encode .approveTransaction⟩]

/-- 11 creates another multisig, at key 21. -/
def creatingSample : List Call :=
  [⟨[signer (keyOf 21), readonly ⟨(keyOf 21).bytes.take 30 ++ [pdaMark, 5], rfl⟩,
      signer (keyOf 11), readonly systemProgram],
    MultisigInstruction.format.encode (.createMultisig ⟨[keyOf 11, keyOf 13], 1, 5⟩)⟩]

theorem schedules_agree_sample :
    ((runAll (settle localHost) [approvingSample, creatingSample]
      sampleConfig.world.ledger).2.map Prod.snd = [true, true]) ∧
    (runAll (settle localHost) [approvingSample, creatingSample]
        sampleConfig.world.ledger).1 =
      (runAll (settle localHost) [creatingSample, approvingSample]
        sampleConfig.world.ledger).1 ∧
    (runAll (settle localHost) [approvingSample, creatingSample]
        sampleConfig.world.ledger).2.Perm
      (runAll (settle localHost) [creatingSample, approvingSample]
        sampleConfig.world.ledger).2 := by
  have hindependent : Independent approvingSample creatingSample :=
    ⟨by decide +kernel, by decide +kernel⟩
  have hschedules : Schedules Independent [approvingSample, creatingSample]
      [creatingSample, approvingSample] :=
    @Schedules.next _ _ [approvingSample] [] _ _ (by simpa using hindependent)
      (@Schedules.next _ _ [] [] _ _ (by simp) .done)
  exact ⟨by decide +kernel, schedules_agree localHost hschedules sampleConfig.world.ledger⟩

end LocalRuns

end MultisigNative.Properties
