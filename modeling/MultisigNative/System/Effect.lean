import MultisigNative.Instructions.Capacity
import MultisigNative.System.World

/-!
What each step of the world can do, said once: the effect of a successful step
together with every check that it passed.
-/

namespace MultisigNative.System

open Library.Borsh
open Solana
open State
open Instructions
open Processor

/-- An account as the system program hands it over: all its bytes are zero. -/
def Zeroed (account : Account) : Prop := ∀ b ∈ account.data, b = 0

theorem zeroed_of_nil {account : Account} (h : account.data = []) : Zeroed account := by
  intro b hb
  rw [h] at hb
  cases hb

/-- What a step that is not about an account leaves of it: an account of this
program that holds lamports keeps its owner and data, and no account comes to this
program with other bytes than zeros. -/
structure Kept (rt : Runtime) (old new : Account) : Prop where
  owned : old.owner = rt.programId → 0 < old.lamports →
    new.owner = rt.programId ∧ new.data = old.data ∧ old.lamports ≤ new.lamports
  zeroed : (old.owner = rt.programId → Zeroed old) → new.owner = rt.programId →
    Zeroed new

namespace Kept

variable {rt : Runtime}

theorem refl (account : Account) : Kept rt account account where
  owned howner _ := ⟨howner, rfl, UInt64.le_refl _⟩
  zeroed h := h

theorem trans {a b c : Account} (h : Kept rt a b) (h' : Kept rt b c) : Kept rt a c where
  owned howner hpos := by
    obtain ⟨howner₂, hdata₂, hle₂⟩ := h.owned howner hpos
    obtain ⟨howner₃, hdata₃, hle₃⟩ :=
      h'.owned howner₂ (UInt64.lt_of_lt_of_le hpos hle₂)
    exact ⟨howner₃, hdata₃.trans hdata₂, UInt64.le_trans hle₂ hle₃⟩
  zeroed hzero := h'.zeroed (h.zeroed hzero)

/-- Only an account that is not this program's is debited. -/
theorem of_lamports {old new : Account} (howner : new.owner = old.owner)
    (hdata : new.data = old.data)
    (hle : old.owner = rt.programId → old.lamports ≤ new.lamports) :
    Kept rt old new where
  owned h _ := ⟨howner.trans h, hdata, hle h⟩
  zeroed hzero h := by
    intro b hb
    rw [hdata] at hb
    exact hzero (howner.symm.trans h) b hb

theorem of_allowed {key : Pubkey} {old new : Account}
    (h : foreignAllowed rt key old new = true) : Kept rt old new := by
  simp only [foreignAllowed, Bool.and_eq_true, bne_iff_ne] at h
  rcases h with ⟨-, hchange⟩
  constructor
  · intro howner hpos
    rw [if_pos howner] at hchange
    simp only [Bool.or_eq_true, Bool.and_eq_true, beq_iff_eq, decide_eq_true_eq]
      at hchange
    rcases hchange with ⟨⟨howner', hdata⟩, hle⟩ | ⟨hzero, -⟩
    · exact ⟨howner', hdata, hle⟩
    · rw [hzero] at hpos
      exact absurd hpos (UInt64.lt_irrefl _)
  · intro hzero howner'
    split at hchange
    · rename_i howner
      simp only [Bool.or_eq_true, Bool.and_eq_true, beq_iff_eq] at hchange
      rcases hchange with ⟨⟨-, hdata⟩, -⟩ | ⟨-, rfl⟩
      · intro b hb
        rw [hdata] at hb
        exact hzero howner b hb
      · exact zeroed_of_nil rfl
    · intro b hb
      simp only [howner', bne_self_eq_false, Bool.false_or, List.all_eq_true,
        beq_iff_eq] at hchange
      exact hchange b hb

end Kept

/-- What other programs and the cluster leave of the ledger. -/
structure ForeignEffect (rt : Runtime) (L L' : Ledger) : Prop where
  system_eq : L' systemProgram = L systemProgram
  kept : ∀ k, Kept rt (L k) (L' k)

theorem foreignEffect_of_applyForeign {rt : Runtime} {L L' : Ledger}
    {updates : List (Pubkey × Account)} (h : applyForeign rt L updates = some L') :
    ForeignEffect rt L L' := by
  induction updates generalizing L with
  | nil =>
      obtain rfl : L = L' := Option.some.inj h
      exact ⟨rfl, fun k => .refl (L k)⟩
  | cons entry updates ih =>
      rcases entry with ⟨key, new⟩
      simp only [applyForeign] at h
      split at h
      · rename_i hallowed
        have hrest := ih h
        constructor
        · rw [hrest.system_eq, Function.update_of_ne]
          rintro rfl
          simp [foreignAllowed] at hallowed
        · intro k
          refine Kept.trans ?_ (hrest.kept k)
          by_cases hk : k = key
          · subst hk
            rw [Function.update_self]
            exact .of_allowed hallowed
          · rw [Function.update_of_ne hk]
            exact .refl (L k)
      · cases h

/-- The owner list was accepted for this multisig. -/
structure AcceptedOwners (multisig : Multisig) (owners : List Pubkey) : Prop where
  nodup : owners.Nodup
  ne_nil : owners ≠ []
  capacity : 32 * owners.length ≤ 32 * multisig.owners.length + multisig.padding.length

/-- The threshold was accepted for this owner list. -/
def AcceptedThreshold (threshold : UInt8) (owners : List Pubkey) : Prop :=
  0 < threshold.toNat ∧ threshold.toNat ≤ owners.length % 256

/-- The value that a configuring instruction writes over `multisig`, after the
checks that it makes, and the event that it leaves. -/
inductive Reconfigures (key : Pubkey) (multisig : Multisig) :
    MultisigInstruction → Multisig → Event → Prop
  | setOwners {data : SetOwnersInstruction} (howners : AcceptedOwners multisig data.owners) :
      Reconfigures key multisig (.setOwners data) (withOwners multisig data.owners)
        (.ownersChanged key data.owners)
  | changeThreshold {data : ChangeThresholdInstruction}
      (hthreshold : AcceptedThreshold data.threshold multisig.owners) :
      Reconfigures key multisig (.changeThreshold data)
        { multisig with threshold := data.threshold } (.thresholdChanged key)
  | setOwnersAndChangeThreshold {data : SetOwnersAndChangeThresholdInstruction}
      (howners : AcceptedOwners multisig data.owners)
      (hthreshold : AcceptedThreshold data.threshold data.owners) :
      Reconfigures key multisig (.setOwnersAndChangeThreshold data)
        (withOwnersAndThreshold multisig data.owners data.threshold)
        (.ownersChanged key data.owners)

/-- A successful step, with what it checked and what it did. -/
inductive Effect (rt : Runtime) (w : World) : Label rt → World → Prop
  | idle : Effect rt w .idle w
  | foreign {updates : List (Pubkey × Account)} {L' : Ledger}
      (hforeign : ForeignEffect rt w.ledger L') :
      Effect rt w (.foreign updates) ⟨L', w.history⟩
  | started {accounts : List AccountInfo} {validated : ValidatedAccounts}
      (hvalidate : ExecuteTransaction.validate rt rt.programId accounts w.ledger =
        .ok validated w.ledger) :
      Effect rt w (.start accounts) w
  | created {m s payer system : AccountInfo} {rest : List AccountInfo}
      {data : CreateMultisigInstruction} {L' : Ledger}
      (hvalid : CreateMultisig.Valid rt rt.programId m s system data)
      (hfits : Multisig.format.fits (CreateMultisig.newMultisig data) = true)
      (hinit : Initialised rt payer m
        (Multisig.format.encode (CreateMultisig.newMultisig data)) w.ledger L') :
      Effect rt w (.call (.createMultisig data) (m :: s :: payer :: system :: rest))
        ⟨L', .multisigCreated m.key data.owners data.nonce :: w.history⟩
  | configured {m s : AccountInfo} {rest : List AccountInfo}
      {instruction : MultisigInstruction} {multisig written : Multisig} {event : Event}
      (hsigned : SignedMultisig rt rt.programId w.ledger m s multisig)
      (hchange : Reconfigures m.key multisig instruction written event)
      (hfits : Multisig.format.fits written = true) :
      Effect rt w (.call instruction (m :: s :: rest))
        ⟨writeData w.ledger m.key (Multisig.format.encode written), event :: w.history⟩
  | proposed {m t proposer payer system : AccountInfo} {rest : List AccountInfo}
      {data : ProposeTransactionInstruction} {multisig : Multisig} {i : Nat}
      {L' : Ledger}
      (hvalid : ProposeTransaction.Valid rt.programId w.ledger m proposer system data
        multisig i)
      (hfits : Transaction.format.fits
        (ProposeTransaction.newTransaction m.key multisig i data) = true)
      (hinit : Initialised rt payer t (Transaction.format.encode
        (ProposeTransaction.newTransaction m.key multisig i data)) w.ledger L') :
      Effect rt w
        (.call (.proposeTransaction data) (m :: t :: proposer :: payer :: system :: rest))
        ⟨L', .proposed m.key t.key (signersOf (m :: t :: proposer :: payer :: system :: rest))
          data.instructions :: w.history⟩
  | approved {m t approver : AccountInfo} {rest : List AccountInfo} {multisig : Multisig}
      {transaction : Transaction} {i : Nat}
      (hvalid : ApproveTransaction.Valid rt.programId w.ledger m t approver multisig
        transaction i) :
      Effect rt w (.call .approveTransaction (m :: t :: approver :: rest))
        ⟨writeData w.ledger t.key (Transaction.format.encode (withSigner transaction i)),
          .approved m.key t.key (signersOf (m :: t :: approver :: rest)) :: w.history⟩
  | cancelled {m t refundee executor : AccountInfo} {rest : List AccountInfo}
      {multisig : Multisig} {transaction : Transaction} {L' : Ledger}
      (hvalid : CancelTransaction.Valid rt.programId w.ledger m t refundee executor
        multisig transaction)
      (hclose : Closed t refundee w.ledger L') :
      Effect rt w (.call .cancelTransaction (m :: t :: refundee :: executor :: rest))
        ⟨L', .cancelled m.key t.key :: w.history⟩
  | closed {execution : Execution rt} {L' : Ledger}
      (hclose : Closed execution.validated.transactionAccount
        execution.validated.refundee w.ledger L')
      (howner : (w.ledger execution.validated.transactionAccount.key).owner =
          rt.programId ∨
        w.ledger execution.validated.transactionAccount.key = Account.unused) :
      Effect rt w (.close execution)
        ⟨L', .executed execution.validated.multisigAccount.key
          execution.validated.transactionAccount.key execution.birth :: w.history⟩

section Inversion

variable {rt : Runtime} {w w' : World}

/-- A call that succeeds leaves the ledger of its handler and its events. -/
theorem perform_call_eq_some_iff {instruction : MultisigInstruction}
    {accounts : List AccountInfo} (hne : instruction ≠ .executeTransaction) :
    perform rt w (.call instruction accounts) = some w' ↔
      ∃ L', runHandler rt instruction accounts w.ledger = .ok () L' ∧
        (createsAccount instruction || effectAllowed rt accounts w.ledger L') = true ∧
        w' = ⟨L', eventsOf instruction accounts ++ w.history⟩ := by
  cases hrun : runHandler rt instruction accounts w.ledger with
  | error e L =>
      have hperform : perform rt w (.call instruction accounts) = none := by
        cases instruction with
        | executeTransaction => exact absurd rfl hne
        | _ => simp only [perform, hrun]
      simp [hperform]
  | ok u L =>
      cases u
      have hperform : perform rt w (.call instruction accounts) =
          if createsAccount instruction || effectAllowed rt accounts w.ledger L then
            some ⟨L, eventsOf instruction accounts ++ w.history⟩
          else none := by
        cases instruction with
        | executeTransaction => exact absurd rfl hne
        | _ => simp only [perform, hrun]
      simp only [hperform, EStateM.Result.ok.injEq, true_and, Option.ite_none_right_eq_some,
        Option.some.injEq]
      constructor
      · rintro ⟨hallowed, rfl⟩
        exact ⟨L, rfl, hallowed, rfl⟩
      · rintro ⟨L', rfl, hallowed, rfl⟩
        exact ⟨hallowed, rfl⟩

theorem runHandler_effect {instruction : MultisigInstruction}
    {accounts : List AccountInfo} {L' : Ledger}
    (hne : instruction ≠ .executeTransaction)
    (hrun : runHandler rt instruction accounts w.ledger = .ok () L') :
    Effect rt w (.call instruction accounts)
      ⟨L', eventsOf instruction accounts ++ w.history⟩ := by
  cases instruction with
  | createMultisig data =>
      obtain ⟨m, s, payer, system, rest, rfl, hvalid, hcreate⟩ :=
        createMultisig_eq_ok_iff.mp hrun
      obtain ⟨hfits, hinit⟩ :=
        initialised_of_createAndSerialize (Multisig.format_encode_length _) hcreate
      exact .created hvalid hfits hinit
  | setOwners data =>
      obtain ⟨m, s, rest, multisig, rfl, hsigned, hnodup, hnil, hle, hfits, rfl⟩ :=
        setOwners_effect hrun
      exact .configured hsigned (.setOwners ⟨hnodup, hnil, hle⟩) hfits
  | changeThreshold data =>
      obtain ⟨m, s, rest, multisig, rfl, hsigned, hpos, hle, rfl⟩ :=
        changeThreshold_effect hrun
      exact .configured hsigned (.changeThreshold ⟨hpos, hle⟩) hsigned.fits
  | setOwnersAndChangeThreshold data =>
      obtain ⟨m, s, rest, multisig, rfl, hsigned, hnodup, hnil, hle, hpos, hbound, hfits,
        rfl⟩ := setOwnersAndChangeThreshold_effect hrun
      exact .configured hsigned
        (.setOwnersAndChangeThreshold ⟨hnodup, hnil, hle⟩ ⟨hpos, hbound⟩) hfits
  | proposeTransaction data =>
      obtain ⟨m, t, proposer, payer, system, rest, multisig, i, rfl, hvalid, hcreate⟩ :=
        proposeTransaction_eq_ok_iff.mp hrun
      obtain ⟨hfits, hinit⟩ :=
        initialised_of_createAndSerialize (Transaction.format_encode_length _) hcreate
      exact .proposed hvalid hfits hinit
  | approveTransaction =>
      obtain ⟨m, t, approver, rest, multisig, transaction, i, rfl, hvalid, rfl⟩ :=
        approveTransaction_eq_ok_iff.mp hrun
      exact .approved hvalid
  | executeTransaction => exact absurd rfl hne
  | cancelTransaction =>
      obtain ⟨m, t, refundee, executor, rest, multisig, transaction, rfl, hvalid, hclose⟩ :=
        cancelTransaction_eq_ok_iff.mp hrun
      exact .cancelled hvalid (closed_of_closeAccount hvalid.refundee_ne hclose)

theorem call_effect {instruction : MultisigInstruction} {accounts : List AccountInfo}
    (h : perform rt w (.call instruction accounts) = some w') :
    Effect rt w (.call instruction accounts) w' := by
  have hne : instruction ≠ .executeTransaction := by
    rintro rfl
    cases h
  obtain ⟨L', hrun, -, rfl⟩ := (perform_call_eq_some_iff hne).mp h
  exact runHandler_effect hne hrun

/-- A program may do what it likes with its own writable accounts. -/
theorem effectAllowed_update {accounts : List AccountInfo} {L : Ledger} {key : Pubkey}
    (howner : (L key).owner = rt.programId) (hwritable : isWritableIn accounts key = true)
    (new : Account) : effectAllowed rt accounts L (Function.update L key new) = true := by
  rw [effectAllowed, List.all_eq_true]
  intro info _
  by_cases hk : info.key = key
  · simp [hk, changeAllowed, howner, hwritable]
  · simp [hk, changeAllowed]

/-- The refundee of a running execution is not its transaction account. -/
theorem Execution.valid (execution : Execution rt) :
    ∃ L executor, ExecuteTransaction.Valid rt rt.programId L execution.validated
      executor := by
  obtain ⟨L, haccepted⟩ := execution.accepted
  obtain ⟨executor, rest, -, hvalid, -⟩ :=
    ExecuteTransaction.validate_eq_ok_iff.mp haccepted
  exact ⟨L, executor, hvalid⟩

theorem Execution.refundee_ne (execution : Execution rt) :
    execution.validated.refundee.key ≠ execution.validated.transactionAccount.key := by
  obtain ⟨_, _, hvalid⟩ := execution.valid
  exact hvalid.refundee_ne

/-- Closing an account that is not this program's passes the runtime's check
only if there was nothing to change. -/
theorem unused_of_changeAllowed {isWritable : Bool} {old : Account}
    (howner : old.owner ≠ rt.programId)
    (h : changeAllowed rt isWritable old Account.unused = true) :
    old = Account.unused := by
  simp only [changeAllowed, Bool.or_eq_true, Bool.and_eq_true, beq_iff_eq,
    decide_eq_true_eq, howner, false_or] at h
  rcases h with heq | ⟨-, ⟨howner', hdata⟩, hle⟩
  · exact heq.symm
  · rcases old with ⟨lamports, owner, data⟩
    simp only [Account.unused] at howner' hdata hle ⊢
    have hzero : lamports = 0 := UInt64.le_antisymm hle (UInt64.zero_le)
    rw [hzero, ← howner', ← hdata]

theorem close_effect {execution : Execution rt}
    (h : perform rt w (.close execution) = some w') :
    Effect rt w (.close execution) w' := by
  simp only [perform] at h
  split at h
  · rename_i u L' hclose
    cases u
    split at h
    · rename_i hallowed
      obtain rfl := Option.some.inj h
      have hclosed := closed_of_closeAccount execution.refundee_ne hclose
      refine .closed hclosed ?_
      by_cases howner : (w.ledger execution.validated.transactionAccount.key).owner =
          rt.programId
      · exact .inl howner
      · right
        simp only [effectAllowed, List.all_cons, Bool.and_eq_true] at hallowed
        have hchange := hallowed.1
        rw [hclosed.account_eq] at hchange
        exact unused_of_changeAllowed howner hchange
    · cases h
  · cases h

theorem perform_effect {label : Label rt} (h : perform rt w label = some w') :
    Effect rt w label w' := by
  cases label with
  | idle =>
      obtain rfl : w = w' := Option.some.inj h
      exact .idle
  | «foreign» updates =>
      obtain ⟨L', hL', rfl⟩ := Option.map_eq_some_iff.mp h
      exact .foreign (foreignEffect_of_applyForeign hL')
  | call instruction accounts => exact call_effect h
  | start accounts =>
      simp only [perform] at h
      split at h
      · rename_i validated L hvalidate
        obtain rfl := Option.some.inj h
        obtain ⟨_, _, _, _, rfl⟩ := ExecuteTransaction.validate_eq_ok_iff.mp hvalidate
        exact .started hvalidate
      · cases h
  | close execution => exact close_effect h

end Inversion

/-- The account that a step is about. -/
def Label.subject {rt : Runtime} : Label rt → Option Pubkey
  | .call (.createMultisig _) (m :: _) => some m.key
  | .call (.setOwners _) (m :: _) => some m.key
  | .call (.changeThreshold _) (m :: _) => some m.key
  | .call (.setOwnersAndChangeThreshold _) (m :: _) => some m.key
  | .call (.proposeTransaction _) (_ :: t :: _) => some t.key
  | .call .approveTransaction (_ :: t :: _) => some t.key
  | .call .cancelTransaction (_ :: t :: _) => some t.key
  | .close execution => some execution.validated.transactionAccount.key
  | _ => none

theorem Reconfigures.subject {key : Pubkey} {multisig written : Multisig}
    {instruction : MultisigInstruction} {event : Event}
    (h : Reconfigures key multisig instruction written event) : event.subject = key := by
  cases h <;> rfl

theorem Reconfigures.nonce_eq {key : Pubkey} {multisig written : Multisig}
    {instruction : MultisigInstruction} {event : Event}
    (h : Reconfigures key multisig instruction written event) :
    written.nonce = multisig.nonce := by
  cases h <;> rfl

theorem Reconfigures.len_eq {key : Pubkey} {multisig written : Multisig}
    {instruction : MultisigInstruction} {event : Event}
    (h : Reconfigures key multisig instruction written event)
    (hfits : Multisig.format.fits multisig = true) : written.len = multisig.len := by
  cases h with
  | setOwners howners => exact withOwners_len hfits howners.capacity
  | changeThreshold hthreshold => rfl
  | setOwnersAndChangeThreshold howners hthreshold =>
      exact withOwners_len hfits howners.capacity

namespace Effect

variable {rt : Runtime} {w w' : World} {label : Label rt}

theorem kept_of_initialised {payer account : AccountInfo} {data : Bytes} {L L' : Ledger}
    (h : Initialised rt payer account data L L') {k : Pubkey} (hk : k ≠ account.key) :
    Kept rt (L k) (L' k) := by
  refine .of_lamports (h.owner_eq k hk) (h.data_eq k hk) ?_
  intro howner
  rw [h.eq_of_owner k hk (by rw [howner]; exact rt.programId_ne)]
  exact UInt64.le_refl _

/-- Every account that a step is not about is kept, and so is its occupant. -/
theorem frame (h : Effect rt w label w') {k : Pubkey} (hk : label.subject ≠ some k) :
    Kept rt (w.ledger k) (w'.ledger k) ∧ w'.registry k = w.registry k ∧
      (k = systemProgram → (w'.ledger k).owner = (w.ledger k).owner) := by
  have hne : ∀ {key : Pubkey}, some key ≠ some k → k ≠ key := by
    rintro key hkey rfl
    exact hkey rfl
  cases h with
  | idle => exact ⟨.refl _, rfl, fun _ => rfl⟩
  | «foreign» hforeign =>
      refine ⟨hforeign.kept k, rfl, ?_⟩
      rintro rfl
      exact congrArg Account.owner hforeign.system_eq
  | started hvalidate => exact ⟨.refl _, rfl, fun _ => rfl⟩
  | @created m s payer system rest data L' hvalid hfits hinit =>
      have hkey : k ≠ m.key := hne hk
      exact ⟨kept_of_initialised hinit hkey, World.registry_of_ne _ hkey,
        fun _ => hinit.owner_eq k hkey⟩
  | @configured m s rest instruction multisig written event hsigned hchange hfits =>
      have hkey : k ≠ m.key := by
        cases hchange <;> exact hne hk
      have hsame := writeData_of_ne (L := w.ledger)
        (Multisig.format.encode written) hkey
      refine ⟨?_, ?_, fun _ => congrArg Account.owner hsame⟩
      · change Kept rt (w.ledger k) (writeData w.ledger m.key _ k)
        rw [hsame]
        exact .refl _
      · refine World.registry_of_ne _ ?_
        rw [hchange.subject]
        exact hkey
  | @proposed m t proposer payer system rest data multisig i L' hvalid hfits hinit =>
      have hkey : k ≠ t.key := hne hk
      exact ⟨kept_of_initialised hinit hkey, World.registry_of_ne _ hkey,
        fun _ => hinit.owner_eq k hkey⟩
  | @approved m t approver rest multisig transaction i hvalid =>
      have hkey : k ≠ t.key := hne hk
      have hsame := writeData_of_ne (L := w.ledger)
        (Transaction.format.encode (withSigner transaction i)) hkey
      refine ⟨?_, World.registry_of_ne _ hkey, fun _ => congrArg Account.owner hsame⟩
      change Kept rt (w.ledger k) (writeData w.ledger t.key _ k)
      rw [hsame]
      exact .refl _
  | @cancelled m t refundee executor rest multisig transaction L' hvalid hclose =>
      have hkey : k ≠ t.key := hne hk
      exact ⟨.of_lamports (hclose.owner_eq k hkey) (hclose.data_eq k hkey)
        fun _ => hclose.lamports_le k hkey, World.registry_of_ne _ hkey,
        fun _ => hclose.owner_eq k hkey⟩
  | @closed execution L' hclose howner =>
      have hkey : k ≠ execution.validated.transactionAccount.key := hne hk
      exact ⟨.of_lamports (hclose.owner_eq k hkey) (hclose.data_eq k hkey)
        fun _ => hclose.lamports_le k hkey, World.registry_of_ne _ hkey,
        fun _ => hclose.owner_eq k hkey⟩

/-- A handler neither changes nor debits an account of this program that it is not
about. -/
theorem untouched (h : Effect rt w label w') {k : Pubkey} (hk : label.subject ≠ some k)
    (howner : (w.ledger k).owner = rt.programId) :
    (∃ updates, label = .foreign updates) ∨
      (w'.ledger k).owner = rt.programId ∧ (w'.ledger k).data = (w.ledger k).data ∧
        (w.ledger k).lamports ≤ (w'.ledger k).lamports := by
  have hne : ∀ {key : Pubkey}, some key ≠ some k → k ≠ key := by
    rintro key hkey rfl
    exact hkey rfl
  have hsame : ∀ {account : Account}, account = w.ledger k →
      account.owner = rt.programId ∧ account.data = (w.ledger k).data ∧
        (w.ledger k).lamports ≤ account.lamports := by
    rintro _ rfl
    exact ⟨howner, rfl, UInt64.le_refl _⟩
  have hsystem : (w.ledger k).owner ≠ systemProgram := by
    rw [howner]
    exact rt.programId_ne
  have hclosed : ∀ {account refundee : AccountInfo} {L' : Ledger},
      Closed account refundee w.ledger L' → k ≠ account.key →
      (L' k).owner = rt.programId ∧ (L' k).data = (w.ledger k).data ∧
        (w.ledger k).lamports ≤ (L' k).lamports := by
    intro account refundee L' hclose hkey
    exact ⟨(hclose.owner_eq k hkey).trans howner, hclose.data_eq k hkey,
      hclose.lamports_le k hkey⟩
  cases h with
  | «foreign» hforeign => exact .inl ⟨_, rfl⟩
  | idle => exact .inr (hsame rfl)
  | started hvalidate => exact .inr (hsame rfl)
  | created hvalid hfits hinit =>
      exact .inr (hsame (hinit.eq_of_owner k (hne hk) hsystem))
  | @configured m s rest instruction multisig written event hsigned hchange hfits =>
      have hkey : k ≠ m.key := by
        cases hchange <;> exact hne hk
      exact .inr (hsame (writeData_of_ne _ hkey))
  | proposed hvalid hfits hinit =>
      exact .inr (hsame (hinit.eq_of_owner k (hne hk) hsystem))
  | approved hvalid => exact .inr (hsame (writeData_of_ne _ (hne hk)))
  | cancelled hvalid hclose => exact .inr (hclosed hclose (hne hk))
  | closed hclose _ => exact .inr (hclosed hclose (hne hk))

end Effect

end MultisigNative.System
