import MultisigNative.Library.Footprint
import MultisigNative.Processor

/-!
The program looks only at the accounts that it is passed.
-/

namespace MultisigNative.System

open Library.Borsh
open Library.StateError
open Library.Footprint
open Solana
open State
open Instructions
open Processor

/-- The addresses that are passed. -/
def keysOf (accounts : List AccountInfo) : Set Pubkey :=
  {key | ∃ info ∈ accounts, info.key = key}

theorem key_mem_keysOf {accounts : List AccountInfo} {info : AccountInfo}
    (h : info ∈ accounts) : info.key ∈ keysOf accounts :=
  ⟨info, h, rfl⟩

/-- The system program, too, looks only at the two accounts that it is passed. -/
def CreatesLocally (rt : Runtime) : Prop :=
  ∀ payer account space owner, Local {payer.key, account.key}
    (rt.createAccount payer account (rt.minimumBalance space) space owner)

section Accesses

variable {S : Set Pubkey} {info account refundee payer : AccountInfo} {α β : Type}

theorem local_owner (h : info.key ∈ S) : Local S info.owner := .read h Account.owner

theorem local_data (h : info.key ∈ S) : Local S info.data := .read h Account.data

theorem local_lamports (h : info.key ∈ S) : Local S info.lamports := .read h Account.lamports

theorem local_update (h : info.key ∈ S) (f : Account → Account) : Local S (info.update f) :=
  .update h f

theorem local_liftM (x : Except ProgramError α) : Local S (liftM x : Handler α) :=
  .ofExcept Fault.error x

theorem local_check (x : Except ProgramError α) {f : α → Handler β}
    (hf : ∀ a, Local S (f a)) : Local S ((liftM x : Handler α) >>= f) :=
  .bind (local_liftM x) fun a _ => hf a

/-- A check of an account's owner. -/
theorem local_ownerCheck (h : info.key ∈ S) {check : Pubkey → Except ProgramError α}
    {f : α → Handler β} (hf : ∀ a, Local S (f a)) :
    Local S (info.owner >>= fun owner => (liftM (check owner) : Handler α) >>= f) :=
  .bind (local_owner h) fun owner _ => local_check (check owner) hf

/-- A check of an account's data. -/
theorem local_dataCheck (h : info.key ∈ S) {check : Bytes → Except ProgramError α}
    {f : α → Handler β} (hf : ∀ a, Local S (f a)) :
    Local S (info.data >>= fun data => (liftM (check data) : Handler α) >>= f) :=
  .bind (local_data h) fun data _ => local_check (check data) hf

/-- An account taken from the iterator is one of those passed. -/
theorem local_nextAccountInfo {infos : List AccountInfo}
    {f : AccountInfo × List AccountInfo → Handler β} (hall : ∀ info ∈ infos, info.key ∈ S)
    (hf : ∀ info rest, info.key ∈ S → (∀ info ∈ rest, info.key ∈ S) →
      Local S (f (info, rest))) :
    Local S ((liftM (nextAccountInfo infos) : Handler _) >>= f) := by
  refine .bind (local_liftM _) ?_
  rintro ⟨info, rest⟩ ⟨L, L', hrun⟩
  cases infos with
  | nil => cases hrun
  | cons info rest =>
      cases hrun
      rw [List.forall_mem_cons] at hall
      exact hf _ _ hall.1 hall.2

theorem local_serializeInto (h : info.key ∈ S) (f : Format α) (value : α) :
    Local S (serializeInto f value info) := by
  refine .bind (local_data h) fun data _ => ?_
  split
  · refine .bind (local_update h _) fun _ _ => ?_
    split
    · exact .throw _
    · exact .pure ()
  · exact .throw _

theorem local_closeAccount (haccount : account.key ∈ S) (hrefundee : refundee.key ∈ S) :
    Local S (closeAccount account refundee) := by
  refine .bind (local_lamports haccount) fun _ _ => ?_
  refine .bind (local_update haccount _) fun _ _ => ?_
  refine .bind (local_lamports hrefundee) fun _ _ => ?_
  refine local_check _ fun _ => ?_
  refine .bind (local_update hrefundee _) fun _ _ => ?_
  exact .bind (local_update haccount _) fun _ _ => local_update haccount _

theorem local_createAndSerialize {rt : Runtime} (hcreates : CreatesLocally rt)
    (hpayer : payer.key ∈ S) (haccount : account.key ∈ S) (f : Format α) (value : α)
    (len : Nat) (programId : Pubkey) :
    Local S (createAndSerialize rt f value len payer account programId) := by
  have hcreate := (hcreates payer account len programId).mono
    (Set.insert_subset hpayer (Set.singleton_subset_iff.mpr haccount))
  exact .bind hcreate fun _ _ => local_serializeInto haccount f value

end Accesses

section Handlers

variable {rt : Runtime} {S : Set Pubkey} {programId : Pubkey} {accounts : List AccountInfo}

theorem local_withSignedMultisig {update : AccountInfo → Multisig → Handler Unit}
    (hall : ∀ info ∈ accounts, info.key ∈ S)
    (hupdate : ∀ m multisig, m.key ∈ S → Local S (update m multisig)) :
    Local S (withSignedMultisig rt programId accounts update) := by
  refine local_nextAccountInfo hall fun m rest hm hrest => ?_
  refine local_nextAccountInfo hrest fun s rest _ _ => ?_
  refine local_dataCheck hm fun multisig => ?_
  refine local_ownerCheck hm fun _ => ?_
  exact local_check _ fun _ => hupdate m multisig hm

theorem local_executeSetOwners {m : AccountInfo} (hm : m.key ∈ S) (multisig : Multisig)
    (owners : List Pubkey) : Local S (executeSetOwners m multisig owners) :=
  .bind (local_serializeInto hm _ _) fun _ _ => .pure _

theorem local_executeChangeThreshold {m : AccountInfo} (hm : m.key ∈ S) (multisig : Multisig)
    (threshold : UInt8) : Local S (executeChangeThreshold m multisig threshold) :=
  .bind (local_serializeInto hm _ _) fun _ _ => .pure _

theorem local_setOwners (hall : ∀ info ∈ accounts, info.key ∈ S)
    (instruction : SetOwnersInstruction) :
    Local S (setOwners rt programId accounts instruction) := by
  refine local_withSignedMultisig hall fun m multisig hm => ?_
  refine local_check _ fun _ => ?_
  exact .bind (local_executeSetOwners hm _ _) fun _ _ => .pure ()

theorem local_changeThreshold (hall : ∀ info ∈ accounts, info.key ∈ S)
    (instruction : ChangeThresholdInstruction) :
    Local S (changeThreshold rt programId accounts instruction) := by
  refine local_withSignedMultisig hall fun m multisig hm => ?_
  refine local_check _ fun _ => ?_
  exact .bind (local_executeChangeThreshold hm _ _) fun _ _ => .pure ()

theorem local_setOwnersAndChangeThreshold (hall : ∀ info ∈ accounts, info.key ∈ S)
    (instruction : SetOwnersAndChangeThresholdInstruction) :
    Local S (setOwnersAndChangeThreshold rt programId accounts instruction) := by
  refine local_withSignedMultisig hall fun m multisig hm => ?_
  refine local_check _ fun _ => ?_
  refine local_check _ fun _ => ?_
  refine .bind (local_executeSetOwners hm _ _) fun _ _ => ?_
  exact .bind (local_executeChangeThreshold hm _ _) fun _ _ => .pure ()

theorem local_createMultisig (hcreates : CreatesLocally rt)
    (hall : ∀ info ∈ accounts, info.key ∈ S) (instruction : CreateMultisigInstruction) :
    Local S (createMultisig rt programId accounts instruction) := by
  refine local_nextAccountInfo hall fun m rest hm hrest => ?_
  refine local_nextAccountInfo hrest fun s rest _ hrest => ?_
  refine local_nextAccountInfo hrest fun payer rest hpayer hrest => ?_
  refine local_nextAccountInfo hrest fun system rest _ _ => ?_
  refine local_check _ fun _ => ?_
  exact local_createAndSerialize hcreates hpayer hm _ _ _ _

theorem local_markSigner (signers : List Bool) (index : Nat) :
    Local S (markSigner signers index) := by
  unfold markSigner
  split
  · exact .pure _
  · exact .throw _

theorem local_proposeTransaction (hcreates : CreatesLocally rt)
    (hall : ∀ info ∈ accounts, info.key ∈ S) (instruction : ProposeTransactionInstruction) :
    Local S (proposeTransaction rt programId accounts instruction) := by
  refine local_nextAccountInfo hall fun m rest hm hrest => ?_
  refine local_nextAccountInfo hrest fun t rest ht hrest => ?_
  refine local_nextAccountInfo hrest fun proposer rest _ hrest => ?_
  refine local_nextAccountInfo hrest fun payer rest hpayer hrest => ?_
  refine local_nextAccountInfo hrest fun system rest _ _ => ?_
  have hvalidate : Local S
      (ProposeTransaction.validate programId m proposer system instruction) := by
    refine local_ownerCheck hm fun _ => ?_
    refine local_check _ fun _ => ?_
    exact local_check _ fun _ => local_liftM _
  refine .bind hvalidate fun _ _ => ?_
  refine local_dataCheck hm fun _ => ?_
  refine local_check _ fun _ => ?_
  refine .bind (local_markSigner _ _) fun _ _ => ?_
  exact local_createAndSerialize hcreates hpayer ht _ _ _ _

theorem local_approveTransaction (hall : ∀ info ∈ accounts, info.key ∈ S) :
    Local S (approveTransaction programId accounts) := by
  refine local_nextAccountInfo hall fun m rest hm hrest => ?_
  refine local_nextAccountInfo hrest fun t rest ht hrest => ?_
  refine local_nextAccountInfo hrest fun approver rest _ _ => ?_
  have hvalidate : ∀ multisig transaction, Local S
      (ApproveTransaction.validate programId multisig transaction approver t m) := by
    intro multisig transaction
    refine local_ownerCheck hm fun _ => ?_
    refine local_ownerCheck ht fun _ => ?_
    refine local_check _ fun _ => ?_
    refine local_check _ fun _ => ?_
    exact local_check _ fun _ => local_liftM _
  refine local_dataCheck hm fun multisig => ?_
  refine local_dataCheck ht fun transaction => ?_
  refine .bind (hvalidate multisig transaction) fun _ _ => ?_
  refine local_check _ fun _ => ?_
  refine .bind (local_markSigner _ _) fun _ _ => ?_
  exact local_serializeInto ht _ _

theorem local_cancelTransaction (hall : ∀ info ∈ accounts, info.key ∈ S) :
    Local S (cancelTransaction programId accounts) := by
  refine local_nextAccountInfo hall fun m rest hm hrest => ?_
  refine local_nextAccountInfo hrest fun t rest ht hrest => ?_
  refine local_nextAccountInfo hrest fun refundee rest hrefundee hrest => ?_
  refine local_nextAccountInfo hrest fun executor rest _ _ => ?_
  have hvalidate : Local S
      (CancelTransaction.validate programId m t refundee executor) := by
    refine local_ownerCheck hm fun _ => ?_
    refine local_ownerCheck ht fun _ => ?_
    refine local_dataCheck hm fun _ => ?_
    refine local_dataCheck ht fun _ => ?_
    refine local_check _ fun _ => ?_
    refine local_check _ fun _ => ?_
    refine local_check _ fun _ => ?_
    refine local_check _ fun _ => ?_
    exact local_check _ fun _ => local_liftM _
  exact .bind hvalidate fun _ _ => local_closeAccount ht hrefundee

/-- The accounts that are validated are among those passed. -/
theorem local_executeTransaction {invokeSigned : Invocation → Handler Unit}
    (hall : ∀ info ∈ accounts, info.key ∈ S)
    (hinvoke : ∀ invocation, invocation.accounts = accounts →
      Local S (invokeSigned invocation)) :
    Local S (executeTransaction rt invokeSigned programId accounts) := by
  have hvalidate : Local S (ExecuteTransaction.validate rt programId accounts) := by
    refine local_nextAccountInfo hall fun m rest hm hrest => ?_
    refine local_nextAccountInfo hrest fun s rest _ hrest => ?_
    refine local_nextAccountInfo hrest fun t rest ht hrest => ?_
    refine local_nextAccountInfo hrest fun refundee rest _ hrest => ?_
    refine local_nextAccountInfo hrest fun executor rest _ _ => ?_
    refine local_ownerCheck hm fun _ => ?_
    refine local_ownerCheck ht fun _ => ?_
    refine local_dataCheck hm fun _ => ?_
    refine local_dataCheck ht fun _ => ?_
    refine local_check _ fun _ => ?_
    refine local_check _ fun _ => ?_
    refine local_ownerCheck hm fun _ => ?_
    refine local_check _ fun _ => ?_
    refine local_check _ fun _ => ?_
    refine local_check _ fun _ => ?_
    refine local_check _ fun _ => ?_
    exact local_check _ fun _ => .pure _
  refine .bind hvalidate ?_
  rintro validated ⟨L, L', hrun⟩
  obtain ⟨executor, rest, haccounts, -⟩ := ExecuteTransaction.validate_eq_ok_iff.mp hrun
  refine .bind (.forM _ fun ix _ => hinvoke _ rfl) fun _ _ => ?_
  exact local_closeAccount (hall _ (by simp [haccounts])) (hall _ (by simp [haccounts]))

end Handlers

/-- Where the invoked programs look only at the accounts that they are passed, the program
does so as well, whatever it is called with. -/
theorem local_processInstruction {rt : Runtime} {invokeSigned : Invocation → Handler Unit}
    (hcreates : CreatesLocally rt)
    (hinvoke : ∀ invocation, Local (keysOf invocation.accounts) (invokeSigned invocation))
    (programId : Pubkey) (accounts : List AccountInfo) (data : Bytes) :
    Local (keysOf accounts)
      (processInstruction rt invokeSigned programId accounts data) := by
  have hall : ∀ info ∈ accounts, info.key ∈ keysOf accounts := fun _ => key_mem_keysOf
  unfold processInstruction
  split
  · rename_i instruction _
    cases instruction with
    | createMultisig data => exact local_createMultisig hcreates hall data
    | setOwners data => exact local_setOwners hall data
    | changeThreshold data => exact local_changeThreshold hall data
    | setOwnersAndChangeThreshold data => exact local_setOwnersAndChangeThreshold hall data
    | proposeTransaction data => exact local_proposeTransaction hcreates hall data
    | approveTransaction => exact local_approveTransaction hall
    | executeTransaction =>
        refine local_executeTransaction hall fun invocation haccounts => ?_
        rw [← haccounts]
        exact hinvoke invocation
    | cancelTransaction => exact local_cancelTransaction hall
  · exact .throw _

end MultisigNative.System
