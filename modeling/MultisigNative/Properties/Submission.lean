import MultisigNative.Properties.Fidelity
import MultisigNative.Properties.Liveness
import MultisigNative.Properties.WireFormat
import MultisigNative.System.Authority
import MultisigNative.System.Message
import MultisigNative.System.Progress

/-!
The client proposes, approves and executes in one signed transaction, and the machine
runs it up to the first call that was proposed.
-/

namespace MultisigNative.Properties

open Library.Borsh
open Library.StateError
open Solana
open State
open Instructions
open Processor
open Client
open MultisigNative.System

section Building

variable {js : BorshJs} {schema : Schema} {object : Value} {keys : List AccountMeta}
  {programId : Pubkey} {instruction : MultisigInstruction}

/-- An instruction of the client, with what the program decodes from it. -/
structure Encodes (programId : Pubkey) (keys : List AccountMeta)
    (instruction : MultisigInstruction) (ix : TransactionInstruction) : Prop where
  programId_eq : ix.programId = programId
  keys_eq : ix.keys = keys
  decodes : MultisigInstruction.format.tryFromSlice ix.data = some instruction

end Building

section Privileges

variable {rt : Runtime} {reserved : Pubkey → Bool} {message : Message}
  {execute ix : TransactionInstruction} {ixs : List TransactionInstruction} {pda : Pubkey}
  {fixed : List AccountMeta} {e : Execution rt} {invocation : Invocation}

/-- An execution that got the accounts of the client's message may make all the calls: the
client has listed every account with the privileges it needs, but for the multisig's own
signature, which the execution adds. -/
theorem calls_privileged (hexecute : execute ∈ message.instructions)
    (hkeys : execute.keys = fixed ++ dedupedAccounts pda ixs)
    (haccounts : e.accounts = infosOf reserved message execute)
    (hsigner : e.validated.multisigSigner.key = pda) (hsigns : e.SignsFor pda)
    (hfree : ∀ ix ∈ ixs, ∀ acc ∈ ix.keys, acc.isWritable = true →
      demoted reserved message acc.pubkey = false)
    (hix : ix ∈ ixs) (hinvocation : ExecuteTransaction.toInvocation e.validated e.accounts
      (toStored ix) = invocation) :
    (calleeInfos invocation.instruction.accounts).all
      (mayPass (some (.execution e)) invocation.signersSeeds) = true := by
  have hseeds : invocation.signersSeeds = [ExecuteTransaction.signerSeeds e.validated] := by
    rw [← hinvocation]
    rfl
  have hmetas : ∀ acc ∈ invocation.instruction.accounts, ∃ key ∈ ix.keys,
      acc = ⟨key.pubkey, key.isSigner || key.pubkey == pda, key.isWritable⟩ := by
    intro acc hacc
    rw [← hinvocation, toInvocation_eq, hsigner] at hacc
    simp only [proposedCall, toStored, List.map_map, List.mem_map, Function.comp_apply] at hacc
    obtain ⟨key, hkey, rfl⟩ := hacc
    exact ⟨key, hkey, rfl⟩
  have hpassed : ∀ key ∈ ix.keys, withoutSigner pda key ∈ execute.keys := by
    intro key hkey
    rw [hkeys, List.mem_append, mem_dedupedAccounts]
    exact .inr ⟨ix, hix, .inl ⟨key, hkey, rfl⟩⟩
  have hpubkey : ∀ key : AccountMeta, (withoutSigner pda key).pubkey = key.pubkey ∧
      (withoutSigner pda key).isWritable = key.isWritable := by
    intro key
    unfold withoutSigner
    split <;> exact ⟨rfl, rfl⟩
  refine mayPass_calleeInfos ?_ ?_ ?_
  · intro acc hacc
    obtain ⟨key, hkey, rfl⟩ := hmetas acc hacc
    refine ⟨infoOf reserved message key.pubkey, ?_, rfl⟩
    change _ ∈ e.accounts
    rw [haccounts, ← (hpubkey key).1]
    exact List.mem_map_of_mem (hpassed key hkey)
  · intro acc hacc hflag
    obtain ⟨key, hkey, rfl⟩ := hmetas acc hacc
    change isWritableIn e.accounts key.pubkey = true
    rw [haccounts, ← (hpubkey key).1]
    refine isWritableIn_infosOf hexecute (hpassed key hkey) ?_ ?_
    · rw [(hpubkey key).2]
      exact hflag
    · rw [(hpubkey key).1]
      exact hfree ix hix key hkey hflag
  · intro acc hacc hflag
    obtain ⟨key, hkey, rfl⟩ := hmetas acc hacc
    by_cases hkpda : key.pubkey = pda
    · right
      simp only [hseeds, Frame.signsFor, List.any_cons, List.any_nil, Bool.or_false, beq_iff_eq]
      rw [hkpda]
      exact hsigns
    · left
      have hsame : withoutSigner pda key = key := by
        rw [withoutSigner, if_neg (by simpa using hkpda)]
      have hsign : key.isSigner = true := by simpa [hkpda] using hflag
      have hmem := hpassed key hkey
      rw [hsame] at hmem
      change isSignerIn e.accounts key.pubkey = true
      rw [haccounts]
      exact isSignerIn_infosOf hexecute hmem hsign

end Privileges

/-- The arguments of `proposeSignAndExecuteTransaction`. -/
structure Request where
  payer : Keypair
  txAccount : Keypair
  proposer : Keypair
  signers : List Keypair
  instructions : List TransactionInstruction
  multisigSigner : Pubkey
  multisigAddress : Pubkey
  executor : Keypair
  refundee : Pubkey

namespace Request

def message (js : BorshJs) (programId : Pubkey) (r : Request) : Option Message :=
  proposeSignAndExecuteTransaction js programId r.payer r.txAccount r.proposer r.signers
    r.instructions r.multisigSigner r.multisigAddress r.executor r.refundee

/-- The keys that sign the transaction. -/
def keys (r : Request) : List Pubkey :=
  (r.payer :: r.txAccount :: r.proposer :: r.signers).map Keypair.publicKey

/-- Proposer and approvers together. -/
def quorum (r : Request) : List Pubkey :=
  (r.proposer :: r.signers).map Keypair.publicKey

/-- The instructions as the proposal stores them. -/
def stored (r : Request) : List TransactionInstructionData := r.instructions.map toStored

end Request

/-- A quorum of the multisig asks for instructions that are signed by its own address or
by somebody at hand, and there is money for the proposal's account. -/
structure Request.Sound (rt : Runtime) (reserved : Pubkey → Bool) (multisig : Multisig)
    (pda : Pubkey) (L : Ledger) (r : Request) : Prop where
  signer_eq : r.multisigSigner = pda
  nodup : r.quorum.Nodup
  owners : ∀ key ∈ r.quorum, key ∈ multisig.owners
  length_eq : r.quorum.length = max 1 multisig.threshold.toNat
  executor_mem : r.executor.publicKey ∈ multisig.owners
  executor_signs : r.executor.publicKey ∈ r.keys
  instructions_ne : r.instructions ≠ []
  refundee_ne : r.refundee ≠ r.txAccount.publicKey
  private_keys : ∀ key ∈ r.keys, rt.pdaProgram key = none
  writable : ∀ key ∈ [r.payer.publicKey, r.txAccount.publicKey, r.refundee],
    reserved key = false ∧ key ≠ rt.programId
  signs : ∀ ix ∈ r.instructions, ∀ acc ∈ ix.keys, acc.isSigner = true →
    acc.pubkey = pda ∨ acc.pubkey ∈ r.keys
  writes : ∀ ix ∈ r.instructions, ∀ acc ∈ ix.keys, acc.isWritable = true →
    reserved acc.pubkey = false ∧ acc.pubkey ≠ rt.programId
  created : ∃ L', rt.createAccount ⟨r.payer.publicKey, true, true⟩
    ⟨r.txAccount.publicKey, true, true⟩ (rt.minimumBalance (proposalLen multisig r.stored))
    (proposalLen multisig r.stored) rt.programId L = .ok () L'
  refundable : (L r.refundee).lamports.toNat +
    (rt.minimumBalance (proposalLen multisig r.stored)).toNat < 2 ^ 64

/-- The message that the client makes, instruction by instruction. -/
structure Submits (rt : Runtime) (r : Request) (message : Message)
    (propose : TransactionInstruction) (approvals : List TransactionInstruction)
    (execute : TransactionInstruction) : Prop where
  instructions_eq : message.instructions = propose :: approvals ++ [execute]
  feePayer_eq : message.feePayer = r.payer.publicKey
  signers_eq : message.signers = r.keys
  propose : Encodes rt.programId
    [⟨r.multisigAddress, false, false⟩, ⟨r.txAccount.publicKey, true, true⟩,
      ⟨r.proposer.publicKey, true, false⟩, ⟨r.payer.publicKey, true, false⟩,
      ⟨systemProgram, false, false⟩]
    (.proposeTransaction ⟨r.stored⟩) propose
  approvals : List.Forall₂ (fun signer ix => Encodes rt.programId
    [⟨r.multisigAddress, false, false⟩, ⟨r.txAccount.publicKey, false, true⟩,
      ⟨signer.publicKey, true, false⟩] .approveTransaction ix) r.signers approvals
  execute : Encodes rt.programId
    ([⟨r.multisigAddress, false, false⟩, ⟨r.multisigSigner, false, false⟩,
      ⟨r.txAccount.publicKey, false, true⟩, ⟨r.refundee, false, true⟩,
      ⟨r.executor.publicKey, true, false⟩] ++
        dedupedAccounts r.multisigSigner r.instructions)
    .executeTransaction execute

section Messages

variable {rt : Runtime} {reserved : Pubkey → Bool} {multisig : Multisig} {pda m : Pubkey}
  {L : Ledger} {r : Request} {message : Message} {propose execute : TransactionInstruction}
  {approvals : List TransactionInstruction}

/-- What there is room for is serialized without error. -/
theorem Request.Sound.fits (h : r.Sound rt reserved multisig pda L) :
    MultisigInstruction.format.fits (.proposeTransaction ⟨r.stored⟩) = true := by
  obtain ⟨L', hcreate⟩ := h.created
  have hle := (rt.accountCreated _ _ _ _ _ _ hcreate).space_le
  have hfits : Transaction.format.fits
      (ProposeTransaction.newTransaction pda multisig 0 ⟨r.stored⟩) = true := by
    apply Transaction.format_fits_of_len
    rw [newTransaction_len]
    exact Nat.lt_of_le_of_lt hle (by decide)
  exact ((Transaction.format_fits_iff _).mp hfits).1

namespace Submits

variable (h : Submits rt r message propose approvals execute)
include h

theorem mem_cases {ix : TransactionInstruction} (hix : ix ∈ message.instructions) :
    ix = propose ∨ ix ∈ approvals ∨ ix = execute := by
  simpa [h.instructions_eq] using hix

theorem propose_mem : propose ∈ message.instructions := by
  simp [h.instructions_eq]

theorem execute_mem : execute ∈ message.instructions := by
  simp [h.instructions_eq]

theorem encodes_of_mem {ix : TransactionInstruction} (hix : ix ∈ approvals) :
    ∃ signer ∈ r.signers, Encodes rt.programId
      [⟨r.multisigAddress, false, false⟩, ⟨r.txAccount.publicKey, false, true⟩,
        ⟨signer.publicKey, true, false⟩] .approveTransaction ix := by
  obtain ⟨i, hi, rfl⟩ := List.getElem_of_mem hix
  have hlength := h.approvals.length_eq
  exact ⟨r.signers[i], List.getElem_mem _, h.approvals.get (by omega) hi⟩

/-- Only this program is called. -/
theorem programId_eq {ix : TransactionInstruction} (hix : ix ∈ message.instructions) :
    ix.programId = rt.programId := by
  rcases h.mem_cases hix with rfl | happrove | rfl
  · exact h.propose.programId_eq
  · obtain ⟨_, -, hencodes⟩ := h.encodes_of_mem happrove
    exact hencodes.programId_eq
  · exact h.execute.programId_eq

theorem not_demoted {key : Pubkey} (hreserved : reserved key = false)
    (hne : key ≠ rt.programId) : demoted reserved message key = false := by
  simp only [demoted, hreserved, Bool.false_or, List.any_eq_false, beq_iff_eq]
  intro ix hix hkey
  exact hne (hkey.symm.trans (h.programId_eq hix))

theorem transaction_info (hsound : r.Sound rt reserved multisig pda L) :
    infoOf reserved message r.txAccount.publicKey = ⟨r.txAccount.publicKey, true, true⟩ := by
  have hkey := hsound.writable r.txAccount.publicKey (by simp)
  have hacc : (⟨r.txAccount.publicKey, true, true⟩ : AccountMeta) ∈ metasOf message :=
    mem_metasOf h.propose_mem (by simp [h.propose.keys_eq])
  rw [AccountInfo.mk.injEq]
  exact ⟨rfl, infoOf_isSigner hacc rfl,
    infoOf_isWritable hacc rfl (h.not_demoted hkey.1 hkey.2)⟩

/-- Who signs any of the calls has signed the message. -/
theorem signed (hsound : r.Sound rt reserved multisig pda L) : signed message = true := by
  simp only [System.signed, Bool.and_eq_true, List.contains_iff_mem, List.all_eq_true,
    Bool.or_eq_true, Bool.not_eq_true', h.signers_eq, h.feePayer_eq]
  refine ⟨by simp [Request.keys], ?_⟩
  intro acc hacc
  cases hflag : acc.isSigner with
  | false => exact .inl rfl
  | true =>
      right
      obtain ⟨ix, hix, hmem⟩ := List.mem_flatMap.mp hacc
      rcases h.mem_cases hix with rfl | happrove | rfl
      · rw [h.propose.keys_eq] at hmem
        simp only [List.mem_cons, List.not_mem_nil, or_false] at hmem
        rcases hmem with rfl | rfl | rfl | rfl | rfl <;> simp [Request.keys] at hflag ⊢
      · obtain ⟨signer, hsigner, hencodes⟩ := h.encodes_of_mem happrove
        rw [hencodes.keys_eq] at hmem
        simp only [List.mem_cons, List.not_mem_nil, or_false] at hmem
        rcases hmem with rfl | rfl | rfl
        · cases hflag
        · cases hflag
        · simp only [Request.keys, List.map_cons, List.mem_cons]
          exact .inr (.inr (.inr (List.mem_map_of_mem hsigner)))
      · rw [h.execute.keys_eq, List.mem_append, mem_dedupedAccounts] at hmem
        rcases hmem with hmem | ⟨proposed, hproposed, ⟨key, hkey, rfl⟩ | rfl⟩
        · simp only [List.mem_cons, List.not_mem_nil, or_false] at hmem
          rcases hmem with rfl | rfl | rfl | rfl | rfl
          · cases hflag
          · cases hflag
          · cases hflag
          · cases hflag
          · exact hsound.executor_signs
        · unfold withoutSigner at hflag ⊢
          split at hflag
          · cases hflag
          · rename_i hne
            rw [if_neg hne]
            rcases hsound.signs proposed hproposed key hkey hflag with hpda | hmem
            · rw [hsound.signer_eq] at hne
              exact absurd (beq_iff_eq.mpr hpda) hne
            · exact hmem
        · cases hflag

end Submits

end Messages

section Balances

variable {rt : Runtime} {w w' : World} {k : Pubkey}

end Balances

/-- Between two instructions of the message: the owners `done` have approved the proposal
that it made. -/
structure Assembled (rt : Runtime) (r : Request) (multisig : Multisig) (c : Config rt)
    (done : List Pubkey) : Prop where
  stack : c.stack = []
  collected : Collected rt c.world r.multisigAddress r.txAccount.publicKey multisig done
  stores : Stores rt (c.world.ledger r.txAccount.publicKey) r.multisigAddress r.stored
  group : (c.world.registry r.multisigAddress).isMultisig = true
  proposal : (c.world.registry r.txAccount.publicKey).isMultisig = false
  refundable : (c.world.ledger r.refundee).lamports.toNat +
    (c.world.ledger r.txAccount.publicKey).lamports.toNat < 2 ^ 64

section Running

variable {rt : Runtime} {reserved : Pubkey → Bool} {multisig : Multisig} {pda : Pubkey}
  {r : Request} {message : Message} {propose execute : TransactionInstruction}
  {approvals : List TransactionInstruction} {c : Config rt} {L : Ledger}

/-- The call of one instruction of a message. -/
abbrev callOf (reserved : Pubkey → Bool) (message : Message) (ix : TransactionInstruction) :
    Action :=
  .call ix.programId (infosOf reserved message ix) ix.data

theorem plan_callOf {ix : TransactionInstruction} {label : Label rt} {stack : List (Frame rt)}
    (h : Submits rt r message propose approvals execute)
    (hsound : r.Sound rt reserved multisig pda L) (hix : ix ∈ message.instructions)
    (hstack : c.stack = [])
    (henter : enter c.world [] rt.programId (infosOf reserved message ix) ix.data =
      some (label, stack)) :
    plan c (callOf reserved message ix) = some (label, stack) := by
  refine plan_call hstack (mayPass_infosOf (h.signed hsound) ?_ ix) ?_
  · rw [h.signers_eq]
    exact hsound.private_keys
  · rwa [h.programId_eq hix]

/-- One approval succeeds. -/
theorem Assembled.approve {done : List Pubkey} {signer : Keypair} {ix : TransactionInstruction}
    (hassembled : Assembled rt r multisig c done)
    (h : Submits rt r message propose approvals execute)
    (hsound : r.Sound rt reserved multisig pda L) (hheight : 2 ≤ rt.maxStackHeight)
    (hnodup : multisig.owners.Nodup) (hix : ix ∈ message.instructions)
    (hencodes : Encodes rt.programId
      [⟨r.multisigAddress, false, false⟩, ⟨r.txAccount.publicKey, false, true⟩,
        ⟨signer.publicKey, true, false⟩] .approveTransaction ix)
    (hsigner : signer.publicKey ∈ multisig.owners) (actions : List Action) :
    ∃ c', run c (callOf reserved message ix :: actions) = run c' actions ∧
      Assembled rt r multisig c' (signer.publicKey :: done) ∧ c'.committed = c.committed := by
  have hinfos : infosOf reserved message ix = [infoOf reserved message r.multisigAddress,
      ⟨r.txAccount.publicKey, true, true⟩, infoOf reserved message signer.publicKey] := by
    simp [infosOf, hencodes.keys_eq, h.transaction_info hsound]
  have hsigns : (infoOf reserved message signer.publicKey).isSigner = true := by
    have hacc : (⟨signer.publicKey, true, false⟩ : AccountMeta) ∈ metasOf message :=
      mem_metasOf hix (by simp [hencodes.keys_eq])
    exact infoOf_isSigner hacc rfl
  have haccounts : ApprovesWith r.multisigAddress r.txAccount.publicKey signer.publicKey
      (infosOf reserved message ix) := by
    rw [hinfos]
    exact ⟨rfl, rfl, rfl, rfl, hsigns⟩
  obtain ⟨w, hperform, hcollected⟩ := hassembled.collected.approve hnodup hsigner haccounts
  have hplan : plan c (callOf reserved message ix) =
      some (.call .approveTransaction (infosOf reserved message ix), []) :=
    plan_callOf h hsound hix hassembled.stack
      (enter_handler (mayEnter_nil (by omega)) hencodes.decodes (by simp)
        fun hcreates => by cases hcreates)
  obtain ⟨g, hg⟩ := Occupant.isMultisig_iff.mp hassembled.group
  have hrole : (Label.call .approveTransaction (infosOf reserved message ix) :
      Label rt).keepsRoles c.world.registry = true := by
    simp [argsInRole, hinfos, multisigArg, transactionArg, hg,
      Occupant.isProposal, hassembled.proposal]
  refine ⟨⟨w, [], c.committed⟩, run_cons hplan hrole hperform actions, ?_, rfl⟩
  have heffect := perform_effect hperform
  have hne : r.multisigAddress ≠ r.txAccount.publicKey := hcollected.ne
  rw [hinfos] at heffect
  cases heffect with
  | configured hsigned hchange hfits => cases hchange
  | @approved _ _ _ _ stored transaction i hvalid =>
      refine ⟨rfl, hcollected, ?_, ?_, ?_, ?_⟩
      · refine stores_effect hassembled.stores (.approved hvalid) ?_ ?_
        · simpa [takenAsTransaction, labelMultisig, multisigArg] using hne
        · rintro event hevent
          obtain rfl := (List.cons.inj hevent).1
          rfl
      · change (World.registry ⟨_, _ :: c.world.history⟩ r.multisigAddress).isMultisig = true
        rw [World.registry_of_ne _ hne]
        exact hassembled.group
      · change (World.registry ⟨_, _ :: c.world.history⟩ _).isMultisig = false
        rw [World.registry_cons]
        simpa [Event.apply] using hassembled.proposal
      · simp only [writeData_lamports]
        exact hassembled.refundable

/-- All the approvals succeed in turn. -/
theorem Assembled.approveAll {done : List Pubkey} {signers : List Keypair}
    {ixs : List TransactionInstruction} (hassembled : Assembled rt r multisig c done)
    (h : Submits rt r message propose approvals execute)
    (hsound : r.Sound rt reserved multisig pda L) (hheight : 2 ≤ rt.maxStackHeight)
    (hnodup : multisig.owners.Nodup) (hixs : ∀ ix ∈ ixs, ix ∈ message.instructions)
    (happrovals : List.Forall₂ (fun signer ix => Encodes rt.programId
      [⟨r.multisigAddress, false, false⟩, ⟨r.txAccount.publicKey, false, true⟩,
        ⟨signer.publicKey, true, false⟩] .approveTransaction ix) signers ixs)
    (hsigners : ∀ signer ∈ signers, signer.publicKey ∈ multisig.owners)
    (actions : List Action) :
    ∃ c', run c (ixs.map (callOf reserved message) ++ actions) = run c' actions ∧
      Assembled rt r multisig c' ((signers.map Keypair.publicKey).reverse ++ done) ∧
      c'.committed = c.committed := by
  induction happrovals generalizing c done with
  | nil => exact ⟨c, rfl, hassembled, rfl⟩
  | @cons signer ix signers ixs hencodes _ ih =>
      obtain ⟨mid, hrun, hmid, hcommitted⟩ := hassembled.approve h hsound hheight hnodup
        (hixs ix (List.mem_cons_self ..)) hencodes (hsigners signer (List.mem_cons_self ..))
        (ixs.map (callOf reserved message) ++ actions)
      obtain ⟨c', hrun', hassembled', hcommitted'⟩ := ih hmid
        (fun ix hix => hixs ix (List.mem_cons_of_mem _ hix))
        fun signer hsigner => hsigners signer (List.mem_cons_of_mem _ hsigner)
      refine ⟨c', hrun.trans hrun', ?_, hcommitted'.trans hcommitted⟩
      simpa using hassembled'

end Running

/-- The proposal is being executed: `multisig` is what is stored now, and `remaining` is
still to be called. -/
structure Underway (rt : Runtime) (reserved : Pubkey → Bool) (r : Request) (pda : Pubkey)
    (message : Message) (execute : TransactionInstruction) (multisig : Multisig)
    (remaining : List TransactionInstructionData) (c : Config rt) (e : Execution rt) :
    Prop where
  stack : c.stack = [.execution e]
  remaining_eq : e.remaining = remaining
  accounts_eq : e.accounts = infosOf reserved message execute
  multisigAccount : e.validated.multisigAccount.key = r.multisigAddress
  multisigSigner : e.validated.multisigSigner.key = pda
  transactionAccount : e.validated.transactionAccount = ⟨r.txAccount.publicKey, true, true⟩
  refundee : e.validated.refundee.key = r.refundee
  signsFor : e.SignsFor pda
  ne : r.multisigAddress ≠ r.txAccount.publicKey
  multisig_owner : (c.world.ledger r.multisigAddress).owner = rt.programId
  multisig_data : (c.world.ledger r.multisigAddress).data = Multisig.format.encode multisig
  multisig_fits : Multisig.format.fits multisig = true
  owner : (c.world.ledger r.txAccount.publicKey).owner = rt.programId
  group : (c.world.registry r.multisigAddress).isMultisig = true
  proposal : (c.world.registry r.txAccount.publicKey).isMultisig = false
  refundable : (c.world.ledger r.refundee).lamports.toNat +
    (c.world.ledger r.txAccount.publicKey).lamports.toNat < 2 ^ 64

section Executing

variable {rt : Runtime} {reserved : Pubkey → Bool} {multisig multisig' : Multisig} {pda : Pubkey}
  {r : Request} {message : Message} {propose execute : TransactionInstruction}
  {approvals : List TransactionInstruction} {c : Config rt} {L : Ledger}

/-- With the approval of the whole quorum the execution starts. -/
theorem Assembled.start {done : List Pubkey} (hassembled : Assembled rt r multisig c done)
    (h : Submits rt r message propose approvals execute)
    (hsound : r.Sound rt reserved multisig pda L) (hheight : 2 ≤ rt.maxStackHeight)
    (hnodup : multisig.owners.Nodup) (hquorum : done.Perm r.quorum)
    (hpda : rt.createProgramAddress [r.multisigAddress.bytes, [multisig.nonce]]
      rt.programId = some pda) (actions : List Action) :
    ∃ c' e, run c (callOf reserved message execute :: actions) = run c' actions ∧
      Underway rt reserved r pda message execute multisig r.stored c' e ∧
      c'.committed = c.committed := by
  have hinfos : ∃ more, infosOf reserved message execute =
      infoOf reserved message r.multisigAddress :: infoOf reserved message r.multisigSigner ::
        ⟨r.txAccount.publicKey, true, true⟩ :: infoOf reserved message r.refundee ::
          infoOf reserved message r.executor.publicKey :: more := by
    refine ⟨(dedupedAccounts r.multisigSigner r.instructions).map
      fun acc => infoOf reserved message acc.pubkey, ?_⟩
    simp [infosOf, h.execute.keys_eq, h.transaction_info hsound]
  rcases hinfos with ⟨more, hinfos⟩
  have hrefundee : (infoOf reserved message r.refundee).isWritable = true := by
    have hkey := hsound.writable r.refundee (by simp)
    have hacc : (⟨r.refundee, false, true⟩ : AccountMeta) ∈ metasOf message :=
      mem_metasOf h.execute_mem (by simp [h.execute.keys_eq])
    exact infoOf_isWritable hacc rfl (h.not_demoted hkey.1 hkey.2)
  have hexecutor : (infoOf reserved message r.executor.publicKey).isSigner = true := by
    have hacc : (⟨r.executor.publicKey, true, false⟩ : AccountMeta) ∈ metasOf message :=
      mem_metasOf h.execute_mem (by simp [h.execute.keys_eq])
    exact infoOf_isSigner hacc rfl
  have haccounts : ExecutesWith r.multisigAddress r.txAccount.publicKey pda
      r.executor.publicKey (infosOf reserved message execute) := by
    rw [hinfos]
    exact ⟨rfl, hsound.signer_eq, rfl, rfl, hsound.refundee_ne, hrefundee, rfl, hexecutor⟩
  obtain ⟨validated, hvalidate⟩ := hassembled.collected.accepted hnodup
    (hquorum.nodup_iff.mpr hsound.nodup) (fun a ha => hsound.owners a (hquorum.mem_iff.mp ha))
    (hquorum.length_eq.trans hsound.length_eq) hpda hsound.executor_mem haccounts
  have hempty : mayEnter ([] : List (Frame rt)) rt.programId = true :=
    mayEnter_nil (by omega)
  obtain ⟨e, hpassed, rfl, hremaining, henter⟩ :=
    enter_execution hempty h.execute.decodes hvalidate
  have hplan := plan_callOf h hsound h.execute_mem hassembled.stack henter
  obtain ⟨g, hg⟩ := Occupant.isMultisig_iff.mp hassembled.group
  have hrole : (Label.start (infosOf reserved message execute) : Label rt).keepsRoles
      c.world.registry = true := by
    simp [argsInRole, hinfos, multisigArg, transactionArg, hg,
      Occupant.isProposal, hassembled.proposal]
  have hperform : perform rt c.world (.start (infosOf reserved message execute)) =
      some c.world := by
    simp [System.perform, hvalidate]
  obtain ⟨_, _, hkeys, hvalid, -⟩ := ExecuteTransaction.validate_eq_ok_iff.mp hvalidate
  rw [hinfos] at hkeys
  simp only [List.cons.injEq] at hkeys
  rcases hkeys with ⟨hm, hs, ht, hr, -⟩
  obtain ⟨transaction, hdata, hfits, -, hstored⟩ := hassembled.stores.2.2
  have htransaction : e.validated.transaction = transaction := by
    refine Transaction.format.encode_injective hvalid.fits hfits ?_
    rw [← hvalid.data, ← hdata, ← ht]
  refine ⟨⟨c.world, [.execution e], c.committed⟩, e, run_cons hplan hrole hperform actions,
    ⟨rfl, ?_, hpassed, ?_, ?_, ht.symm, ?_, ?_, hassembled.collected.ne,
      hassembled.collected.multisig_owner, hassembled.collected.multisig_data,
      hassembled.collected.multisig_fits, hassembled.collected.owner, hassembled.group,
      hassembled.proposal, hassembled.refundable⟩, rfl⟩
  · rw [hremaining, htransaction, hstored]
  · rw [← hm, infoOf_key]
  · rw [← hs, infoOf_key, hsound.signer_eq]
  · rw [← hr, infoOf_key]
  · rw [Execution.SignsFor, ExecuteTransaction.signerSeeds, hvalid.pda, ← hs, infoOf_key,
      hsound.signer_eq]

/-- The client passes what the proposed calls need: each of them may be made. -/
theorem Underway.privileged {remaining : List TransactionInstructionData} {e : Execution rt}
    (hunderway : Underway rt reserved r pda message execute multisig remaining c e)
    (h : Submits rt r message propose approvals execute)
    (hsound : r.Sound rt reserved multisig' pda L) {ix : TransactionInstruction}
    (hix : ix ∈ r.instructions) {invocation : Invocation}
    (hinvocation : ExecuteTransaction.toInvocation e.validated e.accounts (toStored ix) =
      invocation) :
    (calleeInfos invocation.instruction.accounts).all
      (mayPass (some (.execution e)) invocation.signersSeeds) = true := by
  have hkeys := h.execute.keys_eq
  rw [hsound.signer_eq] at hkeys
  refine calls_privileged h.execute_mem hkeys hunderway.accounts_eq hunderway.multisigSigner
    hunderway.signsFor ?_ hix hinvocation
  intro ix hix acc hacc hflag
  have hfree := hsound.writes ix hix acc hacc hflag
  exact h.not_demoted hfree.1 hfree.2

end Executing

end MultisigNative.Properties
