import MultisigNative.Client.Dsl
import MultisigNative.System.Machine

/-!
How the cluster runs a signed transaction of the client: every instruction is called
with the flags that its accounts have in the whole message.
-/

namespace MultisigNative.System

open Client
open Solana
open State
open Instructions

section Message

variable (reserved : Pubkey → Bool) (message : Message)

def metasOf : List AccountMeta := message.instructions.flatMap TransactionInstruction.keys

/-- Keys that nothing can write: the reserved ones, and the programs that are called. -/
def demoted (key : Pubkey) : Bool :=
  reserved key || message.instructions.any fun ix => ix.programId == key

/-- The metas of one key are merged; the fee payer signs and is writable. -/
def infoOf (key : Pubkey) : AccountInfo where
  key := key
  isSigner := key == message.feePayer ||
    (metasOf message).any fun acc => acc.pubkey == key && acc.isSigner
  isWritable :=
    (key == message.feePayer ||
      (metasOf message).any fun acc => acc.pubkey == key && acc.isWritable) &&
    !demoted reserved message key

def infosOf (ix : TransactionInstruction) : List AccountInfo :=
  ix.keys.map fun acc => infoOf reserved message acc.pubkey

/-- Everybody who has to sign has signed. -/
def signed : Bool :=
  message.signers.contains message.feePayer &&
    (metasOf message).all fun acc => !acc.isSigner || message.signers.contains acc.pubkey

end Message

section Rules

variable {rt : Runtime} {reserved : Pubkey → Bool} {message : Message}
  {ix : TransactionInstruction} {acc : AccountMeta} {key : Pubkey}

@[simp] theorem infoOf_key : (infoOf reserved message key).key = key := rfl

theorem mem_metasOf (hix : ix ∈ message.instructions) (hacc : acc ∈ ix.keys) :
    acc ∈ metasOf message :=
  List.mem_flatMap.mpr ⟨ix, hix, hacc⟩

/-- One meta that signs makes the key sign everywhere in the message. -/
theorem infoOf_isSigner (hacc : acc ∈ metasOf message) (hsigner : acc.isSigner = true) :
    (infoOf reserved message acc.pubkey).isSigner = true := by
  simp only [infoOf, Bool.or_eq_true, List.any_eq_true, Bool.and_eq_true, beq_iff_eq]
  exact .inr ⟨acc, hacc, rfl, hsigner⟩

theorem infoOf_isWritable (hacc : acc ∈ metasOf message) (hwritable : acc.isWritable = true)
    (hkept : demoted reserved message acc.pubkey = false) :
    (infoOf reserved message acc.pubkey).isWritable = true := by
  simp only [infoOf, hkept, Bool.not_false, Bool.and_true, Bool.or_eq_true, List.any_eq_true,
    Bool.and_eq_true, beq_iff_eq]
  exact .inr ⟨acc, hacc, rfl, hwritable⟩

theorem isSignerIn_infosOf (hix : ix ∈ message.instructions) (hacc : acc ∈ ix.keys)
    (hsigner : acc.isSigner = true) :
    isSignerIn (infosOf reserved message ix) acc.pubkey = true := by
  simp only [isSignerIn, infosOf, List.any_map, List.any_eq_true, Function.comp_apply,
    Bool.and_eq_true, beq_iff_eq]
  exact ⟨acc, hacc, rfl, infoOf_isSigner (mem_metasOf hix hacc) hsigner⟩

theorem isWritableIn_infosOf (hix : ix ∈ message.instructions) (hacc : acc ∈ ix.keys)
    (hwritable : acc.isWritable = true) (hkept : demoted reserved message acc.pubkey = false) :
    isWritableIn (infosOf reserved message ix) acc.pubkey = true := by
  simp only [isWritableIn, infosOf, List.any_map, List.any_eq_true, Function.comp_apply,
    Bool.and_eq_true, beq_iff_eq]
  exact ⟨acc, hacc, rfl, infoOf_isWritable (mem_metasOf hix hacc) hwritable hkept⟩

/-- A signed message may pass all its accounts: who signs has a private key. -/
theorem mayPass_infosOf (hsigned : signed message = true)
    (hkeys : ∀ key ∈ message.signers, rt.pdaProgram key = none)
    (ix : TransactionInstruction) :
    (infosOf reserved message ix).all (@mayPass rt none []) = true := by
  simp only [signed, Bool.and_eq_true, List.contains_iff_mem, List.all_eq_true,
    Bool.or_eq_true, Bool.not_eq_true'] at hsigned
  rcases hsigned with ⟨hpayer, hmetas⟩
  simp only [infosOf, List.all_map, List.all_eq_true, Function.comp_apply]
  intro acc _
  simp only [mayPass, infoOf_key, Bool.or_eq_true, Bool.not_eq_true', beq_iff_eq]
  cases hsigner : (infoOf reserved message acc.pubkey).isSigner with
  | false => exact .inl rfl
  | true =>
      right
      simp only [infoOf, Bool.or_eq_true, beq_iff_eq, List.any_eq_true, Bool.and_eq_true]
        at hsigner
      rcases hsigner with hkey | ⟨other, hother, hkey, hflag⟩
      · rw [hkey]
        exact hkeys _ hpayer
      · rcases hmetas other hother with hfalse | hmem
        · rw [hflag] at hfalse
          cases hfalse
        · rw [← hkey]
          exact hkeys _ hmem

end Rules

section Invocations

variable {rt : Runtime} {frame : Frame rt} {seeds : List (List Library.Borsh.Bytes)}
  {metas : List AccountMeta}

/-- A call may be made if the caller has every account, with each flag that a meta asks
for. -/
theorem mayPass_calleeInfos
    (hpresent : ∀ acc ∈ metas, ∃ passed ∈ frame.accounts, passed.key = acc.pubkey)
    (hwritable : ∀ acc ∈ metas, acc.isWritable = true →
      isWritableIn frame.accounts acc.pubkey = true)
    (hsigner : ∀ acc ∈ metas, acc.isSigner = true →
      isSignerIn frame.accounts acc.pubkey = true ∨ frame.signsFor seeds acc.pubkey = true) :
    (calleeInfos metas).all (mayPass (some frame) seeds) = true := by
  simp only [calleeInfos, List.all_map, List.all_eq_true, Function.comp_apply]
  intro acc hacc
  simp only [mayPass, Bool.and_eq_true, Bool.or_eq_true, Bool.not_eq_true', List.any_eq_true,
    beq_iff_eq]
  refine ⟨⟨hpresent acc hacc, ?_⟩, ?_⟩
  · cases hflag : metas.any fun other => other.pubkey == acc.pubkey && other.isWritable with
    | false => exact .inl rfl
    | true =>
        obtain ⟨other, hother, hkey⟩ := List.any_eq_true.mp hflag
        simp only [Bool.and_eq_true, beq_iff_eq] at hkey
        rw [← hkey.1]
        exact .inr (hwritable other hother hkey.2)
  · cases hflag : metas.any fun other => other.pubkey == acc.pubkey && other.isSigner with
    | false => exact .inl (.inl rfl)
    | true =>
        obtain ⟨other, hother, hkey⟩ := List.any_eq_true.mp hflag
        simp only [Bool.and_eq_true, beq_iff_eq] at hkey
        rw [← hkey.1]
        rcases hsigner other hother hkey.2 with hholds | hsigns
        · exact .inl (.inr hholds)
        · exact .inr hsigns

end Invocations

end MultisigNative.System
