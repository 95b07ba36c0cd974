import MultisigNative.Instructions.Capacity
import MultisigNative.State.Transaction

/-!
The two kinds of state that accounts hold.  Their sizes are computed by hand, their bytes by
derived encoders, and the decoders refuse every byte too many or too few.
-/

namespace MultisigNative.Properties

open Library.Borsh
open Solana
open Errors
open State
open Instructions

/-- Borsh can count every vector of a multisig. -/
def ShortMultisig (multisig : Multisig) : Prop :=
  multisig.owners.length < 2 ^ 32 ∧ multisig.padding.length < 2 ^ 32

/-- The same of a transaction, at each level of its lists. -/
def ShortTransaction (transaction : Transaction) : Prop :=
  transaction.instructions.length < 2 ^ 32 ∧
    (∀ ix ∈ transaction.instructions,
      ix.accounts.length < 2 ^ 32 ∧ ix.data.length < 2 ^ 32) ∧
    transaction.signers.length < 2 ^ 32

/-- The encoding of a kind of state is as long as `len` says, decodes to what was encoded,
and nothing else decodes.  So an account that is decoded and serialized again stays as it
is, and a new account of `len` bytes is filled exactly. -/
structure Canonical {α : Type} (f : Format α) (short : α → Prop) (len : α → Nat)
    (checkedDeserialize : Bytes → Except ProgramError α) : Prop where
  length_eq : ∀ a, (f.encode a).length = len a
  decode_encode : ∀ a, short a → checkedDeserialize (f.encode a) = .ok a
  eq_encode : ∀ bytes a, checkedDeserialize bytes = .ok a →
    short a ∧ bytes = f.encode a
  rewritten : ∀ info L a, checkedDeserialize (L info.key).data = .ok a →
    serializeInto f a info L = .ok () L
  filled : ∀ info L a, short a → (L info.key).data.length = len a →
    serializeInto f a info L = .ok () (writeData L info.key (f.encode a))
  created : ∀ rt payer account L L' a,
    createAndSerialize rt f a (len a) payer account rt.programId L = .ok () L' →
      (L' account.key).data = f.encode a ∧
        checkedDeserialize (L' account.key).data = .ok a

/-- Every exact format is canonical, decoded with whatever error. -/
theorem canonical_of_format {α : Type} {f : Format α} {short : α → Prop} {len : α → Nat}
    (hfits : ∀ a, f.fits a = true ↔ short a) (hlen : ∀ a, (f.encode a).length = len a)
    (error : ProgramError) :
    Canonical f short len fun bytes => assertSuccess (f.tryFromSlice bytes) error := by
  have hdecode : ∀ bytes a, assertSuccess (f.tryFromSlice bytes) error = .ok a ↔
      short a ∧ bytes = f.encode a := by
    intro bytes a
    rw [assertSuccess_eq_ok_iff, f.tryFromSlice_eq_some_iff, hfits]
  refine ⟨hlen, ?_, fun bytes a => (hdecode bytes a).mp, ?_, ?_, ?_⟩
  · intro a hshort
    exact (hdecode _ a).mpr ⟨hshort, rfl⟩
  · intro info L a h
    obtain ⟨hshort, hdata⟩ := (hdecode _ a).mp h
    rw [serializeInto_eq_ok_of_length ((hfits a).mpr hshort) (by rw [hdata]), ← hdata,
      Function.update_eq_self]
  · intro info L a hshort hroom
    exact serializeInto_eq_ok_of_length ((hfits a).mpr hshort) (by rw [hlen, hroom])
  · intro rt payer account L L' a h
    obtain ⟨hencodes, hinit⟩ := initialised_of_createAndSerialize (hlen a) h
    have hdata := congrArg Account.data hinit.account_eq
    exact ⟨hdata, (hdecode _ a).mpr ⟨(hfits a).mp hencodes, hdata⟩⟩

theorem transaction_fits_iff (transaction : Transaction) :
    Transaction.format.fits transaction = true ↔ ShortTransaction transaction := by
  rw [Transaction.format_fits_iff, vec_fits_iff, ShortTransaction]
  simp only [TransactionInstructionData.format_fits_iff, and_assoc]

/-- Multisigs and transactions are encoded exactly and canonically, whatever their lists
hold as long as Borsh can count them. -/
theorem state_encoding_canonical :
    Canonical Multisig.format ShortMultisig Multisig.len Multisig.checkedDeserialize ∧
    Canonical Transaction.format ShortTransaction Transaction.len
      Transaction.checkedDeserialize :=
  ⟨canonical_of_format Multisig.format_fits_iff Multisig.format_encode_length _,
    canonical_of_format transaction_fits_iff Transaction.format_encode_length _⟩

end MultisigNative.Properties
