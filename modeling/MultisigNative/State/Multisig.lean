import MultisigNative.Errors

namespace MultisigNative.State

open Library.Borsh
open Solana
open Errors

def PUBKEY_BYTES : Nat := 32

/-- `padding` keeps the size of the account constant when the owner list
shrinks, so that the list can grow again later. -/
structure Multisig where
  owners : List Pubkey
  threshold : UInt8
  nonce : UInt8
  ownerSetSeqno : UInt32
  padding : Bytes
deriving DecidableEq

namespace Multisig

/-- The derived Borsh format: the fields in the order of their declaration. -/
def format : Format Multisig :=
  ((vec Pubkey.format).prod (u8.prod (u8.prod (u32.prod (vec u8))))).equiv
    { toFun := fun m => (m.owners, m.threshold, m.nonce, m.ownerSetSeqno, m.padding)
      invFun := fun p => ⟨p.1, p.2.1, p.2.2.1, p.2.2.2.1, p.2.2.2.2⟩
      left_inv := fun _ => rfl
      right_inv := fun _ => rfl }

def checkedDeserialize (data : Bytes) : Except ProgramError Multisig :=
  assertSuccess (format.tryFromSlice data) MultisigError.malformedMultisigAccount

/-- The sizes are those of values in memory, which no `usize` sum can exceed;
hence the natural numbers. -/
def len (m : Multisig) : Nat :=
  4 + PUBKEY_BYTES * m.owners.length +
    1 +
    1 +
    4 +
    4 + m.padding.length

theorem format_fits_iff (m : Multisig) :
    format.fits m = true ↔
      m.owners.length < 2 ^ 32 ∧ m.padding.length < 2 ^ 32 := by
  change ((vec Pubkey.format).fits m.owners &&
    (true && (true && (true && (vec u8).fits m.padding)))) = true ↔ _
  simp [vec_fits_iff]

theorem format_encode (m : Multisig) :
    format.encode m =
      (vec Pubkey.format).encode m.owners ++ ([m.threshold] ++ ([m.nonce] ++
        (leBytes m.ownerSetSeqno ++ (vec u8).encode m.padding))) := rfl

theorem owners_encode_length (owners : List Pubkey) :
    ((vec Pubkey.format).encode owners).length =
      4 + PUBKEY_BYTES * owners.length :=
  vec_encode_length_of_width _ owners fun key _ => key.length_eq

/-- The hand-written `len` is the size of the encoding. -/
@[simp] theorem format_encode_length (m : Multisig) :
    (format.encode m).length = m.len := by
  simp only [format_encode, List.length_append, owners_encode_length,
    leBytes_length, vec_u8_encode, u32_encode_length, List.length_cons,
    List.length_nil, len]
  omega

theorem checkedDeserialize_eq_ok_iff {data : Bytes} {m : Multisig} :
    checkedDeserialize data = .ok m ↔
      format.fits m = true ∧ data = format.encode m := by
  rw [checkedDeserialize, assertSuccess_eq_ok_iff, format.tryFromSlice_eq_some_iff]

theorem checkedDeserialize_bind_eq_ok_iff {β : Type} {data : Bytes}
    {f : Multisig → Handler β} {b : β} {L L' : Ledger} :
    ((liftM (checkedDeserialize data) : Handler Multisig) >>= f) L = .ok b L' ↔
      ∃ m, (format.fits m = true ∧ data = format.encode m) ∧ f m L = .ok b L' := by
  simp only [liftM_bind_eq_ok_iff, checkedDeserialize_eq_ok_iff]

theorem checkedDeserialize_encode {m : Multisig} (h : format.fits m = true) :
    checkedDeserialize (format.encode m) = .ok m :=
  checkedDeserialize_eq_ok_iff.mpr ⟨h, rfl⟩

theorem owners_fits {m : Multisig} (h : format.fits m = true) :
    (vec Pubkey.format).fits m.owners = true := by
  refine (vec_fits_iff _ _).mpr ⟨((format_fits_iff m).mp h).1, ?_⟩
  simp

theorem padding_fits {m : Multisig} (h : format.fits m = true) :
    (vec u8).fits m.padding = true := by
  refine (vec_fits_iff _ _).mpr ⟨((format_fits_iff m).mp h).2, ?_⟩
  simp

/-- Zero bytes decode to no owners and no padding. -/
theorem owners_eq_nil_of_zeros {m : Multisig} (hfits : format.fits m = true)
    (hzeros : ∀ b ∈ format.encode m, b = 0) : m.owners = [] ∧ m.padding = [] := by
  rw [format_encode] at hzeros
  constructor
  · apply vec_eq_nil_of_zeros Pubkey.format (owners_fits hfits)
    intro b hb
    exact hzeros b (by simp [hb])
  · apply vec_eq_nil_of_zeros u8 (padding_fits hfits)
    intro b hb
    exact hzeros b (by simp only [List.mem_append, hb, or_true])

end Multisig

end MultisigNative.State
