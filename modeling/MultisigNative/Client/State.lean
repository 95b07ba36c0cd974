import MultisigNative.Library.Schema
import MultisigNative.State.Multisig
import MultisigNative.State.Transaction

/-!
The TypeScript client's view of the accounts: hand-written schemas that have to
agree with the layouts that the program derives.
-/

namespace MultisigNative.Client

open Library.Borsh
open Solana
open State

/-- The package `borsh` of the client.  It follows the Borsh specification on the
values and the bytes that this gives a meaning. -/
structure BorshJs where
  serialize : Schema → Value → Option Bytes
  deserialize : Schema → Bytes → Option Value
  serialize_of_fits : ∀ schema value, schema.format.fits value = true →
    serialize schema value = some (schema.format.encode value)
  deserialize_of_decodes : ∀ schema bytes value,
    schema.format.tryFromSlice bytes = some value → deserialize schema bytes = some value

/-- A `Buffer`, which the package takes as an array of numbers. -/
def bufferValue (bytes : Bytes) : Value := .array (bytes.map byteValue)

/-- `PublicKey.toBuffer`. -/
def toBuffer (key : Pubkey) : Value := bufferValue key.bytes

def multisigSchema : Schema := .struct [
  ("owners", .array (.fixedArray .u8 32)),
  ("threshold", .u8),
  ("nonce", .u8),
  ("owner_set_seqno", .u32),
  ("padding", .array .u8)]

def transactionSchema : Schema := .struct [
  ("multisig", .fixedArray .u8 32),
  ("instructions", .array (.struct [
    ("program_id", .fixedArray .u8 32),
    ("accounts", .array (.struct [
      ("pubkey", .fixedArray .u8 32),
      ("is_signer", .bool),
      ("is_writable", .bool)])),
    ("data", .array .u8)])),
  ("signers", .array .bool),
  ("owner_set_seqno", .u32)]

section Deserialize

variable (js : BorshJs)

/-- `Multisig.deserialize`. -/
def deserializeMultisig (data : Bytes) : Option Value :=
  js.deserialize multisigSchema data

/-- `Transaction.deserialize`. -/
def deserializeTransaction (data : Bytes) : Option Value :=
  js.deserialize transactionSchema data

end Deserialize

/-- The object with the fields of a multisig. -/
def multisigValue (m : Multisig) : Value := .object [
  ("owners", .array (m.owners.map toBuffer)),
  ("threshold", .number m.threshold.toNat),
  ("nonce", .number m.nonce.toNat),
  ("owner_set_seqno", .number m.ownerSetSeqno.toNat),
  ("padding", bufferValue m.padding)]

def accountValue (account : TransactionInstructionAccount) : Value := .object [
  ("pubkey", toBuffer account.pubkey),
  ("is_signer", .boolean account.isSigner),
  ("is_writable", .boolean account.isWritable)]

def instructionValue (ix : TransactionInstructionData) : Value := .object [
  ("program_id", toBuffer ix.programId),
  ("accounts", .array (ix.accounts.map accountValue)),
  ("data", bufferValue ix.data)]

/-- The object with the fields of a transaction. -/
def transactionValue (t : Transaction) : Value := .object [
  ("multisig", toBuffer t.multisig),
  ("instructions", .array (t.instructions.map instructionValue)),
  ("signers", .array (t.signers.map .boolean)),
  ("owner_set_seqno", .number t.ownerSetSeqno.toNat)]

theorem describes_key : Describes (.fixedArray .u8 32) Pubkey.format toBuffer :=
  (describes_bytes 32).equiv _

theorem describes_keys :
    Describes (.array (.fixedArray .u8 32)) (vec Pubkey.format)
      fun keys => .array (keys.map toBuffer) :=
  describes_key.array

theorem describes_buffer : Describes (.array .u8) (vec u8) bufferValue :=
  describes_u8.array

theorem describes_account :
    Describes (.struct [
      ("pubkey", .fixedArray .u8 32), ("is_signer", .bool), ("is_writable", .bool)])
      TransactionInstructionAccount.format accountValue :=
  ((describes_key.cons "pubkey" (describes_bool.cons "is_signer"
    (describes_bool.last "is_writable"))).equiv _).struct

theorem describes_instruction :
    Describes (.struct [
      ("program_id", .fixedArray .u8 32),
      ("accounts", .array (.struct [
        ("pubkey", .fixedArray .u8 32), ("is_signer", .bool), ("is_writable", .bool)])),
      ("data", .array .u8)])
      TransactionInstructionData.format instructionValue :=
  ((describes_key.cons "program_id" (describes_account.array.cons "accounts"
    (describes_buffer.last "data"))).equiv _).struct

/-- The schema of a multisig has the layout that the program derives. -/
theorem describes_multisig : Describes multisigSchema Multisig.format multisigValue :=
  ((describes_keys.cons "owners" (describes_u8.cons "threshold" (describes_u8.cons "nonce"
    (describes_u32.cons "owner_set_seqno" (describes_buffer.last "padding"))))).equiv _).struct

theorem describes_transaction :
    Describes transactionSchema Transaction.format transactionValue :=
  ((describes_key.cons "multisig" (describes_instruction.array.cons "instructions"
    (describes_bool.array.cons "signers" (describes_u32.last "owner_set_seqno")))).equiv
      _).struct

end MultisigNative.Client
