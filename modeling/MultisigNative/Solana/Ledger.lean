import Mathlib.Logic.Function.Basic
import MultisigNative.Library.Borsh
import MultisigNative.Library.StateError

/-!
Keys, accounts and the primitives through which a program reads and writes the
accounts passed to it.
-/

namespace MultisigNative.Solana

open Library.Borsh
open Library.StateError

structure Pubkey where
  bytes : Bytes
  length_eq : bytes.length = 32
deriving DecidableEq

namespace Pubkey

@[ext] theorem ext {a b : Pubkey} (h : a.bytes = b.bytes) : a = b := by
  cases a
  cases b
  cases h
  rfl

def format : Format Pubkey :=
  (array 32).equiv
    { toFun := fun key => ⟨key.bytes, key.length_eq⟩
      invFun := fun bytes => ⟨bytes.val, bytes.property⟩
      left_inv := fun _ => rfl
      right_inv := fun _ => rfl }

@[simp] theorem format_fits (key : Pubkey) : format.fits key = true := rfl

@[simp] theorem format_encode (key : Pubkey) : format.encode key = key.bytes := rfl

end Pubkey

/-- The system program's address: 32 zero bytes. -/
def systemProgram : Pubkey := ⟨List.replicate 32 0, rfl⟩

structure Account where
  lamports : UInt64
  owner : Pubkey
  data : Bytes
deriving DecidableEq

/-- What the runtime holds at an address that nobody uses. -/
def Account.unused : Account := ⟨0, systemProgram, []⟩

abbrev Ledger := Pubkey → Account

/-- An account as an instruction passes it.  Two infos with one key share the
account behind it, as they share one `Rc<RefCell<_>>` in the program. -/
structure AccountInfo where
  key : Pubkey
  isSigner : Bool
  isWritable : Bool
deriving DecidableEq

/-- `other` stands for the builtin errors that only invoked programs return. -/
inductive ProgramError
  | custom (code : UInt32)
  | invalidInstructionData
  | incorrectProgramId
  | notEnoughAccountKeys
  | invalidSeeds
  | borshIoError (message : String)
  | other (code : UInt64)
deriving DecidableEq

/-- How a handler ends when it does not return `Ok`. -/
inductive Fault
  | error (e : ProgramError)
  | panicked
deriving DecidableEq

/-- A handler works on the ledger in place; what it wrote before it failed
stays written until the runtime rolls the transaction back. -/
abbrev Handler := EStateM Fault Ledger

instance : MonadLift (Except ProgramError) Handler := ⟨ofExcept Fault.error⟩

@[simp] theorem liftM_eq_ok_iff {α : Type} {x : Except ProgramError α} {a : α}
    {L L' : Ledger} :
    (liftM x : Handler α) L = .ok a L' ↔ x = .ok a ∧ L = L' :=
  ofExcept_eq_ok_iff

theorem liftM_bind_eq_ok_iff {α β : Type} {x : Except ProgramError α}
    {f : α → Handler β} {b : β} {L L' : Ledger} :
    ((liftM x : Handler α) >>= f) L = .ok b L' ↔ ∃ a, x = .ok a ∧ f a L = .ok b L' := by
  rw [bind_eq_ok_iff]
  constructor
  · rintro ⟨a, _, h, hf⟩
    obtain ⟨hx, rfl⟩ := liftM_eq_ok_iff.mp h
    exact ⟨a, hx, hf⟩
  · rintro ⟨a, hx, hf⟩
    exact ⟨a, L, liftM_eq_ok_iff.mpr ⟨hx, rfl⟩, hf⟩

theorem liftM_unit_bind_eq_ok_iff {β : Type} {x : Except ProgramError Unit}
    {f : Unit → Handler β} {b : β} {L L' : Ledger} :
    ((liftM x : Handler Unit) >>= f) L = .ok b L' ↔ x = .ok () ∧ f () L = .ok b L' := by
  rw [liftM_bind_eq_ok_iff]
  exact ⟨fun ⟨_, h⟩ => h, fun h => ⟨(), h⟩⟩

section Outcomes

variable {α β : Type} {x : Except ProgramError α} {f : α → Handler β} {L : Ledger}

theorem liftM_bind_of_ok {a : α} (h : x = .ok a) :
    ((liftM x : Handler α) >>= f) L = f a L := by
  rw [h]
  rfl

theorem liftM_bind_of_error {e : ProgramError} (h : x = .error e) :
    ((liftM x : Handler α) >>= f) L = .error (.error e) L := by
  rw [h]
  rfl

theorem readsOnly_liftM (x : Except ProgramError α) (L : Ledger) :
    ReadsOnly (liftM x : Handler α) L :=
  readsOnly_ofExcept Fault.error x L

/-- A check that fails has written nothing. -/
theorem atomic_liftM_bind (hf : ∀ a, x = .ok a → Atomic (f a) L) :
    Atomic ((liftM x : Handler α) >>= f) L :=
  Atomic.bind (readsOnly_liftM x L) fun a hrun => hf a (liftM_eq_ok_iff.mp hrun).1

/-- A check that fails returns an error; it does not panic. -/
theorem liftM_ne_panicked (x : Except ProgramError α) (L L' : Ledger) :
    (liftM x : Handler α) L ≠ .error .panicked L' := by
  intro h
  cases x <;> cases h

theorem liftM_bind_eq_panicked_iff {L' : Ledger} :
    ((liftM x : Handler α) >>= f) L = .error .panicked L' ↔
      ∃ a, x = .ok a ∧ f a L = .error .panicked L' := by
  rw [bind_eq_error_iff]
  constructor
  · rintro (h | ⟨a, _, h, hf⟩)
    · exact absurd h (liftM_ne_panicked x L L')
    · obtain ⟨hx, rfl⟩ := liftM_eq_ok_iff.mp h
      exact ⟨a, hx, hf⟩
  · rintro ⟨a, hx, hf⟩
    exact .inr ⟨a, L, liftM_eq_ok_iff.mpr ⟨hx, rfl⟩, hf⟩

end Outcomes

namespace AccountInfo

def account (info : AccountInfo) : Handler Account := do
  return (← get) info.key

def owner (info : AccountInfo) : Handler Pubkey := do
  return ((← get) info.key).owner

def data (info : AccountInfo) : Handler Bytes := do
  return ((← get) info.key).data

def lamports (info : AccountInfo) : Handler UInt64 := do
  return ((← get) info.key).lamports

def update (info : AccountInfo) (f : Account → Account) : Handler Unit :=
  modify fun ledger => Function.update ledger info.key (f (ledger info.key))

def setLamports (info : AccountInfo) (lamports : UInt64) : Handler Unit :=
  info.update fun account => { account with lamports := lamports }

def setData (info : AccountInfo) (data : Bytes) : Handler Unit :=
  info.update fun account => { account with data := data }

def assign (info : AccountInfo) (owner : Pubkey) : Handler Unit :=
  info.update fun account => { account with owner := owner }

/-- The program only ever resizes to zero, so the growth limit is left out. -/
def resize (info : AccountInfo) (newLen : Nat) : Handler Unit :=
  info.update fun account =>
    { account with
      data := account.data.take newLen ++
        List.replicate (newLen - account.data.length) 0 }

section Rules

variable {info : AccountInfo} {L L' : Ledger} {β : Type} {b : β}

theorem owner_bind {f : Pubkey → Handler β} :
    (info.owner >>= f) L = f (L info.key).owner L := rfl

theorem data_bind {f : Bytes → Handler β} :
    (info.data >>= f) L = f (L info.key).data L := rfl

theorem lamports_bind {f : UInt64 → Handler β} :
    (info.lamports >>= f) L = f (L info.key).lamports L := rfl

theorem readsOnly_owner (info : AccountInfo) (L : Ledger) : ReadsOnly info.owner L :=
  readsOnly_get fun ledger : Ledger => (ledger info.key).owner

theorem readsOnly_data (info : AccountInfo) (L : Ledger) : ReadsOnly info.data L :=
  readsOnly_get fun ledger : Ledger => (ledger info.key).data

theorem update_bind {f : Account → Account} {g : Unit → Handler β} :
    (info.update f >>= g) L =
      g () (Function.update L info.key (f (L info.key))) := rfl

@[simp] theorem update_eq_ok_iff {f : Account → Account} {u : Unit} :
    info.update f L = .ok u L' ↔
      Function.update L info.key (f (L info.key)) = L' := by
  simp [update]

end Rules

end AccountInfo

/-- `next_account_info` on the iterator over the accounts of an instruction. -/
def nextAccountInfo : List AccountInfo →
    Except ProgramError (AccountInfo × List AccountInfo)
  | [] => throw .notEnoughAccountKeys
  | info :: rest => pure (info, rest)

theorem nextAccountInfo_bind_eq_ok_iff {β : Type} {infos : List AccountInfo}
    {f : AccountInfo × List AccountInfo → Handler β} {b : β} {L L' : Ledger} :
    ((liftM (nextAccountInfo infos) : Handler _) >>= f) L = .ok b L' ↔
      ∃ info rest, infos = info :: rest ∧ f (info, rest) L = .ok b L' := by
  rw [liftM_bind_eq_ok_iff]
  cases infos with
  | nil => simp [nextAccountInfo]
  | cons info rest => simp [nextAccountInfo, and_assoc]

theorem nextAccountInfo_bind_eq_panicked_iff {β : Type} {infos : List AccountInfo}
    {f : AccountInfo × List AccountInfo → Handler β} {L L' : Ledger} :
    ((liftM (nextAccountInfo infos) : Handler _) >>= f) L = .error .panicked L' ↔
      ∃ info rest, infos = info :: rest ∧ f (info, rest) L = .error .panicked L' := by
  rw [liftM_bind_eq_panicked_iff]
  cases infos with
  | nil => simp [nextAccountInfo]
  | cons info rest => simp [nextAccountInfo, and_assoc]

/-- `value.serialize(&mut &mut account.data.borrow_mut()[..])`: the encoding
is written over the front of the data.  An encoding that does not fit is
written as far as there is room, then the writer fails. -/
def serializeInto {α : Type} (f : Format α) (value : α) (info : AccountInfo) :
    Handler Unit := do
  let data ← info.data
  if f.fits value then
    let bytes := f.encode value
    info.setData (bytes.take data.length ++ data.drop bytes.length)
    if data.length < bytes.length then
      throw (.error (.borshIoError "failed to write whole buffer"))
  else
    throw (.error (.borshIoError "a vector has more elements than a u32 counts"))

theorem serializeInto_eq_ok_iff {α : Type} {f : Format α} {value : α}
    {info : AccountInfo} {L L' : Ledger} {u : Unit} :
    serializeInto f value info L = .ok u L' ↔
      f.fits value = true ∧ (f.encode value).length ≤ (L info.key).data.length ∧
        L' = Function.update L info.key { L info.key with
          data := f.encode value ++
            (L info.key).data.drop (f.encode value).length } := by
  rw [serializeInto, AccountInfo.data_bind]
  split
  · rename_i hfits
    simp only [AccountInfo.setData, AccountInfo.update_bind]
    split
    · rename_i hlen
      simp only [throw_ne_ok, false_iff, not_and]
      intro _ hle
      omega
    · rename_i hlen
      have hle := Nat.le_of_not_lt hlen
      simp [hfits, hle, List.take_of_length_le hle, eq_comm]
  · rename_i hfits
    simp [hfits]

theorem serializeInto_ne_panicked {α : Type} (f : Format α) (value : α) (info : AccountInfo)
    (L L' : Ledger) : serializeInto f value info L ≠ .error .panicked L' := by
  intro h
  rw [serializeInto, AccountInfo.data_bind] at h
  split at h
  · simp only [AccountInfo.setData, AccountInfo.update_bind] at h
    split at h <;> cases h
  · cases h

/-- Nor does what returns a value after it. -/
theorem serializeInto_return_ne_panicked {α β : Type} (f : Format α) (value : α)
    (info : AccountInfo) (b : β) (L L' : Ledger) :
    (serializeInto f value info >>= fun _ => pure b) L ≠ .error .panicked L' := by
  intro h
  rcases bind_eq_error_iff.mp h with hwrite | ⟨_, _, -, hreturn⟩
  · exact serializeInto_ne_panicked f value info L L' hwrite
  · cases hreturn

/-- When the encoding has the length of the data, it becomes the data. -/
theorem serializeInto_eq_ok_of_length {α : Type} {f : Format α} {value : α}
    {info : AccountInfo} {L : Ledger} (hfits : f.fits value = true)
    (hlen : (f.encode value).length = (L info.key).data.length) :
    serializeInto f value info L =
      .ok () (Function.update L info.key
        { L info.key with data := f.encode value }) := by
  refine serializeInto_eq_ok_iff.mpr ⟨hfits, Nat.le_of_eq hlen, ?_⟩
  rw [hlen, List.drop_length, List.append_nil]

end MultisigNative.Solana
