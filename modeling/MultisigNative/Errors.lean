import MultisigNative.Solana.Ledger

/-!
The program's own errors and the assertion helpers.  The log line that each
failed assertion writes is not modelled, and neither are the messages that only
this line uses.
-/

namespace MultisigNative.Errors

open Solana
open Library.StateError

inductive MultisigError
  | invalidThreshold
  | uniqueOwners
  | invalidOwner
  | proposerNotSigner
  | missingInstructions
  | invalidOwnerSetSequenceNumber
  | notEnoughOwners
  | tooManyOwners
  | invalidExecutor
  | immutableTransactionAccount
  | invalidTransactionAccount
  | invalidRefundeeAccount
  | immutableRefundeeAccount
  | notEnoughSigners
  | accountCloseFailure
  | malformedTransactionAccount
  | approverNotSigner
  | multisigSignerNotSigner
  | malformedMultisigAccount
  | accountOwnedByWrongProgram
deriving DecidableEq

/-- `ProgramError::Custom(e as u32)`. -/
instance : Coe MultisigError ProgramError where
  coe e := .custom (UInt32.ofNat e.ctorIdx)

def assertSuccess {α : Type} (result : Option α) (error : ProgramError) :
    Except ProgramError α :=
  match result with
  | some v => pure v
  | none => throw error

def assertPresent {α : Type} (option : Option α) (error : ProgramError) :
    Except ProgramError α :=
  match option with
  | some v => pure v
  | none => throw error

def assertThat (condition : Bool) (error : ProgramError) :
    Except ProgramError Unit :=
  if condition then pure () else throw error

/-- Each owner is compared with the owners after it, `owners.iter().skip(i + 1)`. -/
def assertUniqueOwners : List Pubkey → Except ProgramError Unit
  | [] => pure ()
  | owner :: rest => do
      assertThat (!rest.any (· == owner)) MultisigError.uniqueOwners
      assertUniqueOwners rest

@[simp] theorem assertSuccess_eq_ok_iff {α : Type} {result : Option α}
    {error : ProgramError} {v : α} :
    assertSuccess result error = .ok v ↔ result = some v := by
  cases result <;> simp [assertSuccess]

@[simp] theorem assertPresent_eq_ok_iff {α : Type} {option : Option α}
    {error : ProgramError} {v : α} :
    assertPresent option error = .ok v ↔ option = some v := by
  cases option <;> simp [assertPresent]

@[simp] theorem assertThat_eq_ok_iff {condition : Bool} {error : ProgramError}
    {u : Unit} : assertThat condition error = .ok u ↔ condition = true := by
  cases condition <;> simp [assertThat]

section Handlers

variable {α β : Type} {b : β} {error : ProgramError} {L L' : Ledger}

theorem assertThat_bind_eq_ok_iff {condition : Bool} {f : Unit → Handler β} :
    ((liftM (assertThat condition error) : Handler Unit) >>= f) L = .ok b L' ↔
      condition = true ∧ f () L = .ok b L' := by
  rw [liftM_unit_bind_eq_ok_iff, assertThat_eq_ok_iff]

theorem assertPresent_bind_eq_ok_iff {option : Option α} {f : α → Handler β} :
    ((liftM (assertPresent option error) : Handler α) >>= f) L = .ok b L' ↔
      ∃ v, option = some v ∧ f v L = .ok b L' := by
  simp [liftM_bind_eq_ok_iff]

end Handlers

theorem assertUniqueOwners_eq_ok_iff {owners : List Pubkey} {u : Unit} :
    assertUniqueOwners owners = .ok u ↔ owners.Nodup := by
  induction owners with
  | nil => simp [assertUniqueOwners]
  | cons owner rest ih =>
      simp only [assertUniqueOwners, except_bind_eq_ok_iff, assertThat_eq_ok_iff,
        exists_const, ih, List.nodup_cons, Bool.not_eq_true', List.any_eq_false,
        beq_iff_eq]
      constructor
      · rintro ⟨hfresh, hrest⟩
        exact ⟨fun hmem => hfresh owner hmem rfl, hrest⟩
      · rintro ⟨hfresh, hrest⟩
        exact ⟨fun other hmem heq => hfresh (heq ▸ hmem), hrest⟩

end MultisigNative.Errors
