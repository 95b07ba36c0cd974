import MultisigNative.Instructions.Capacity
import MultisigNative.Library.Overflow

/-!
Owner changes in a build with overflow checks: the arithmetic operations of the source one
by one, each of which panics there when its result is no machine word.
-/

namespace MultisigNative.Instructions

open Library.Overflow
open Library.StateError
open Solana
open Errors
open State

inductive Build
  | release
  | overflowChecks
deriving DecidableEq

/-- A release build wraps; one with overflow checks panics. -/
def Build.eval {w : Nat} (build : Build) (e : Expr w) : Handler (BitVec w) :=
  match build with
  | .release => pure e.wrapping
  | .overflowChecks =>
      match e.checked with
      | some n => pure n
      | none => throw .panicked

def usize (n : Nat) : Expr 64 := .word (BitVec.ofNat 64 n)

/-- `owners.len() * PUBKEY_BYTES` -/
def ownersSize (owners : List Pubkey) : Expr 64 :=
  .binary .mul (usize owners.length) (usize PUBKEY_BYTES)

/-- `multisig.owners.len() * PUBKEY_BYTES + multisig.padding.len()` -/
def capacitySize (multisig : Multisig) : Expr 64 :=
  .binary .add (ownersSize multisig.owners) (usize multisig.padding.length)

/-- `padding.len() + PUBKEY_BYTES * (multisig_data.owners.len() - owners.len())` -/
def paddingSize (multisigData : Multisig) (owners : List Pubkey) : Expr 64 :=
  .binary .add (usize multisigData.padding.length)
    (.binary .mul (usize PUBKEY_BYTES)
      (.binary .sub (usize multisigData.owners.length) (usize owners.length)))

/-- The `i + 1` of `assert_unique_owners`. -/
def skipSize (i : Nat) : Expr 64 := .binary .add (usize i) (usize 1)

/-- `multisig_data.owner_set_seqno += 1`, in `u32`. -/
def nextSeqno (multisigData : Multisig) : Expr 32 :=
  .binary .add (.word multisigData.ownerSetSeqno.toBitVec) (.word 1)

def validateOwnersIn (build : Build) (multisig : Multisig) (owners : List Pubkey) :
    Handler Unit := do
  -- its `i + 1` is in range in every step (`skipSize_inRange`)
  assertUniqueOwners owners
  assertThat (!owners.isEmpty) MultisigError.notEnoughOwners
  let needed ← build.eval (ownersSize owners)
  let available ← build.eval (capacitySize multisig)
  assertThat (needed ≤ available) MultisigError.tooManyOwners

def executeSetOwnersIn (build : Build) (multisigAccount : AccountInfo)
    (multisigData : Multisig) (owners : List Pubkey) : Handler Multisig := do
  let paddingLen ← build.eval (paddingSize multisigData owners)
  let ownerSetSeqno ← build.eval (nextSeqno multisigData)
  let multisigData : Multisig :=
    { owners := owners
      threshold :=
        if UInt8.ofNat owners.length < multisigData.threshold then
          UInt8.ofNat owners.length
        else multisigData.threshold
      nonce := multisigData.nonce
      ownerSetSeqno := ⟨ownerSetSeqno⟩
      padding := List.replicate paddingLen.toNat 0 }
  serializeInto Multisig.format multisigData multisigAccount
  return multisigData

section Handlers

variable (build : Build) (rt : Runtime) (programId : Pubkey) (accounts : List AccountInfo)

def setOwnersIn (instruction : SetOwnersInstruction) : Handler Unit :=
  withSignedMultisig rt programId accounts fun multisigAccount multisigData => do
    validateOwnersIn build multisigData instruction.owners
    let _ ← executeSetOwnersIn build multisigAccount multisigData instruction.owners

def setOwnersAndChangeThresholdIn
    (instruction : SetOwnersAndChangeThresholdInstruction) : Handler Unit :=
  withSignedMultisig rt programId accounts fun multisigAccount multisigData => do
    validateOwnersIn build multisigData instruction.owners
    validateThreshold instruction.threshold instruction.owners
    let multisigData ←
      executeSetOwnersIn build multisigAccount multisigData instruction.owners
    let _ ← executeChangeThreshold multisigAccount multisigData instruction.threshold

end Handlers

section Release

variable {multisig : Multisig} {owners : List Pubkey}

theorem validateOwnersIn_release :
    validateOwnersIn .release multisig owners =
      (liftM (validateOwners multisig owners) : Handler Unit) := by
  funext L
  cases hunique : assertUniqueOwners owners with
  | error e =>
      simp only [validateOwnersIn, validateOwners, hunique]
      rfl
  | ok u =>
      cases hempty : assertThat (!owners.isEmpty) MultisigError.notEnoughOwners with
      | error e =>
          simp only [validateOwnersIn, validateOwners, hunique, hempty]
          rfl
      | ok u =>
          simp only [validateOwnersIn, validateOwners, hunique, hempty]
          rfl

theorem executeSetOwnersIn_release (multisigAccount : AccountInfo) :
    executeSetOwnersIn .release multisigAccount multisig owners =
      executeSetOwners multisigAccount multisig owners := rfl

theorem setOwnersIn_release (rt : Runtime) (programId : Pubkey)
    (accounts : List AccountInfo) (instruction : SetOwnersInstruction) :
    setOwnersIn .release rt programId accounts instruction =
      setOwners rt programId accounts instruction := by
  simp only [setOwnersIn, setOwners, validateOwnersIn_release, executeSetOwnersIn_release]

theorem setOwnersAndChangeThresholdIn_release (rt : Runtime) (programId : Pubkey)
    (accounts : List AccountInfo) (instruction : SetOwnersAndChangeThresholdInstruction) :
    setOwnersAndChangeThresholdIn .release rt programId accounts instruction =
      setOwnersAndChangeThreshold rt programId accounts instruction := by
  simp only [setOwnersAndChangeThresholdIn, setOwnersAndChangeThreshold,
    validateOwnersIn_release, executeSetOwnersIn_release]

end Release

section Ranges

variable {multisig : Multisig} {owners : List Pubkey}

theorem exact_usize {n : Nat} (h : n < 2 ^ 64) : (usize n).exact = n := by
  simp only [usize, Expr.exact, BitVec.toNat_ofNat, Nat.mod_eq_of_lt h]

theorem exact_width : (usize PUBKEY_BYTES).exact = 32 := exact_usize (by decide)

theorem inRange_usize (n : Nat) : (usize n).InRange := trivial

theorem ownersSize_inRange (hlen : 32 * owners.length < 2 ^ 64) :
    (ownersSize owners).InRange := by
  have howners := exact_usize (n := owners.length) (by omega)
  refine ⟨inRange_usize _, inRange_usize _, ?_⟩
  simp only [howners, exact_width, Operation.exact, IsWord]
  omega

theorem capacitySize_inRange (hfits : Multisig.format.fits multisig = true) :
    (capacitySize multisig).InRange := by
  obtain ⟨hold, hpadding⟩ := (Multisig.format_fits_iff multisig).mp hfits
  have howners := exact_usize (n := multisig.owners.length) (by omega)
  have hbytes := exact_usize (n := multisig.padding.length) (by omega)
  refine ⟨ownersSize_inRange (by omega), inRange_usize _, ?_⟩
  simp only [ownersSize, Expr.exact, howners, hbytes, exact_width, Operation.exact, IsWord]
  omega

/-- The difference of the lengths decides. -/
theorem paddingSize_inRange_iff (hfits : Multisig.format.fits multisig = true)
    (hlen : 32 * owners.length < 2 ^ 64) :
    (paddingSize multisig owners).InRange ↔ owners.length ≤ multisig.owners.length := by
  obtain ⟨hold, hpadding⟩ := (Multisig.format_fits_iff multisig).mp hfits
  have hcurrent := exact_usize (n := multisig.owners.length) (by omega)
  have howners := exact_usize (n := owners.length) (by omega)
  have hbytes := exact_usize (n := multisig.padding.length) (by omega)
  simp only [paddingSize, Expr.inRange_binary_iff, inRange_usize, Expr.exact, hcurrent,
    howners, hbytes, exact_width, Operation.exact, IsWord, true_and]
  omega

theorem skipSize_inRange {i : Nat} (hi : i < owners.length)
    (hlen : 32 * owners.length < 2 ^ 64) : (skipSize i).InRange := by
  have hindex := exact_usize (n := i) (by omega)
  have hone := exact_usize (n := 1) (by decide)
  refine ⟨inRange_usize _, inRange_usize _, ?_⟩
  simp only [hindex, hone, Operation.exact, IsWord]
  omega

theorem nextSeqno_inRange_iff :
    (nextSeqno multisig).InRange ↔ multisig.ownerSetSeqno ≠ 4294967295 := by
  have hone : ((1 : BitVec 32).toNat : Int) = 1 := rfl
  have hseqno := multisig.ownerSetSeqno.toNat_lt
  have hmax : multisig.ownerSetSeqno = 4294967295 ↔
      multisig.ownerSetSeqno.toNat = 4294967295 := UInt32.toNat_inj.symm
  simp only [nextSeqno, Expr.inRange_binary_iff, Expr.inRange_word, Expr.exact, hone,
    UInt32.toNat_toBitVec, Operation.exact, IsWord, true_and, ne_eq, hmax]
  omega

end Ranges

section Outcomes

variable {w : Nat} {e : Expr w} {multisig : Multisig} {owners : List Pubkey} {L : Ledger}
  {info : AccountInfo}

theorem Build.eval_of_inRange (build : Build) (h : e.InRange) :
    build.eval e = pure e.wrapping := by
  cases build with
  | release => rfl
  | overflowChecks => rw [Build.eval, Expr.checked_of_inRange h]

theorem Build.eval_of_not_inRange (h : ¬ e.InRange) (L : Ledger) :
    Build.overflowChecks.eval e L = .error .panicked L := by
  rw [Build.eval, Expr.checked_eq_none_iff.mpr h]
  rfl

/-- The two builds validate alike. -/
theorem validateOwnersIn_eq (build : Build)
    (hfits : Multisig.format.fits multisig = true) (hlen : 32 * owners.length < 2 ^ 64) :
    validateOwnersIn build multisig owners =
      (liftM (validateOwners multisig owners) : Handler Unit) := by
  rw [← validateOwnersIn_release]
  simp only [validateOwnersIn, Build.eval_of_inRange _ (ownersSize_inRange hlen),
    Build.eval_of_inRange _ (capacitySize_inRange hfits)]

theorem executeSetOwnersIn_eq (build : Build) (hpadding : (paddingSize multisig owners).InRange)
    (hseqno : (nextSeqno multisig).InRange) :
    executeSetOwnersIn build info multisig owners =
      executeSetOwners info multisig owners := by
  rw [← executeSetOwnersIn_release]
  simp only [executeSetOwnersIn, Build.eval_of_inRange _ hpadding,
    Build.eval_of_inRange _ hseqno]

theorem executeSetOwnersIn_panicked
    (h : ¬ ((paddingSize multisig owners).InRange ∧ (nextSeqno multisig).InRange)) :
    executeSetOwnersIn .overflowChecks info multisig owners L = .error .panicked L := by
  by_cases hpadding : (paddingSize multisig owners).InRange
  · have hseqno : ¬ (nextSeqno multisig).InRange := fun hseqno => h ⟨hpadding, hseqno⟩
    rw [executeSetOwnersIn, Build.eval_of_inRange _ hpadding, pure_bind]
    exact bind_of_error (Build.eval_of_not_inRange hseqno L)
  · exact bind_of_error (Build.eval_of_not_inRange hpadding L)

/-- A release build does not panic where it writes the new value. -/
theorem executeSetOwners_ne_panicked {L' : Ledger} :
    executeSetOwners info multisig owners L ≠ .error .panicked L' :=
  serializeInto_return_ne_panicked _ _ _ _ _ _

theorem executeChangeThreshold_ne_panicked {threshold : UInt8} {L' : Ledger} :
    executeChangeThreshold info multisig threshold L ≠ .error .panicked L' :=
  serializeInto_return_ne_panicked _ _ _ _ _ _

end Outcomes

end MultisigNative.Instructions
