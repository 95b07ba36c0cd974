import Mathlib.Algebra.Ring.Int.Defs

/-!
Arithmetic on unsigned machine words, as expressions with three meanings: the one that
wraps, the one that stops at the first operation whose result is no word, and the exact
one over the integers.
-/

namespace MultisigNative.Library.Overflow

/-- The integers that are words of `w` bits. -/
def IsWord (w : Nat) (n : Int) : Prop := 0 ≤ n ∧ n < 2 ^ w

inductive Operation
  | add
  | sub
  | mul
deriving DecidableEq

namespace Operation

variable {w : Nat} {operation : Operation} {x y : BitVec w}

def wrapping : Operation → BitVec w → BitVec w → BitVec w
  | .add, x, y => x + y
  | .sub, x, y => x - y
  | .mul, x, y => x * y

def exact : Operation → Int → Int → Int
  | .add, a, b => a + b
  | .sub, a, b => a - b
  | .mul, a, b => a * b

def overflows : Operation → BitVec w → BitVec w → Bool
  | .add, x, y => x.uaddOverflow y
  | .sub, x, y => x.usubOverflow y
  | .mul, x, y => x.umulOverflow y

/-- An operation overflows where its exact result is no word. -/
theorem overflows_eq_false_iff :
    operation.overflows x y = false ↔ IsWord w (operation.exact x.toNat y.toNat) := by
  cases operation with
  | add =>
      have hsum : (x.toNat : Int) + y.toNat < 2 ^ w ↔ x.toNat + y.toNat < 2 ^ w := by
        norm_cast
      simp only [overflows, exact, IsWord, BitVec.uaddOverflow, hsum,
        decide_eq_false_iff_not, ge_iff_le]
      omega
  | sub =>
      have hword : (x.toNat : Int) < 2 ^ w := by exact_mod_cast x.isLt
      simp only [overflows, exact, IsWord, BitVec.usubOverflow, decide_eq_false_iff_not]
      omega
  | mul =>
      have hproduct : (x.toNat : Int) * y.toNat < 2 ^ w ↔ x.toNat * y.toNat < 2 ^ w := by
        norm_cast
      have hnonneg : 0 ≤ (x.toNat : Int) * y.toNat :=
        Int.mul_nonneg (Int.natCast_nonneg _) (Int.natCast_nonneg _)
      simp only [overflows, exact, IsWord, BitVec.umulOverflow, hproduct, hnonneg,
        decide_eq_false_iff_not, ge_iff_le, Nat.not_le, true_and]

/-- Without overflow the wrapped result is exact. -/
theorem toNat_wrapping (h : operation.overflows x y = false) :
    ((operation.wrapping x y).toNat : Int) = operation.exact x.toNat y.toNat := by
  have hfalse : ¬ operation.overflows x y = true := by
    rw [h]
    exact Bool.false_ne_true
  cases operation with
  | add => exact congrArg Nat.cast (BitVec.toNat_add_of_not_uaddOverflow hfalse)
  | sub =>
      have hle : y.toNat ≤ x.toNat := by simpa [overflows, BitVec.usubOverflow] using h
      have hsub := BitVec.toNat_sub_of_not_usubOverflow hfalse
      simp only [wrapping, exact, hsub]
      omega
  | mul => exact congrArg Nat.cast (BitVec.toNat_mul_of_not_umulOverflow hfalse)

end Operation

/-- An expression over words of `w` bits. -/
inductive Expr (w : Nat)
  | word (n : BitVec w)
  | binary (operation : Operation) (a b : Expr w)
deriving DecidableEq

namespace Expr

variable {w : Nat} {e a b : Expr w} {n : BitVec w}

def wrapping : Expr w → BitVec w
  | .word n => n
  | .binary operation a b => operation.wrapping a.wrapping b.wrapping

def exact : Expr w → Int
  | .word n => n.toNat
  | .binary operation a b => operation.exact a.exact b.exact

/-- The value of an expression none of whose operations overflows. -/
def checked : Expr w → Option (BitVec w)
  | .word n => some n
  | .binary operation a b =>
      a.checked.bind fun x => b.checked.bind fun y =>
        if operation.overflows x y then none else some (operation.wrapping x y)

/-- Every operation of the expression has a word as its exact result. -/
def InRange : Expr w → Prop
  | .word _ => True
  | .binary operation a b =>
      a.InRange ∧ b.InRange ∧ IsWord w (operation.exact a.exact b.exact)

theorem inRange_word (n : BitVec w) : (Expr.word n).InRange := trivial

theorem inRange_binary_iff {operation : Operation} :
    (Expr.binary operation a b).InRange ↔
      a.InRange ∧ b.InRange ∧ IsWord w (operation.exact a.exact b.exact) := Iff.rfl

/-- In range, the wrapped value is exact. -/
theorem toNat_wrapping (h : e.InRange) : (e.wrapping.toNat : Int) = e.exact := by
  induction e with
  | word n => rfl
  | binary operation a b iha ihb =>
      obtain ⟨ha, hb, hword⟩ := h
      rw [exact, ← iha ha, ← ihb hb, wrapping]
      refine Operation.toNat_wrapping (Operation.overflows_eq_false_iff.mpr ?_)
      rw [iha ha, ihb hb]
      exact hword

/-- The checks pass exactly in range, and then they make no difference. -/
theorem checked_eq_some_iff : e.checked = some n ↔ e.InRange ∧ e.wrapping = n := by
  induction e generalizing n with
  | word m => simp [checked, InRange, wrapping]
  | binary operation a b iha ihb =>
      simp only [checked, Option.bind_eq_some_iff, iha, ihb]
      constructor
      · rintro ⟨x, ⟨ha, rfl⟩, y, ⟨hb, rfl⟩, h⟩
        split at h
        · cases h
        · rename_i hpasses
          have hword := Operation.overflows_eq_false_iff.mp
            (Bool.not_eq_true _ ▸ hpasses)
          rw [toNat_wrapping ha, toNat_wrapping hb] at hword
          exact ⟨⟨ha, hb, hword⟩, Option.some.inj h⟩
      · rintro ⟨⟨ha, hb, hword⟩, rfl⟩
        refine ⟨a.wrapping, ⟨ha, rfl⟩, b.wrapping, ⟨hb, rfl⟩, ?_⟩
        rw [← toNat_wrapping ha, ← toNat_wrapping hb] at hword
        rw [Operation.overflows_eq_false_iff.mpr hword]
        rfl

theorem checked_of_inRange (h : e.InRange) : e.checked = some e.wrapping :=
  checked_eq_some_iff.mpr ⟨h, rfl⟩

theorem checked_eq_none_iff : e.checked = none ↔ ¬ e.InRange := by
  rw [Option.eq_none_iff_forall_ne_some]
  constructor
  · intro h hrange
    exact h _ (checked_of_inRange hrange)
  · intro h n hn
    exact h (checked_eq_some_iff.mp hn).1

end Expr

end MultisigNative.Library.Overflow
