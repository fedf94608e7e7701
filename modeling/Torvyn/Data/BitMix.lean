/-
# Mixing bits without losing any

The steps of which bit mixers are made: a word combined with a shifted copy of itself, the
product with an odd constant, a rotation.  None of them identifies two words.
-/
import Mathlib

namespace Torvyn.BitMix

variable {w : ℕ}

/-- A word combined with a copy of itself, shifted to the right. -/
def xorShiftRight (x : BitVec w) (k : ℕ) : BitVec w := x ^^^ (x >>> k)

/-- A word that its shifted copy cancels is zero: each of its bits is the one `k` places
above it. -/
theorem eq_zero_of_xorShiftRight {x : BitVec w} {k : ℕ} (hk : 0 < k)
    (h : xorShiftRight x k = 0) : x = 0 := by
  have hbit : ∀ i, x.getLsbD i = x.getLsbD (k + i) := by
    intro i
    have hi := congrArg (fun y => y.getLsbD i) h
    simp only [xorShiftRight, BitVec.getLsbD_xor, BitVec.getLsbD_ushiftRight] at hi
    simpa using hi
  have hbits : ∀ n i, x.getLsbD i = x.getLsbD (n * k + i) := by
    intro n
    induction n with
    | zero => intro i; rw [Nat.zero_mul, Nat.zero_add]
    | succ n ih =>
      intro i
      rw [hbit i, ih (k + i)]
      congr 1
      ring
  apply BitVec.eq_of_getLsbD_eq
  intro i _
  rw [hbits w i, BitVec.getLsbD_of_ge _ _ (Nat.le_add_right_of_le (Nat.le_mul_of_pos_right w hk))]
  simp

/-- Combining words with their shifted copies identifies no two of them. -/
theorem injective_xorShiftRight {k : ℕ} (hk : 0 < k) :
    Function.Injective fun x : BitVec w => xorShiftRight x k := by
  intro x y h
  have hzero : xorShiftRight (x ^^^ y) k = 0 := by
    calc xorShiftRight (x ^^^ y) k
        = x ^^^ y ^^^ (x >>> k ^^^ y >>> k) := by
          rw [xorShiftRight, BitVec.ushiftRight_xor_distrib]
      _ = xorShiftRight x k ^^^ xorShiftRight y k := by
          rw [xorShiftRight, xorShiftRight]
          ac_rfl
      _ = 0 := BitVec.xor_eq_zero_iff.mpr h
  exact BitVec.xor_eq_zero_iff.mp (eq_zero_of_xorShiftRight hk hzero)

/-- Nor does multiplying them by a constant with an inverse. -/
theorem injective_mul_right {c d : BitVec w} (h : c * d = 1) :
    Function.Injective fun x : BitVec w => x * c := by
  intro x y hxy
  have hunit : IsUnit c := IsUnit.of_mul_eq_one d h
  exact hunit.mul_left_injective hxy

/-- A rotation moves the bits of two words alike. -/
theorem rotateLeft_xor (x y : BitVec w) (r : ℕ) :
    (x ^^^ y).rotateLeft r = x.rotateLeft r ^^^ y.rotateLeft r := by
  apply BitVec.eq_of_getLsbD_eq
  intro i hi
  simp only [BitVec.getLsbD_xor, BitVec.getLsbD_rotateLeft]
  cases decide (i < r % w) <;> simp [hi]

end Torvyn.BitMix
