/-
# Byte sizes in a manifest

`parse_byte_size` of `torvyn-contracts/src/validator.rs`.  The number before a unit is multiplied
without a check, so a size beyond 64 bits ends in a panic where the build checks its arithmetic,
and in another size where it does not.
-/
import Torvyn.Text

namespace Torvyn.Contracts

/-! ## The arithmetic of a build -/

/-- What a build does when a product does not fit into 64 bits. -/
inductive Overflow where
  | panics
  | wraps
  deriving DecidableEq, Repr

/-- The product of two 64-bit numbers, or no answer where the build panics. -/
def mulU64 (overflow : Overflow) (a b : UInt64) : Option UInt64 :=
  match overflow with
  | .wraps => some (a * b)
  | .panics => if a.toNat * b.toNat < 2 ^ 64 then some (a * b) else none

/-- Multiply by 1024 several times. -/
def scale (overflow : Overflow) : ℕ → UInt64 → Option UInt64
  | 0, n => some n
  | k + 1, n => (mulU64 overflow n 1024).bind (scale overflow k)

/-! ## Reading a size -/

/-- `str::strip_suffix`. -/
def stripSuffix (s p : String) : Option String :=
  if endsWith s p then some (String.ofList (s.toList.take (s.length - p.length))) else none

/-- `str::parse::<u64>`. -/
def parseU64 (s : String) : Option UInt64 :=
  let digits := match s.toList with
    | '+' :: digits => digits
    | digits => digits
  if digits ≠ [] ∧ digits.all Char.isDigit then
    let n := Nat.ofDigitChars 10 digits 0
    if n < 2 ^ 64 then some (UInt64.ofNat n) else none
  else none

/-- The text of the number and the factors 1024 that its unit stands for. -/
def splitUnit (s : String) : String × ℕ :=
  match stripSuffix s "GiB" with
  | some num => (trim num, 3)
  | none =>
      match stripSuffix s "MiB" with
      | some num => (trim num, 2)
      | none =>
          match stripSuffix s "KiB" with
          | some num => (trim num, 1)
          | none =>
              match stripSuffix s "B" with
              | some num => (trim num, 0)
              | none => (s, 0)

/-- `parse_byte_size`, or no answer where it panics. -/
def parseByteSize (overflow : Overflow) (s : String) : Option (Option UInt64) :=
  let (num, factors) := splitUnit (trim s)
  match parseU64 num with
  | some n => (scale overflow factors n).map some
  | none => some none

/-! ## Exact sizes -/

/-- The number in a text and the multiplier of its unit. -/
def statedSize (s : String) : Option (ℕ × ℕ) :=
  (parseU64 (splitUnit (trim s)).1).map fun n => (n.toNat, 1024 ^ (splitUnit (trim s)).2)

/-- **What is asked of the parser**: it does not panic, and a size that it returns is the product of
the number and the multiplier. -/
def ExactSize (overflow : Overflow) (s : String) : Prop :=
  ∃ answer, parseByteSize overflow s = some answer ∧
    ∀ size, answer = some size →
      ∃ number multiplier, statedSize s = some (number, multiplier) ∧
        size.toNat = number * multiplier

variable {overflow : Overflow}

/-- A product that fits is computed, in any build. -/
theorem mulU64_of_lt {a b : UInt64} (h : a.toNat * b.toNat < 2 ^ 64) :
    mulU64 overflow a b = some (a * b) := by
  cases overflow with
  | wraps => rfl
  | panics => exact if_pos h

/-- **Scaling is exact** when the product fits into 64 bits. -/
theorem scale_of_lt {k : ℕ} {n : UInt64} (h : n.toNat * 1024 ^ k < 2 ^ 64) :
    ∃ m, scale overflow k n = some m ∧ m.toNat = n.toNat * 1024 ^ k := by
  induction k generalizing n with
  | zero => exact ⟨n, rfl, by simp⟩
  | succ k ih =>
    have hone : (1024 : UInt64).toNat = 1024 := rfl
    have hfirst : n.toNat * 1024 < 2 ^ 64 := by
      refine lt_of_le_of_lt ?_ h
      rw [pow_succ']
      exact Nat.mul_le_mul_left _ (Nat.le_mul_of_pos_right _ (by positivity))
    have hproduct : (n * 1024).toNat = n.toNat * 1024 := by
      rw [UInt64.toNat_mul, hone, Nat.mod_eq_of_lt hfirst]
    have hrest : (n * 1024).toNat * 1024 ^ k = n.toNat * 1024 ^ (k + 1) := by
      rw [hproduct, pow_succ', Nat.mul_assoc]
    obtain ⟨m, hscale, hm⟩ := @ih (n * 1024) (hrest ▸ h)
    refine ⟨m, ?_, hm.trans hrest⟩
    rw [scale, mulU64_of_lt (by rwa [hone])]
    exact hscale

/-- **A size is read exactly**, or not at all, exactly when what it states fits into 64 bits. -/
theorem parseByteSize_exact_iff (overflow : Overflow) (s : String) :
    ExactSize overflow s ↔ ∀ number multiplier, statedSize s = some (number, multiplier) →
      number * multiplier < 2 ^ 64 := by
  unfold ExactSize parseByteSize statedSize
  dsimp only
  cases hnum : parseU64 (splitUnit (trim s)).1 with
  | none => simp
  | some n =>
    simp only [Option.map_some, Option.some.injEq, Prod.mk.injEq]
    constructor
    · rintro ⟨answer, hanswer, hexact⟩ number multiplier ⟨rfl, rfl⟩
      obtain ⟨size, hscale, rfl⟩ := Option.map_eq_some_iff.mp hanswer
      obtain ⟨number, multiplier, ⟨rfl, rfl⟩, hsize⟩ := hexact size rfl
      rw [← hsize]
      exact size.toNat_lt
    · intro hfits
      obtain ⟨size, hscale, hsize⟩ := @scale_of_lt overflow _ _ (hfits _ _ ⟨rfl, rfl⟩)
      refine ⟨some size, by rw [hscale]; rfl, ?_⟩
      intro size' heq
      cases heq
      exact ⟨_, _, ⟨rfl, rfl⟩, hsize⟩

/-- 2³⁴ gibibytes are stated exactly. -/
theorem statedSize_huge : statedSize "17179869184GiB" = some (17179869184, 1073741824) := by
  decide

/-- **2³⁴ gibibytes** are a panic in one build and no bytes in the other. -/
theorem huge_size_lost : parseByteSize .panics "17179869184GiB" = none ∧
    parseByteSize .wraps "17179869184GiB" = some (some 0) ∧
    ∀ overflow, ¬ExactSize overflow "17179869184GiB" := by
  have hpanics : parseByteSize .panics "17179869184GiB" = none := by decide
  have hwraps : parseByteSize .wraps "17179869184GiB" = some (some 0) := by decide
  refine ⟨hpanics, hwraps, fun overflow h => ?_⟩
  obtain ⟨answer, hanswer, hexact⟩ := h
  cases overflow with
  | panics =>
    rw [hpanics] at hanswer
    cases hanswer
  | wraps =>
    rw [hwraps] at hanswer
    obtain rfl := Option.some.inj hanswer
    obtain ⟨number, multiplier, hstated, hsize⟩ := hexact 0 rfl
    rw [statedSize_huge] at hstated
    cases hstated
    exact absurd hsize (by decide)

end Torvyn.Contracts
