/-
# The fairness monitor

`FairnessMonitor` of `torvyn-reactor/src/fairness.rs`: how long the elements of a flow have been
processed for, and the average of it.  The elements are counted in 64 bits, and the average divides
by the lower half of the count.  `Duration` is counted in nanoseconds.
-/
import Mathlib

namespace Torvyn.Reactor

/-- The longest `Duration`: all seconds that fit into 64 bits, and one nanosecond less than one
more. -/
def durationMax : ℕ := 2 ^ 64 * 1000000000 - 1

/-- What of a `FairnessMonitor` the average is made of. -/
structure FairnessMonitor where
  totalCpuTime : ℕ
  totalElements : UInt64
  deriving DecidableEq, Repr

namespace FairnessMonitor

/-- `new`. -/
def new : FairnessMonitor := ⟨0, 0⟩

/-- `record_processing`, or no monitor where adding the durations panics. -/
def recordProcessing (m : FairnessMonitor) (duration : ℕ) : Option FairnessMonitor :=
  if m.totalCpuTime + duration ≤ durationMax then
    some ⟨m.totalCpuTime + duration, m.totalElements + 1⟩
  else none

/-- `avg_processing_time`, or no answer where it divides by zero. -/
def avgProcessingTime (m : FairnessMonitor) : Option (Option ℕ) :=
  if m.totalElements = 0 then some none
  else if m.totalElements.toUInt32 = 0 then none
  else some (some (m.totalCpuTime / m.totalElements.toUInt32.toNat))

/-- A monitor that has recorded some durations. -/
def record (durations : List ℕ) : Option FairnessMonitor := durations.foldlM recordProcessing new

/-- **What is asked of the average**: it is answered, and is the total that has been recorded by
the number of durations. -/
def Averages (m : FairnessMonitor) (durations : List ℕ) : Prop :=
  m.avgProcessingTime = some
    (if durations = [] then none else some (durations.sum / durations.length))

/-! ## What is recorded -/

variable {m : FairnessMonitor} {durations : List ℕ}

theorem record_append (duration : ℕ) : record (durations ++ [duration]) =
    (record durations).bind (recordProcessing · duration) := by
  simp [record, List.foldlM_append]

/-- **A monitor counts** what it records, as long as that fits into its fields. -/
theorem record_eq (hsum : durations.sum ≤ durationMax) :
    record durations = some ⟨durations.sum, UInt64.ofNat durations.length⟩ := by
  induction durations using List.reverseRecOn with
  | nil => rfl
  | append_singleton durations duration ih =>
    have hadd : (durations ++ [duration]).sum = durations.sum + duration := by simp
    rw [hadd] at hsum ⊢
    rw [record_append, ih (by omega), Option.bind_some, recordProcessing, if_pos hsum]
    simp

/-! ## The average -/

/-- A total divided by a number and by its remainder gives the same only when it is smaller than
both. -/
theorem div_mod_eq_iff {total n b : ℕ} (hb : 0 < b) (hle : b ≤ n) (hpos : 0 < n % b) :
    total / (n % b) = total / n ↔ total < n % b := by
  have hmod : n % b < b := Nat.mod_lt n hb
  constructor
  · intro heq
    by_contra hge
    have hone : 1 ≤ total / (n % b) := (Nat.one_le_div_iff hpos).mpr (not_lt.mp hge)
    -- the number is more than twice its remainder
    have htwice : n % b * 2 ≤ n := by
      have hdiv := Nat.div_add_mod n b
      have hquotient : b * 1 ≤ b * (n / b) :=
        Nat.mul_le_mul_left b ((Nat.one_le_div_iff hb).mpr hle)
      omega
    have hhalf : total / n ≤ total / (n % b) / 2 := by
      rw [Nat.div_div_eq_div_mul]
      exact Nat.div_le_div_left htwice (by omega)
    omega
  · intro hlt
    have hlt' : total < n := by omega
    rw [Nat.div_eq_of_lt hlt, Nat.div_eq_of_lt hlt']

/-- The average, by the number of elements. -/
theorem avgProcessingTime_eq (m : FairnessMonitor) : m.avgProcessingTime =
    if m.totalElements.toNat = 0 then some none
    else if m.totalElements.toNat % 2 ^ 32 = 0 then none
    else some (some (m.totalCpuTime / (m.totalElements.toNat % 2 ^ 32))) := by
  unfold avgProcessingTime
  simp only [← UInt64.toNat_inj, ← UInt32.toNat_inj, UInt64.toNat_toUInt32]
  rfl

/-- **The average is right** exactly for fewer than 2³² durations, or for a total that is smaller
than the lower half of their number. -/
theorem average_iff (hcount : durations.length < 2 ^ 64) (hsum : durations.sum ≤ durationMax) :
    (∃ m, record durations = some m ∧ m.Averages durations) ↔
      durations.length < 2 ^ 32 ∨ durations.sum < durations.length % 2 ^ 32 := by
  have hlength : (UInt64.ofNat durations.length).toNat = durations.length := by
    rw [UInt64.toNat_ofNat']
    omega
  have hnil : durations = [] ↔ durations.length = 0 := List.length_eq_zero_iff.symm
  simp only [record_eq hsum, Option.some.injEq, exists_eq_left', Averages, avgProcessingTime_eq,
    hlength, hnil]
  by_cases hzero : durations.length = 0
  · simp [hzero]
  rw [if_neg hzero, if_neg hzero]
  by_cases hsmall : durations.length < 2 ^ 32
  · rw [Nat.mod_eq_of_lt hsmall, if_neg hzero]
    exact iff_of_true rfl (.inl hsmall)
  by_cases hlow : durations.length % 2 ^ 32 = 0
  · rw [if_pos hlow, hlow]
    exact iff_of_false (by simp) (by omega)
  · rw [if_neg hlow, Option.some.injEq, Option.some.injEq,
      div_mod_eq_iff (by decide) (not_lt.mp hsmall) (Nat.pos_of_ne_zero hlow)]
    omega

/-- Three durations are averaged. -/
theorem average_three : ∃ m, record [1, 2, 4] = some m ∧ m.Averages [1, 2, 4] :=
  (average_iff (by decide) (by decide)).mpr (.inl (by decide))

/-- After a multiple of 2³² elements the average divides by zero. -/
theorem divides_by_zero {n : ℕ} (hpos : 0 < n) (hcount : n < 2 ^ 64) (hlow : n % 2 ^ 32 = 0) :
    (List.replicate n 0).length < 2 ^ 64 ∧ (List.replicate n 0).sum ≤ durationMax ∧
      ∃ m, record (List.replicate n 0) = some m ∧ m.avgProcessingTime = none ∧
        ¬m.Averages (List.replicate n 0) := by
  have hsum : (List.replicate n 0).sum ≤ durationMax := by simp
  have hlength : (UInt64.ofNat n).toNat = n := by
    rw [UInt64.toNat_ofNat']
    omega
  have hnone : avgProcessingTime ⟨(List.replicate n 0).sum,
      UInt64.ofNat (List.replicate n 0).length⟩ = none := by
    rw [avgProcessingTime_eq, List.length_replicate, hlength, if_neg (by omega), if_pos hlow]
  refine ⟨by rwa [List.length_replicate], hsum, _, record_eq hsum, hnone, ?_⟩
  rw [Averages, hnone]
  exact (Option.some_ne_none _).symm

/-- **2³² durations of no time**: the average divides by zero. -/
theorem average_divides_by_zero :
    (List.replicate (2 ^ 32) 0).length < 2 ^ 64 ∧
      (List.replicate (2 ^ 32) 0).sum ≤ durationMax ∧
      ∃ m, record (List.replicate (2 ^ 32) 0) = some m ∧ m.avgProcessingTime = none ∧
        ¬m.Averages (List.replicate (2 ^ 32) 0) :=
  divides_by_zero (by decide) (by decide) (by decide)

end FairnessMonitor

end Torvyn.Reactor
