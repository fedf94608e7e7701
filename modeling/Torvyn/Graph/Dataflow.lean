/-
# Dataflow on ranked graphs

Channels between the nodes of a graph whose edges all go up in rank: `link c u v`
says that the channel `c` runs from `u` to `v`.  Three arguments about such graphs:
emptiness travels against the edges from the last nodes (`empty_downstream`),
completion travels with the edges one rank at a time (`complete_upstream`), and with
weights that fall fast enough with the rank every firing of a node lowers the weighted
number of queued elements (`sum_lt_of_fire`).
-/
import Mathlib

namespace Torvyn.Graph

variable {N C : Type*} (link : C → N → N → Prop) (rank : N → ℕ)

/-! ## Induction along the edges -/

/-- **Emptiness travels upstream.**  If a node with nothing behind it lets nothing wait
before it, for every node above rank `k`, then every channel into such a node is
empty. -/
theorem empty_downstream (bound : ℕ) {k : ℕ} (Empty : C → Prop)
    (hrank : ∀ c u v, link c u v → rank u < rank v ∧ rank v < bound)
    (h : ∀ v, k < rank v → (∀ c w, link c v w → Empty c) → ∀ c u, link c u v → Empty c)
    {c : C} {u v : N} (hc : link c u v) (hk : k < rank v) : Empty c := by
  suffices hgap : ∀ gap v, bound - rank v ≤ gap → k < rank v → ∀ c u, link c u v → Empty c from
    hgap (bound - rank v) v le_rfl hk c u hc
  intro gap
  induction gap with
  | zero =>
      intro v hgap hk c u hc
      have := (hrank c u v hc).2
      omega
  | succ gap ih =>
      intro v hgap hk
      refine h v hk fun c w hc => ih w ?_ ?_ c v hc
      · have := hrank c v w hc
        omega
      · have := (hrank c v w hc).1
        omega

/-- **Completion travels downstream.**  If a round completes the channels out of a node
once those into it were complete, then after `n` rounds the channels out of the nodes
below rank `n` are complete. -/
theorem complete_upstream (Complete : ℕ → C → Prop)
    (hrank : ∀ c u v, link c u v → rank u < rank v)
    (h : ∀ n u, (∀ c w, link c w u → Complete n c) → ∀ c v, link c u v → Complete (n + 1) c)
    (n : ℕ) {c : C} {u v : N} (hc : link c u v) (hn : rank u < n) : Complete n c := by
  induction n generalizing c u v with
  | zero => omega
  | succ n ih =>
      refine h n u (fun c' w hc' => ih hc' ?_) c v hc
      have := hrank c' w u hc'
      omega

/-! ## A measure that every firing lowers -/

section Measure

variable {S P : Finset C} {len len' weight : C → ℕ} {i : C}

/-- **A firing lowers the measure**: it takes one element from the channel `i` and puts
at most one on each channel of `P`, which together weigh less than `i`. -/
theorem sum_lt_of_fire [DecidableEq C] (hi : i ∈ S) (hP : P ⊆ S)
    (hlen : ∀ c ∈ S, len' c + (if c = i then 1 else 0) ≤ len c + if c ∈ P then 1 else 0)
    (hweight : ∑ c ∈ P, weight c < weight i) :
    ∑ c ∈ S, len' c * weight c < ∑ c ∈ S, len c * weight c := by
  have hle : ∑ c ∈ S, (len' c * weight c + if c = i then weight c else 0) ≤
      ∑ c ∈ S, (len c * weight c + if c ∈ P then weight c else 0) := by
    refine Finset.sum_le_sum fun c hc => ?_
    have hmul := Nat.mul_le_mul_right (weight c) (hlen c hc)
    rw [add_mul, add_mul] at hmul
    by_cases h₁ : c = i <;> by_cases h₂ : c ∈ P <;> simp [h₁, h₂] at hmul ⊢ <;> omega
  rw [Finset.sum_add_distrib, Finset.sum_add_distrib, Finset.sum_ite_eq' S i weight, if_pos hi,
    Finset.sum_ite_mem, Finset.inter_eq_right.mpr hP] at hle
  omega

/-- Weights that shrink by the factor `m + 1` with each rank: the targets of a node,
at most `m` of them, weigh less than the node. -/
theorem sum_weight_lt {m bound r : ℕ} {height : C → ℕ} (hcard : P.card ≤ m) (hr : r < bound)
    (hheight : ∀ c ∈ P, r < height c) :
    ∑ c ∈ P, (m + 1) ^ (bound - height c) < (m + 1) ^ (bound - r) := by
  have hle : ∀ c ∈ P, (m + 1) ^ (bound - height c) ≤ (m + 1) ^ (bound - r - 1) := by
    intro c hc
    have := hheight c hc
    exact Nat.pow_le_pow_right (Nat.succ_pos m) (by omega)
  have hsum := (Finset.sum_le_card_nsmul P _ _ hle).trans
    (Nat.mul_le_mul_right ((m + 1) ^ (bound - r - 1)) hcard)
  have hpow : (m + 1) ^ (bound - r) = (m + 1) ^ (bound - r - 1) * (m + 1) := by
    rw [← pow_succ]
    congr 1
    omega
  have hpos : 0 < (m + 1) ^ (bound - r - 1) := Nat.pow_pos (Nat.succ_pos m)
  rw [hpow, mul_add, mul_one, mul_comm ((m + 1) ^ (bound - r - 1)) m]
  omega

end Measure

end Torvyn.Graph
