/-
# Counting paths in ranked graphs

The number of paths that begin at a node of a graph whose channels all go up in rank.  It is the
number of firings that one element can cause when every firing takes one element from a channel
and puts at most one on each channel that leaves its node: weighted with the number of paths from
where they go, the queued elements become fewer with every firing (`sum_paths_lt_of_fire`), and
an element that comes from outside adds what it weighs (`sum_paths_le_of_fill`).
-/
import Torvyn.Graph.Dataflow

namespace Torvyn.Graph

variable {N C : Type*} (out : N → List C) (target : C → N)

/-! ## Paths -/

/-- The number of paths with fewer than `n` channels that begin at a node. -/
def pathsWithin : ℕ → N → ℕ
  | 0, _ => 0
  | n + 1, v => 1 + ((out v).map fun c => pathsWithin n (target c)).sum

variable {out target} {rank : N → ℕ} {bound : ℕ}

/-- A bound beyond the height of a node does not matter. -/
theorem pathsWithin_congr
    (hrank : ∀ v, ∀ c ∈ out v, rank v < rank (target c) ∧ rank (target c) < bound) (n : ℕ) :
    ∀ (m : ℕ) (v : N), rank v < bound → bound - rank v ≤ n → bound - rank v ≤ m →
      pathsWithin out target n v = pathsWithin out target m v := by
  induction n with
  | zero =>
      intro m v hv hn
      omega
  | succ n ih =>
      intro m v hv hn hm
      obtain ⟨k, rfl⟩ : ∃ k, m = k + 1 := ⟨m - 1, by omega⟩
      rw [pathsWithin, pathsWithin]
      congr 2
      refine List.map_congr_left fun c hc => ?_
      have := hrank v c hc
      exact ih k (target c) this.2 (by omega) (by omega)

/-- A path stops where it begins, or goes on along one of the channels. -/
theorem pathsWithin_eq
    (hrank : ∀ v, ∀ c ∈ out v, rank v < rank (target c) ∧ rank (target c) < bound) {v : N}
    (hv : rank v < bound) : pathsWithin out target bound v =
      1 + ((out v).map fun c => pathsWithin out target bound (target c)).sum := by
  obtain ⟨k, rfl⟩ : ∃ k, bound = k + 1 := ⟨bound - 1, by omega⟩
  rw [pathsWithin]
  congr 2
  refine List.map_congr_left fun c hc => ?_
  have := hrank v c hc
  exact pathsWithin_congr hrank k (k + 1) (target c) this.2 (by omega) (by omega)

/-! ## Firings -/

section Firing

variable [DecidableEq C] {S : Finset C} {len len' : C → ℕ} {pushed : List C} {v : N}

/-- What a firing puts on some of the channels of its node weighs less than the node. -/
theorem sum_paths_lt
    (hrank : ∀ v, ∀ c ∈ out v, rank v < rank (target c) ∧ rank (target c) < bound)
    (hv : rank v < bound) (hpushed : pushed.Sublist (out v)) (hnodup : (out v).Nodup) :
    ∑ c ∈ pushed.toFinset, pathsWithin out target bound (target c) <
      pathsWithin out target bound v := by
  rw [List.sum_toFinset _ (hpushed.nodup hnodup), pathsWithin_eq hrank hv]
  have hle := (hpushed.map fun c => pathsWithin out target bound (target c)).sum_le_sum
    fun _ _ => Nat.zero_le _
  omega

/-- **A firing** takes one element of the channel `i`, and what it puts on the channels of its
node weighs less. -/
theorem sum_paths_lt_of_fire
    (hrank : ∀ v, ∀ c ∈ out v, rank v < rank (target c) ∧ rank (target c) < bound)
    {i : C} (hv : rank (target i) < bound) (hi : i ∈ S)
    (hpushed : pushed.Sublist (out (target i))) (hnodup : (out (target i)).Nodup)
    (hS : ∀ c ∈ out (target i), c ∈ S)
    (hlen : ∀ c ∈ S, len' c + (if c = i then 1 else 0) ≤ len c + if c ∈ pushed then 1 else 0) :
    ∑ c ∈ S, len' c * pathsWithin out target bound (target c) <
      ∑ c ∈ S, len c * pathsWithin out target bound (target c) := by
  refine sum_lt_of_fire (P := pushed.toFinset) hi (fun c hc => ?_) (by simpa using hlen)
    (sum_paths_lt hrank hv hpushed hnodup)
  exact hS c (hpushed.subset (List.mem_toFinset.mp hc))

/-- What comes from outside adds what it weighs. -/
theorem sum_paths_le_of_fill (hnodup : pushed.Nodup) (hS : ∀ c ∈ pushed, c ∈ S)
    (hlen : ∀ c ∈ S, len' c ≤ len c + if c ∈ pushed then 1 else 0) :
    ∑ c ∈ S, len' c * pathsWithin out target bound (target c) ≤
      ∑ c ∈ S, len c * pathsWithin out target bound (target c) +
        (pushed.map fun c => pathsWithin out target bound (target c)).sum := by
  have hsub : pushed.toFinset ⊆ S := fun c hc => hS c (List.mem_toFinset.mp hc)
  rw [← List.sum_toFinset _ hnodup, ← Finset.inter_eq_right.mpr hsub, ← Finset.sum_ite_mem,
    ← Finset.sum_add_distrib]
  refine Finset.sum_le_sum fun c hc => ?_
  refine (Nat.mul_le_mul_right _ (hlen c hc)).trans ?_
  by_cases h : c ∈ pushed <;> simp [h, add_mul]

end Firing

end Torvyn.Graph
