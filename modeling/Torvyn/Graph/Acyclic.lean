/-
# Acyclic graphs

A graph is acyclic when no path returns to where it began.  On such a graph, and on
no other, Kahn's algorithm visits every vertex (`kahn_length_iff`): a vertex that
stays behind keeps an edge from another one that does, and following these edges
back would never end.
-/
import Torvyn.Graph.Adjacency
import Torvyn.Graph.Search

namespace Torvyn.Graph

open Relation

variable {α : Type*}

/-- No path returns to where it began. -/
def Acyclic (r : α → α → Prop) : Prop := ∀ v, ¬ TransGen r v v

/-- A walk along at least one edge that ends where it began. -/
structure ClosedWalk (r : α → α → Prop) (walk : List α) : Prop where
  edges : walk.IsChain r
  closed : walk.head? = walk.getLast?
  length : 2 ≤ walk.length

/-- In a finite acyclic graph every nonempty set has a vertex without predecessors in
the set. -/
theorem Acyclic.exists_first {r : α → α → Prop} (h : Acyclic r) {s : Finset α}
    (hs : s.Nonempty) : ∃ v ∈ s, ∀ u ∈ s, ¬ r u v := by
  let before : s → s → Prop := fun u v => TransGen r u.1 v.1
  have : IsTrans s before := ⟨fun _ _ _ huv hvw => huv.trans hvw⟩
  have : Std.Irrefl before := ⟨fun v => h v.1⟩
  obtain ⟨v₀, hv₀⟩ := hs
  obtain ⟨v, -, hmin⟩ :=
    (Finite.wellFounded_of_trans_of_irrefl before).has_min Set.univ ⟨⟨v₀, hv₀⟩, trivial⟩
  exact ⟨v.1, v.2, fun u hu huv => hmin ⟨u, hu⟩ trivial (.single huv)⟩

variable [DecidableEq α] {vs : List α} {succ : α → List α} {deg : α → ℕ}

/-- **A vertex on a cycle is never visited**: the position in the order would grow along the
cycle. -/
theorem not_mem_kahn_of_cycle (hvs : vs.Nodup) (hedge : ∀ u w, w ∈ succ u → u ∈ vs ∧ w ∈ vs)
    (hdeg : ∀ w, deg w = openDegree vs succ [] w) {v : α} (hcycle : TransGen (Edge succ) v v) :
    v ∉ kahn vs succ deg := by
  have hsucc : ∀ u ∈ vs, ∀ w ∈ succ u, w ∈ vs := fun u _ w hw => (hedge u w hw).2
  have hgrows : ∀ u w, TransGen (Edge succ) u w → w ∈ kahn vs succ deg → u ∈ kahn vs succ deg ∧
      (kahn vs succ deg).idxOf u < (kahn vs succ deg).idxOf w := by
    intro u w hpath
    induction hpath using TransGen.head_induction_on with
    | single huw =>
      exact fun hw => kahn_idxOf_lt_of_mem hvs hsucc hdeg hw (hedge _ _ huw).1 huw
    | head huv _ ih =>
      intro hw
      obtain ⟨hv, hlt⟩ := ih hw
      obtain ⟨hu, hfirst⟩ := kahn_idxOf_lt_of_mem hvs hsucc hdeg hv (hedge _ _ huv).1 huv
      exact ⟨hu, hfirst.trans hlt⟩
  exact fun hv => Nat.lt_irrefl _ (hgrows v v hcycle hv).2

/-- **Kahn's algorithm visits all vertices of the acyclic graphs, and of no others.** -/
theorem kahn_length_iff (hvs : vs.Nodup) (hedge : ∀ u w, w ∈ succ u → u ∈ vs ∧ w ∈ vs)
    (hdeg : ∀ w, deg w = openDegree vs succ [] w) :
    (kahn vs succ deg).length = vs.length ↔ Acyclic (Edge succ) := by
  have hsucc : ∀ u ∈ vs, ∀ w ∈ succ u, w ∈ vs := fun u _ w hw => (hedge u w hw).2
  constructor
  · intro hlength v hcycle
    apply not_mem_kahn_of_cycle hvs hedge hdeg hcycle
    obtain ⟨w, hvw, -⟩ := TransGen.head'_iff.mp hcycle
    exact (kahn_perm hvs hsucc hdeg hlength).mem_iff.mpr (hedge v w hvw).1
  · intro hacyclic
    obtain ⟨deg', hinv⟩ := kahn_inv hvs hsucc hdeg
    have hall : ∀ v ∈ vs, v ∈ kahn vs succ deg := by
      by_contra hne
      push Not at hne
      obtain ⟨v₀, hv₀, hnot₀⟩ := hne
      have hleft : v₀ ∈ vs.toFinset \ (kahn vs succ deg).toFinset := by simp [hv₀, hnot₀]
      obtain ⟨v, hv, hfirst⟩ := hacyclic.exists_first ⟨v₀, hleft⟩
      obtain ⟨hmem, hnot⟩ := Finset.mem_sdiff.mp hv
      have hpos : deg' v ≠ 0 := fun hzero => by
        have hin := (hinv.zero v (List.mem_toFinset.mp hmem)).mpr hzero
        rw [List.append_nil] at hin
        exact hnot (List.mem_toFinset.mpr hin)
      rw [hinv.degree v] at hpos
      obtain ⟨u, hu, hcount⟩ := Finset.exists_ne_zero_of_sum_ne_zero hpos
      exact hfirst u hu (List.count_pos_iff.mp (Nat.pos_of_ne_zero hcount))
    refine Nat.le_antisymm ?_ ?_
    · exact ((kahn_nodup hvs hsucc hdeg).subperm (kahn_subset hvs hsucc hdeg)).length_le
    · exact (hvs.subperm hall).length_le

end Torvyn.Graph
