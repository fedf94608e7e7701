/-
# Ranks

Where the elements of a sorted list fall when a monotone function sorts them into classes: an
element comes before the count of a class and of those below it exactly if it belongs to one of
them.
-/
import Mathlib

namespace Torvyn

namespace Ranks

variable {α : Type*}

/-- An element of a sorted list stands before the count of the elements that are no greater than
a bound exactly if it is one of them. -/
theorem lt_countP_iff {f : α → ℕ} {s : List α} (hs : s.Pairwise fun a b => f a ≤ f b) {k : ℕ}
    {a : α} (hk : s[k]? = some a) (bound : ℕ) :
    k < s.countP (fun a => decide (f a ≤ bound)) ↔ f a ≤ bound := by
  induction s generalizing k with
  | nil => cases hk
  | cons b s ih =>
      obtain ⟨hb, hs⟩ := List.pairwise_cons.mp hs
      by_cases hle : f b ≤ bound
      · rw [List.countP_cons_of_pos (by simpa using hle)]
        cases k with
        | zero =>
            rw [List.getElem?_cons_zero, Option.some.injEq] at hk
            subst hk
            exact iff_of_true (Nat.succ_pos _) hle
        | succ k =>
            rw [List.getElem?_cons_succ] at hk
            rw [Nat.add_lt_add_iff_right, ih hs hk]
      · -- the first element is too great, and so are all others
        have hnone : (b :: s).countP (fun a => decide (f a ≤ bound)) = 0 := by
          rw [List.countP_eq_zero]
          intro c hc
          rcases List.mem_cons.mp hc with rfl | hc
          · simpa using hle
          · have := hb c hc
            simp only [decide_eq_true_eq]
            omega
        have ha : ¬f a ≤ bound := by
          rcases List.mem_cons.mp (List.mem_of_getElem? hk) with rfl | hmem
          · exact hle
          · have := hb a hmem
            omega
        rw [hnone]
        exact iff_of_false (Nat.not_lt_zero k) ha

/-- The elements below a bound and those that reach it. -/
theorem countP_lt_succ (f : α → ℕ) (s : List α) (bound : ℕ) :
    s.countP (fun a => decide (f a < bound + 1)) =
      s.countP (fun a => decide (f a < bound)) + s.countP fun a => decide (f a = bound) := by
  induction s with
  | nil => rfl
  | cons a s ih =>
      simp only [List.countP_cons, decide_eq_true_eq, ih]
      split_ifs
      all_goals omega

/-- The classes below a bound have the elements below it. -/
theorem sum_countP_range (f : α → ℕ) (s : List α) (bound : ℕ) :
    ((List.range bound).map fun i => s.countP fun a => decide (f a = i)).sum =
      s.countP fun a => decide (f a < bound) := by
  induction bound with
  | zero => simp
  | succ bound ih =>
      rw [List.range_succ, List.map_append, List.sum_append, ih, List.map_singleton,
        List.sum_singleton, countP_lt_succ]

end Ranks

end Torvyn
