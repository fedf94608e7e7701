/-
# Linked free lists

A free list is threaded through the cells of an array. `next i` is the link that cell `i`
holds, `none` when the cell holds no link, and `last` is the sentinel that ends the list.
-/
import Mathlib

namespace Torvyn

/-- Following the links from `head` visits the cells of `l` and ends at the sentinel. -/
inductive Chain {ι : Type*} (next : ι → Option ι) (last : ι) : ι → List ι → Prop where
  | nil : Chain next last last []
  | cons {i j : ι} {l : List ι} :
      i ≠ last → next i = some j → Chain next last j l → Chain next last i (i :: l)

/-- The cells of `l`, without repetition, are the free list that starts at `head`. -/
structure FreeList {ι : Type*} (next : ι → Option ι) (last head : ι) (l : List ι) : Prop where
  chain : Chain next last head l
  nodup : l.Nodup

namespace Chain

variable {ι : Type*} {next next' : ι → Option ι} {last head : ι} {l : List ι}

/-- Every cell of the list holds a link. -/
theorem linked (h : Chain next last head l) : ∀ i ∈ l, (next i).isSome := by
  induction h with
  | nil => simp
  | cons _ hnext _ ih =>
    intro i hi
    rcases List.mem_cons.1 hi with rfl | hi
    · simp [hnext]
    · exact ih i hi

/-- The list does not depend on cells outside it. -/
theorem congr (h : Chain next last head l) (hnext : ∀ i ∈ l, next' i = next i) :
    Chain next' last head l := by
  induction h with
  | nil => exact .nil
  | @cons i j l hi hj _ ih =>
    refine .cons hi ?_ (ih fun k hk => hnext k (List.mem_cons_of_mem _ hk))
    rw [hnext i List.mem_cons_self, hj]

/-- The sentinel starts the empty list only. -/
theorem eq_nil (h : Chain next last last l) : l = [] := by
  cases h with
  | nil => rfl
  | cons hne _ _ => exact absurd rfl hne

/-- Another head is the first cell of the list. -/
theorem pop (h : Chain next last head l) (hne : head ≠ last) :
    ∃ j rest, next head = some j ∧ l = head :: rest ∧ Chain next last j rest := by
  cases h with
  | nil => exact absurd rfl hne
  | cons _ hj hrest => exact ⟨_, _, hj, rfl, hrest⟩

/-- The links determine the list. -/
theorem unique {l' : List ι} (h : Chain next last head l) (h' : Chain next last head l') :
    l = l' := by
  induction h generalizing l' with
  | nil => exact h'.eq_nil.symm
  | cons hne hj _ ih =>
    obtain ⟨j', rest, hj', rfl, hrest⟩ := h'.pop hne
    obtain rfl := Option.some.inj (hj.symm.trans hj')
    rw [ih hrest]

/-- Cells `a, …, n - 1`, each linked to its successor and the last one to the sentinel. -/
theorem range' {next : ℕ → Option ℕ} {last a n : ℕ} (hn : n ≤ last)
    (hnext : ∀ i, a ≤ i → i < n → next i = some (if i + 1 < n then i + 1 else last)) :
    Chain next last (if a < n then a else last) (List.range' a (n - a)) := by
  induction hk : n - a generalizing a with
  | zero =>
    rw [if_neg (by omega)]
    exact .nil
  | succ k ih =>
    rw [if_pos (by omega), List.range'_succ]
    refine .cons (by omega) (hnext a le_rfl (by omega)) ?_
    exact ih (fun i hi => hnext i (by omega)) (by omega)

end Chain

namespace FreeList

variable {ι : Type*} {next next' : ι → Option ι} {last head : ι} {l : List ι}

/-- The free list does not depend on cells outside it. -/
theorem congr (h : FreeList next last head l) (hnext : ∀ i ∈ l, next' i = next i) :
    FreeList next' last head l :=
  ⟨h.chain.congr hnext, h.nodup⟩

/-- The links determine the free list. -/
theorem unique {l' : List ι} (h : FreeList next last head l) (h' : FreeList next last head l') :
    l = l' :=
  h.chain.unique h'.chain

/-- A cell outside the list becomes its first cell when it is linked to the old head. -/
theorem push {i : ι} (h : FreeList next last head l) (hi : i ∉ l) (hlast : i ≠ last)
    (hlink : next' i = some head) (hnext : ∀ j, j ≠ i → next' j = next j) :
    FreeList next' last i (i :: l) := by
  refine ⟨.cons hlast hlink (h.chain.congr fun j hj => hnext j ?_), List.nodup_cons.2 ⟨hi, h.nodup⟩⟩
  rintro rfl
  exact hi hj

/-- Taking the first cell leaves the rest, which no longer holds it. -/
theorem pop (h : FreeList next last head l) (hne : head ≠ last) :
    ∃ j rest, next head = some j ∧ l = head :: rest ∧ head ∉ rest ∧
      FreeList next last j rest := by
  obtain ⟨j, rest, hj, rfl, hrest⟩ := h.chain.pop hne
  have hnodup := List.nodup_cons.1 h.nodup
  exact ⟨j, rest, hj, rfl, hnodup.1, hrest, hnodup.2⟩

/-- A run of fresh cells, each linked to its successor, is a free list. -/
theorem range' (next : ℕ → Option ℕ) {last : ℕ} (a : ℕ) {n : ℕ} (hn : n ≤ last)
    (hnext : ∀ i, a ≤ i → i < n → next i = some (if i + 1 < n then i + 1 else last)) :
    FreeList next last (if a < n then a else last) (List.range' a (n - a)) :=
  ⟨Chain.range' hn hnext, List.nodup_range'⟩

end FreeList

end Torvyn
