/-
# Adjacency lists and degrees

Adjacency lists and in-degrees are built by one pass over the list of edges, an entry
at a time.  `bucket_apply` and `tally_apply` say what the finished tables hold, and
`openDegree_bucket` that the degrees so counted are those Kahn's algorithm starts
from.
-/
import Torvyn.Graph.Kahn

namespace Torvyn.Graph

variable {α β γ : Type*} [DecidableEq α]

/-- Append the value of each item to the list kept under the item's key. -/
def bucket (key : β → α) (val : β → γ) (items : List β) : α → List γ :=
  items.foldl (fun table x => Function.update table (key x) (table (key x) ++ [val x])) fun _ => []

/-- Count the items of each key. -/
def tally (key : β → α) (items : List β) : α → ℕ :=
  items.foldl (fun table x => Function.update table (key x) (table (key x) + 1)) fun _ => 0

/-- A key's list holds the values of its items in order. -/
theorem bucket_apply (key : β → α) (val : β → γ) (items : List β) (a : α) :
    bucket key val items a = (items.filter fun x => key x = a).map val := by
  suffices h : ∀ table : α → List γ,
      items.foldl (fun table x => Function.update table (key x) (table (key x) ++ [val x])) table a
        = table a ++ (items.filter fun x => key x = a).map val by
    have h0 := h fun _ => []
    simpa [bucket] using h0
  induction items with
  | nil => simp
  | cons x items ih =>
      intro table
      rw [List.foldl_cons, ih, List.filter_cons]
      by_cases hx : key x = a
      · simp [hx]
      · simp [hx, Function.update_of_ne (Ne.symm hx)]

/-- A value is in a key's list when some item has both. -/
theorem mem_bucket {key : β → α} {val : β → γ} {items : List β} {a : α} {c : γ} :
    c ∈ bucket key val items a ↔ ∃ x ∈ items, key x = a ∧ val x = c := by
  simp [bucket_apply, and_assoc]

/-- A key's count is the number of its items. -/
theorem tally_apply (key : β → α) (items : List β) (a : α) :
    tally key items a = items.countP fun x => key x = a := by
  suffices h : ∀ table : α → ℕ,
      items.foldl (fun table x => Function.update table (key x) (table (key x) + 1)) table a
        = table a + items.countP fun x => key x = a by
    have h0 := h fun _ => 0
    simpa [tally] using h0
  induction items with
  | nil => simp
  | cons x items ih =>
      intro table
      rw [List.foldl_cons, ih, List.countP_cons]
      by_cases hx : key x = a
      · simp [hx]
        omega
      · simp [hx, Function.update_of_ne (Ne.symm hx)]

/-- A limit on the counts of the keys that occur is a limit on the items of any key. -/
theorem forall_tally_le_iff {key : β → α} {items : List β} {limit : ℕ} :
    (∀ a ∈ items.map key, tally key items a ≤ limit) ↔
      ∀ a, (items.countP fun x => key x = a) ≤ limit := by
  simp only [tally_apply]
  constructor
  · intro h a
    by_cases ha : a ∈ items.map key
    · exact h a ha
    · have hzero : (items.countP fun x => key x = a) = 0 := by
        rw [List.countP_eq_zero]
        intro x hx heq
        exact ha (List.mem_map.mpr ⟨x, hx, of_decide_eq_true heq⟩)
      omega
  · exact fun h a _ => h a

/-- **The counted in-degrees are the open degrees of an unvisited graph**, when every
edge starts at a vertex. -/
theorem openDegree_bucket {src dst : β → α} {edges : List β} {vs : List α}
    (hsrc : ∀ e ∈ edges, src e ∈ vs) (w : α) :
    tally dst edges w = openDegree vs (bucket src dst edges) [] w := by
  rw [tally_apply]
  simp only [openDegree, bucket_apply, List.toFinset_nil, Finset.sdiff_empty]
  induction edges with
  | nil => simp
  | cons e edges ih =>
      have he : src e ∈ vs.toFinset := List.mem_toFinset.mpr (hsrc e List.mem_cons_self)
      have hstep : ∀ u, ((List.filter (fun x => src x = u) (e :: edges)).map dst).count w =
          (if u = src e then (if dst e = w then 1 else 0) else 0)
            + ((edges.filter fun x => src x = u).map dst).count w := by
        intro u
        rw [List.filter_cons]
        by_cases hu : src e = u
        · subst hu
          simp [List.count_cons, Nat.add_comm]
        · simp [hu, Ne.symm hu]
      rw [List.countP_cons, ih fun x hx => hsrc x (List.mem_cons_of_mem _ hx)]
      simp only [hstep, Finset.sum_add_distrib, Finset.sum_ite_eq', he, if_true]
      simp only [decide_eq_true_eq]
      omega

end Torvyn.Graph
