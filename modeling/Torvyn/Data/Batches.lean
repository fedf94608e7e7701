/-
# Batches

Items that are laid into batches one after another: an item that would take a batch over a limit
opens the next one.  The batches hold the items in order and each of them once, what is closed
stays as it is, and a batch goes over the limit only when a single item does.
-/
import Mathlib

namespace Torvyn

/-- Batches that are closed, from the first to the last, and the one that is being filled. -/
structure Batches (α : Type*) where
  closed : List (List α)
  current : List α

namespace Batches

variable {α : Type*} {size : α → ℕ} {limit : ℕ} {batches : Batches α}

def empty : Batches α where
  closed := []
  current := []

/-- The size of a batch. -/
def total (size : α → ℕ) (batch : List α) : ℕ := (batch.map size).sum

/-- The items of all batches. -/
def items (batches : Batches α) : List α := batches.closed.flatten ++ batches.current

/-- An item more in the batch that is being filled. -/
def push (batches : Batches α) (item : α) : Batches α :=
  { batches with current := batches.current ++ [item] }

/-- The batch that is being filled is closed. -/
def close (batches : Batches α) : Batches α where
  closed := batches.closed ++ [batches.current]
  current := []

/-- An item is added, to a new batch if it is too large for what is left of the limit. -/
def add (size : α → ℕ) (limit : ℕ) (batches : Batches α) (item : α) : Batches α :=
  if limit < total size batches.current + size item then batches.close.push item
  else batches.push item

@[simp] theorem total_nil : total size [] = 0 := rfl

@[simp] theorem total_concat (batch : List α) (item : α) :
    total size (batch ++ [item]) = total size batch + size item := by
  simp [total]

/-! ## The items are kept -/

@[simp] theorem items_push (item : α) : (batches.push item).items = batches.items ++ [item] := by
  rw [items, items, push, List.append_assoc]

@[simp] theorem items_close : batches.close.items = batches.items := by
  simp [items, close]

@[simp] theorem items_add (item : α) :
    (batches.add size limit item).items = batches.items ++ [item] := by
  rw [add]
  split <;> simp

/-- The items in the order in which they were added. -/
theorem items_foldl_add (added : List α) :
    (added.foldl (add size limit) batches).items = batches.items ++ added := by
  induction added generalizing batches with
  | nil => simp
  | cons item added ih =>
    rw [List.foldl_cons, ih, items_add, List.append_assoc, List.singleton_append]

/-! ## What is closed stays -/

theorem closed_le_add (item : α) : batches.closed <+: (batches.add size limit item).closed := by
  rw [add]
  split
  · exact List.prefix_append _ _
  · exact List.prefix_rfl

theorem closed_le_foldl_add (added : List α) :
    batches.closed <+: (added.foldl (add size limit) batches).closed := by
  induction added generalizing batches with
  | nil => exact List.prefix_rfl
  | cons item added ih => exact (closed_le_add item).trans ih

/-! ## No batch is too large -/

/-- A batch is within the limit, or it is a single item that is not. -/
def Fits (size : α → ℕ) (limit : ℕ) (batch : List α) : Prop :=
  total size batch ≤ limit ∨ ∃ item, batch = [item] ∧ limit < size item

/-- No batch is too large. -/
def AllFit (size : α → ℕ) (limit : ℕ) (batches : Batches α) : Prop :=
  ∀ batch ∈ batches.closed ++ [batches.current], Fits size limit batch

theorem fits_nil : Fits size limit [] := .inl (Nat.zero_le _)

theorem fits_singleton (item : α) : Fits size limit [item] := by
  rcases le_or_gt (size item) limit with hle | hlt
  · left
    simpa [total] using hle
  · right
    exact ⟨item, rfl, hlt⟩

theorem allFit_empty : AllFit size limit (empty : Batches α) := by
  intro batch h
  rw [List.mem_singleton.mp h]
  exact fits_nil

theorem AllFit.add (h : AllFit size limit batches) (item : α) :
    AllFit size limit (batches.add size limit item) := by
  intro batch hbatch
  rw [Batches.add] at hbatch
  split at hbatch
  · rcases List.mem_append.mp hbatch with hclosed | hnew
    · exact h batch hclosed
    · rw [List.mem_singleton.mp hnew]
      exact fits_singleton item
  · rename_i hle
    rcases List.mem_append.mp hbatch with hclosed | hnew
    · exact h batch (List.mem_append_left _ hclosed)
    · rw [List.mem_singleton.mp hnew]
      left
      rw [push, total_concat]
      omega

theorem AllFit.foldl_add (h : AllFit size limit batches) (added : List α) :
    AllFit size limit (added.foldl (Batches.add size limit) batches) := by
  induction added generalizing batches with
  | nil => exact h
  | cons item added ih => exact ih (h.add item)

end Batches

end Torvyn
