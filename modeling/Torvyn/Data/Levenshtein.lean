/-
# The Levenshtein distance

The least number of single edits (an element inserted, deleted or replaced) that turn one list
into another.  `levenshtein` computes it from the fronts of the lists, `isLeast_levenshtein` says
that it is the least, and `levenshtein_concat` is the recursion of the table from which it is
usually computed.
-/
import Mathlib

namespace Torvyn

variable {α : Type*}

/-- One edit. -/
inductive Edit : List α → List α → Prop
  | insert (xs ys : List α) (a : α) : Edit (xs ++ ys) (xs ++ a :: ys)
  | delete (xs ys : List α) (a : α) : Edit (xs ++ a :: ys) (xs ++ ys)
  | replace (xs ys : List α) (a b : α) : Edit (xs ++ a :: ys) (xs ++ b :: ys)

/-- Several edits, one after the other. -/
inductive Edits : ℕ → List α → List α → Prop
  | none (xs : List α) : Edits 0 xs xs
  | cons {n : ℕ} {xs ys zs : List α} : Edit xs ys → Edits n ys zs → Edits (n + 1) xs zs

namespace Edit

variable {xs ys : List α}

theorem cons (a : α) (h : Edit xs ys) : Edit (a :: xs) (a :: ys) := by
  cases h with
  | insert xs ys b => exact insert (a :: xs) ys b
  | delete xs ys b => exact delete (a :: xs) ys b
  | replace xs ys b c => exact replace (a :: xs) ys b c

theorem reverse (h : Edit xs ys) : Edit xs.reverse ys.reverse := by
  cases h with
  | insert xs ys b => simpa using insert ys.reverse xs.reverse b
  | delete xs ys b => simpa using delete ys.reverse xs.reverse b
  | replace xs ys b c => simpa using replace ys.reverse xs.reverse b c

end Edit

namespace Edits

variable {n : ℕ} {xs ys : List α}

theorem lift (a : α) (h : Edits n xs ys) : Edits n (a :: xs) (a :: ys) := by
  induction h with
  | none xs => exact none _
  | cons hedit _ ih => exact cons (hedit.cons a) ih

theorem reverse (h : Edits n xs ys) : Edits n xs.reverse ys.reverse := by
  induction h with
  | none xs => exact none _
  | cons hedit _ ih => exact cons hedit.reverse ih

theorem reverse_iff : Edits n xs.reverse ys.reverse ↔ Edits n xs ys :=
  ⟨fun h => by simpa using h.reverse, reverse⟩

/-- All elements can be inserted. -/
theorem of_nil (ys : List α) : Edits ys.length [] ys := by
  induction ys with
  | nil => exact none _
  | cons y ys ih => exact cons (Edit.insert [] [] y) (ih.lift y)

/-- All elements can be deleted. -/
theorem to_nil (xs : List α) : Edits xs.length xs [] := by
  induction xs with
  | nil => exact none _
  | cons x xs ih => exact cons (Edit.delete [] xs x) ih

end Edits

/-! ## The recursion -/

section Levenshtein

variable [DecidableEq α]

/-- The Levenshtein distance of two lists. -/
def levenshtein : List α → List α → ℕ
  | [], ys => ys.length
  | xs, [] => xs.length
  | x :: xs, y :: ys =>
      min (levenshtein xs ys + if x = y then 0 else 1)
        (min (levenshtein xs (y :: ys) + 1) (levenshtein (x :: xs) ys + 1))
  termination_by xs ys => xs.length + ys.length

variable {x y : α} {xs ys zs : List α}

@[simp] theorem levenshtein_nil_left : levenshtein [] ys = ys.length := by
  rw [levenshtein]

@[simp] theorem levenshtein_nil_right : levenshtein xs [] = xs.length := by
  cases xs with
  | nil => rw [levenshtein]
  | cons x xs =>
    rw [levenshtein]
    simp

theorem levenshtein_cons : levenshtein (x :: xs) (y :: ys) =
    min (levenshtein xs ys + if x = y then 0 else 1)
      (min (levenshtein xs (y :: ys) + 1) (levenshtein (x :: xs) ys + 1)) := by
  rw [levenshtein]

/-- **That many edits suffice.** -/
theorem edits_levenshtein (xs ys : List α) : Edits (levenshtein xs ys) xs ys := by
  induction xs, ys using levenshtein.induct with
  | case1 ys => simpa using Edits.of_nil ys
  | case2 xs _ => simpa using Edits.to_nil xs
  | case3 x xs y ys hboth hleft hright =>
    have hsame : Edits (levenshtein xs ys + if x = y then 0 else 1) (x :: xs) (y :: ys) := by
      split
      · rename_i h
        rw [h]
        exact hboth.lift y
      · exact .cons (Edit.replace [] xs x y) (hboth.lift y)
    rw [levenshtein_cons]
    rcases min_choice (levenshtein xs ys + if x = y then 0 else 1)
      (min (levenshtein xs (y :: ys) + 1) (levenshtein (x :: xs) ys + 1)) with h | h
    · rw [h]
      exact hsame
    · rw [h]
      rcases min_choice (levenshtein xs (y :: ys) + 1) (levenshtein (x :: xs) ys + 1) with h | h
      · rw [h]
        exact .cons (Edit.delete [] xs x) hleft
      · rw [h]
        exact .cons (Edit.insert [] (x :: xs) y) (hright.lift y)

/-! ## No fewer edits suffice -/

@[simp] theorem levenshtein_self (xs : List α) : levenshtein xs xs = 0 := by
  induction xs with
  | nil => simp
  | cons x xs ih => simp [levenshtein_cons, ih]

theorem levenshtein_cons_left_le : levenshtein (x :: xs) ys ≤ levenshtein xs ys + 1 := by
  cases ys with
  | nil => simp
  | cons y ys =>
    rw [levenshtein_cons]
    exact (min_le_right _ _).trans (min_le_left _ _)

theorem levenshtein_cons_right_le : levenshtein xs (y :: ys) ≤ levenshtein xs ys + 1 := by
  cases xs with
  | nil => simp
  | cons x xs =>
    rw [levenshtein_cons]
    exact (min_le_right _ _).trans (min_le_right _ _)

theorem levenshtein_cons_cons_le : levenshtein (x :: xs) (y :: ys) ≤ levenshtein xs ys + 1 := by
  rw [levenshtein_cons]
  refine (min_le_left _ _).trans (Nat.add_le_add_left ?_ _)
  split <;> omega

/-- Deleting the first element saves at most one edit. -/
theorem le_levenshtein_cons_left (x : α) (xs ys : List α) :
    levenshtein xs ys ≤ levenshtein (x :: xs) ys + 1 := by
  induction ys with
  | nil =>
    simp only [levenshtein_nil_right, List.length_cons]
    omega
  | cons y ys ih =>
    have hright : levenshtein xs (y :: ys) ≤ levenshtein xs ys + 1 := levenshtein_cons_right_le
    rw [@levenshtein_cons _ _ x y]
    omega

/-- Replacing the first element saves at most one edit. -/
theorem levenshtein_replace_le (a b : α) (xs ys : List α) :
    levenshtein (a :: xs) ys ≤ levenshtein (b :: xs) ys + 1 := by
  induction ys with
  | nil => simp
  | cons y ys ih =>
    have hleft : levenshtein (a :: xs) (y :: ys) ≤ levenshtein xs (y :: ys) + 1 :=
      levenshtein_cons_left_le
    have hright : levenshtein (a :: xs) (y :: ys) ≤ levenshtein (a :: xs) ys + 1 :=
      levenshtein_cons_right_le
    have hboth : levenshtein (a :: xs) (y :: ys) ≤ levenshtein xs ys + 1 :=
      levenshtein_cons_cons_le
    rw [@levenshtein_cons _ _ b y]
    omega

/-- What saves at most one edit does so behind a common front. -/
theorem levenshtein_cons_le {us vs : List α}
    (h : ∀ ys, levenshtein us ys ≤ levenshtein vs ys + 1) (x : α) (ys : List α) :
    levenshtein (x :: us) ys ≤ levenshtein (x :: vs) ys + 1 := by
  induction ys with
  | nil =>
    have hnil := h []
    simp only [levenshtein_nil_right, List.length_cons] at hnil ⊢
    omega
  | cons y ys ih =>
    have hboth := h ys
    have hleft := h (y :: ys)
    rw [levenshtein_cons, levenshtein_cons]
    omega

/-- **One edit saves at most one edit.** -/
theorem Edit.levenshtein_le (h : Edit xs ys) (zs : List α) :
    levenshtein xs zs ≤ levenshtein ys zs + 1 := by
  cases h with
  | insert front back a =>
    induction front generalizing zs with
    | nil => exact le_levenshtein_cons_left a back zs
    | cons x front ih => exact levenshtein_cons_le ih x zs
  | delete front back a =>
    induction front generalizing zs with
    | nil => exact levenshtein_cons_left_le
    | cons x front ih => exact levenshtein_cons_le ih x zs
  | replace front back a b =>
    induction front generalizing zs with
    | nil => exact levenshtein_replace_le a b back zs
    | cons x front ih => exact levenshtein_cons_le ih x zs

theorem Edits.levenshtein_le {n : ℕ} (h : Edits n xs ys) : levenshtein xs ys ≤ n := by
  induction h with
  | none xs => exact (levenshtein_self xs).le
  | cons hedit _ ih => exact (hedit.levenshtein_le _).trans (Nat.succ_le_succ ih)

/-- **The Levenshtein distance is the least number of edits.** -/
theorem isLeast_levenshtein (xs ys : List α) :
    IsLeast {n | Edits n xs ys} (levenshtein xs ys) :=
  ⟨edits_levenshtein xs ys, fun _ h => Edits.levenshtein_le h⟩

/-! ## From the ends of the lists -/

theorem levenshtein_reverse (xs ys : List α) :
    levenshtein xs.reverse ys.reverse = levenshtein xs ys := by
  refine (isLeast_levenshtein _ _).unique ?_
  simp only [Edits.reverse_iff]
  exact isLeast_levenshtein xs ys

/-- **The recursion of the table**: the entry of two prefixes, from the entries next to it. -/
theorem levenshtein_concat (xs ys : List α) (x y : α) :
    levenshtein (xs ++ [x]) (ys ++ [y]) =
      min (levenshtein xs ys + if x = y then 0 else 1)
        (min (levenshtein xs (ys ++ [y]) + 1) (levenshtein (xs ++ [x]) ys + 1)) := by
  have hcons := @levenshtein_cons _ _ x y xs.reverse ys.reverse
  rw [← levenshtein_reverse, ← levenshtein_reverse xs ys,
    ← levenshtein_reverse xs (ys ++ [y]),
    ← levenshtein_reverse (xs ++ [x]) ys]
  simpa using hcons

end Levenshtein

end Torvyn
