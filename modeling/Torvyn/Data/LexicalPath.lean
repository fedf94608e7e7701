/-
# Lexical resolution of paths

A path is cut into components at its separators; an empty component and the name of
the current directory lead nowhere, and one name `up` leads back to the parent.
Resolution walks along the components, keeping the directory reached so far; at the
root, `up` stays there.  A relative walk has a normal form: how far it climbs above
its start, and what it then descends into (`walk_eq_relative`).
-/
import Mathlib
import Torvyn.Text

namespace Torvyn.LexicalPath

/-! ## Components -/

section Components

variable {α : Type*} [DecidableEq α]

/-- The components of a path between the separators `sep`, without empty ones and
without the name `here` of the current directory. -/
def components (sep : α) (here : List α) (path : List α) : List (List α) :=
  (path.splitOn sep).filter fun c => c ≠ [] ∧ c ≠ here

variable {sep : α} {here : List α}

@[simp] theorem components_nil : components sep here [] = [] := by
  simp [components, List.splitOn_nil]

/-- The components before and after a separator. -/
theorem components_append_sep (p q : List α) :
    components sep here (p ++ sep :: q) = components sep here p ++ components sep here q := by
  rw [components, List.splitOn_append_cons_self, List.filter_append]
  rfl

/-- A separator in front adds no component. -/
theorem components_sep_cons (q : List α) :
    components sep here (sep :: q) = components sep here q := by
  have h : components sep here ([] ++ sep :: q) = components sep here [] ++ _ :=
    components_append_sep [] q
  rwa [List.nil_append, components_nil, List.nil_append] at h

/-- A component contains no separator. -/
theorem not_mem_of_mem_components {path c : List α} (h : c ∈ components sep here path) :
    sep ∉ c :=
  not_mem_of_mem_splitOn path c (List.mem_of_mem_filter h)

/-- A name without separator, which leads somewhere, is its own component. -/
theorem components_eq_singleton {name : List α} (hsep : sep ∉ name) (hne : name ≠ [])
    (hhere : name ≠ here) : components sep here name = [name] := by
  rw [components, List.splitOn_eq_singleton hsep]
  simp [hne, hhere]

end Components

/-! ## Walks -/

section Walks

variable {α : Type*} [DecidableEq α] (up : α)

/-- The directory reached from `dir` through one component. -/
def enter (dir : List α) (c : α) : List α :=
  if c = up then dir.dropLast else dir ++ [c]

/-- The directory reached from `dir` through all components. -/
def walk (dir cs : List α) : List α := cs.foldl (enter up) dir

/-- What one component does to a relative walk: how many levels it has climbed above
its start, and the names it has descended into since. -/
def climb (r : ℕ × List α) (c : α) : ℕ × List α :=
  if c = up then
    if r.2 = [] then (r.1 + 1, []) else (r.1, r.2.dropLast)
  else (r.1, r.2 ++ [c])

/-- The normal form of a relative walk. -/
def relative (cs : List α) : ℕ × List α := cs.foldl (climb up) (0, [])

/-- Where a relative walk with the normal form `r` leads from `dir`. -/
def land (dir : List α) (r : ℕ × List α) : List α := dir.take (dir.length - r.1) ++ r.2

theorem walk_append (dir cs ds : List α) :
    walk up dir (cs ++ ds) = walk up (walk up dir cs) ds :=
  List.foldl_append

/-- One component changes the landing place as it changes the directory. -/
theorem land_climb (dir : List α) (r : ℕ × List α) (c : α) :
    land dir (climb up r c) = enter up (land dir r) c := by
  obtain ⟨n, tail⟩ := r
  unfold climb enter land
  by_cases hc : c = up
  · rw [if_pos hc, if_pos hc]
    by_cases ht : tail = []
    · -- the walk climbs above everything it has descended into
      subst ht
      rw [if_pos rfl, List.append_nil, List.append_nil, List.dropLast_eq_take, List.take_take,
        List.length_take]
      congr 1
      omega
    · rw [if_neg ht, List.dropLast_append_of_ne_nil ht]
  · rw [if_neg hc, if_neg hc, List.append_assoc]

/-- **A walk leads where its normal form says.** -/
theorem walk_eq_relative (dir cs : List α) : walk up dir cs = land dir (relative up cs) := by
  have hrun : ∀ r : ℕ × List α,
      cs.foldl (enter up) (land dir r) = land dir (cs.foldl (climb up) r) := by
    induction cs with
    | nil => exact fun _ => rfl
    | cons c cs ih =>
        intro r
        rw [List.foldl_cons, List.foldl_cons, ← land_climb, ih]
  have hstart : land dir (0, []) = dir := by simp [land]
  have h := hrun (0, [])
  rw [hstart] at h
  exact h

/-- The walk from `dir` ends at or below `dir`: what it climbs out of, it descends
into again. -/
def Returns (dir cs : List α) : Prop :=
  dir.drop (dir.length - (relative up cs).1) <+: (relative up cs).2

instance (dir cs : List α) : Decidable (Returns up dir cs) :=
  inferInstanceAs (Decidable (_ <+: _))

/-- A walk returns exactly when it ends below its start. -/
theorem returns_iff {dir cs : List α} : Returns up dir cs ↔ dir <+: walk up dir cs := by
  rw [walk_eq_relative, land, Returns]
  conv_rhs => lhs; rw [← List.take_append_drop (dir.length - (relative up cs).1) dir]
  exact (List.prefix_append_right_inj _).symm

/-- A walk that never climbs above its start returns. -/
theorem returns_of_climb_eq_zero {dir cs : List α} (h : (relative up cs).1 = 0) :
    Returns up dir cs := by
  simp [Returns, h]

/-- From the root every walk returns. -/
theorem returns_root (cs : List α) : Returns up [] cs := by
  simp [Returns]

end Walks

end Torvyn.LexicalPath
