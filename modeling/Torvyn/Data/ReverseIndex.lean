/-
# Reverse indices

A collection of entries, each under an id of its own, and an index that lists for each key
the ids of the entries with that key. An entry may have no key, and is then not listed.
-/
import Mathlib

namespace Torvyn

variable {ι α κ : Type*}

/-- For each key, `index` holds exactly the ids of the entries with that key. -/
def Indexes (live : List (ι × α)) (key : α → Option κ) (index : κ → Finset ι) : Prop :=
  ∀ k i, i ∈ index k ↔ ∃ a, (i, a) ∈ live ∧ key a = some k

namespace Index

variable [DecidableEq ι] [DecidableEq κ]

/-- List `i` under the key, if there is one. -/
def add (index : κ → Finset ι) (key : Option κ) (i : ι) : κ → Finset ι :=
  match key with
  | none => index
  | some k => Function.update index k (insert i (index k))

/-- Drop `i` from the ids of the key, if there is one. -/
def remove (index : κ → Finset ι) (key : Option κ) (i : ι) : κ → Finset ι :=
  match key with
  | none => index
  | some k => Function.update index k ((index k).erase i)

theorem mem_add {index : κ → Finset ι} {key : Option κ} {i j : ι} {k : κ} :
    j ∈ add index key i k ↔ (j = i ∧ key = some k) ∨ j ∈ index k := by
  cases key with
  | none => simp [add]
  | some k' =>
    by_cases hk : k = k'
    · subst hk
      simp [add]
    · simp [add, hk, Ne.symm hk]

theorem mem_remove {index : κ → Finset ι} {key : Option κ} {i j : ι} {k : κ} :
    j ∈ remove index key i k ↔ ¬(j = i ∧ key = some k) ∧ j ∈ index k := by
  cases key with
  | none => simp [remove]
  | some k' =>
    by_cases hk : k = k'
    · subst hk
      simp [remove]
    · simp [remove, hk, Ne.symm hk]

/-- Of a set with `i` first, removing `i` leaves the rest. -/
theorem remove_update_insert {index : κ → Finset ι} {k : κ} {i : ι} {s : Finset ι}
    (hi : i ∉ s) :
    remove (Function.update index k (insert i s)) (some k) i = Function.update index k s := by
  simp [remove, Finset.erase_insert hi]

end Index

namespace Indexes

variable {live live' : List (ι × α)} {key : α → Option κ} {index : κ → Finset ι}

/-- The empty collection is indexed by empty sets. -/
theorem nil : Indexes ([] : List (ι × α)) key fun _ => ∅ := by
  simp [Indexes]

/-- The order of the entries does not matter. -/
theorem perm (h : Indexes live key index) (hperm : live.Perm live') :
    Indexes live' key index := by
  intro k i
  rw [h k i]
  simp only [hperm.mem_iff]

/-- An entry that changes but keeps its key stays where it is. -/
theorem congr_key {i : ι} {a b : α} (h : Indexes ((i, a) :: live) key index)
    (hkey : key b = key a) : Indexes ((i, b) :: live) key index := by
  intro k j
  rw [h k j]
  simp only [List.mem_cons, Prod.mk.injEq, or_and_right, exists_or, and_assoc,
    exists_and_left, exists_eq_left, hkey]

/-- The set of one key, put aside and back. -/
theorem update_self [DecidableEq κ] (h : Indexes live key index) (k : κ) :
    Indexes live key (Function.update (Function.update index k ∅) k (index k)) := by
  rwa [Function.update_idem, Function.update_eq_self]

variable [DecidableEq ι] [DecidableEq κ]

/-- A new entry is listed under its key. -/
theorem add (h : Indexes live key index) (i : ι) (a : α) :
    Indexes ((i, a) :: live) key (Index.add index (key a) i) := by
  intro k j
  rw [Index.mem_add, h k j]
  constructor
  · rintro (⟨rfl, hk⟩ | ⟨b, hb, hk⟩)
    · exact ⟨a, List.mem_cons_self, hk⟩
    · exact ⟨b, List.mem_cons_of_mem _ hb, hk⟩
  · rintro ⟨b, hb, hk⟩
    rcases List.mem_cons.1 hb with heq | hb
    · obtain ⟨rfl, rfl⟩ := Prod.mk.inj heq
      exact .inl ⟨rfl, hk⟩
    · exact .inr ⟨b, hb, hk⟩

/-- An entry that leaves is dropped from the ids of its key. -/
theorem remove {i : ι} {a : α} (h : Indexes ((i, a) :: live) key index)
    (hi : i ∉ live.map Prod.fst) : Indexes live key (Index.remove index (key a) i) := by
  have hother : ∀ b, (i, b) ∉ live := fun b hb => hi (List.mem_map_of_mem hb)
  intro k j
  rw [Index.mem_remove, h k j]
  constructor
  · rintro ⟨hne, b, hb, hk⟩
    rcases List.mem_cons.1 hb with heq | hb
    · obtain ⟨rfl, rfl⟩ := Prod.mk.inj heq
      exact absurd ⟨rfl, hk⟩ hne
    · exact ⟨b, hb, hk⟩
  · rintro ⟨b, hb, hk⟩
    refine ⟨?_, b, List.mem_cons_of_mem _ hb, hk⟩
    rintro ⟨rfl, -⟩
    exact hother b hb

/-- An entry whose key changes is moved from one set to the other. -/
theorem rekey {i : ι} {a : α} (h : Indexes ((i, a) :: live) key index)
    (hi : i ∉ live.map Prod.fst) (b : α) :
    Indexes ((i, b) :: live) key (Index.add (Index.remove index (key a) i) (key b) i) :=
  (h.remove hi).add i b

end Indexes

end Torvyn
