/-
# Grouping by a key

A loop that pushes every element onto the list of its key, in a map whose keys are kept in order.
The keys ascend, each key has the elements of the list that have it, in their order, and some of the
groups together are the elements of their keys.
-/
import Mathlib

namespace Torvyn.Groups

variable {κ α : Type*} [LinearOrder κ]

/-- Push an element onto the list of its key. -/
def insertBy (key : α → κ) : List (κ × List α) → α → List (κ × List α)
  | [], a => [(key a, [a])]
  | (k, group) :: groups, a =>
      if key a < k then (key a, [a]) :: (k, group) :: groups
      else if key a = k then (k, group ++ [a]) :: groups
      else (k, group) :: insertBy key groups a

/-- The groups of a list. -/
def groupBy (key : α → κ) (items : List α) : List (κ × List α) := items.foldl (insertBy key) []

/-- Groups in the order of their keys. -/
def Ascending (groups : List (κ × List α)) : Prop := (groups.map Prod.fst).Pairwise (· < ·)

variable {key : α → κ} {groups : List (κ × List α)} {items : List α} {a : α}

/-! ## One element more -/

theorem mem_keys_insertBy {k : κ} : k ∈ (insertBy key groups a).map Prod.fst ↔
    k = key a ∨ k ∈ groups.map Prod.fst := by
  induction groups with
  | nil => simp [insertBy]
  | cons g groups ih =>
      obtain ⟨k', group⟩ := g
      unfold insertBy
      split_ifs with hlt heq
      · rw [List.map_cons, List.mem_cons]
      · subst heq
        simp only [List.map_cons, List.mem_cons]
        tauto
      · simp only [List.map_cons, List.mem_cons, ih]
        tauto

theorem Ascending.insertBy (h : Ascending groups) (a : α) :
    Ascending (insertBy key groups a) := by
  induction groups with
  | nil => exact List.pairwise_singleton _ _
  | cons g groups ih =>
      obtain ⟨k, group⟩ := g
      obtain ⟨hhead, htail⟩ := List.pairwise_cons.mp h
      unfold Groups.insertBy
      split_ifs with hlt heq
      · refine List.pairwise_cons.mpr ⟨fun k' hk' => ?_, h⟩
        rcases List.mem_cons.mp hk' with rfl | hk'
        · exact hlt
        · exact hlt.trans (hhead k' hk')
      · exact h
      · refine List.pairwise_cons.mpr ⟨fun k' hk' => ?_, ih htail⟩
        rcases mem_keys_insertBy.mp hk' with rfl | hk'
        · exact lt_of_le_of_ne (not_lt.mp hlt) (Ne.symm heq)
        · exact hhead k' hk'

/-- The group of the key gets the element, or is made for it; the other groups stay. -/
theorem mem_insertBy (h : Ascending groups) {k : κ} {group : List α}
    (hmem : (k, group) ∈ insertBy key groups a) :
    k ≠ key a ∧ (k, group) ∈ groups ∨ k = key a ∧
      ((∃ before, (k, before) ∈ groups ∧ group = before ++ [a]) ∨
        k ∉ groups.map Prod.fst ∧ group = [a]) := by
  induction groups with
  | nil =>
      obtain ⟨rfl, rfl⟩ := Prod.mk.inj (List.mem_singleton.mp hmem)
      exact .inr ⟨rfl, .inr ⟨List.not_mem_nil, rfl⟩⟩
  | cons g groups ih =>
      obtain ⟨k', group'⟩ := g
      obtain ⟨hhead, htail⟩ := List.pairwise_cons.mp h
      have hlater : ∀ {group : List α}, (k, group) ∈ groups → k' < k :=
        fun hmem => hhead k (List.mem_map_of_mem hmem)
      unfold insertBy at hmem
      split_ifs at hmem with hlt heq
      · rcases List.mem_cons.mp hmem with hnew | hmem
        · obtain ⟨rfl, rfl⟩ := Prod.mk.inj hnew
          refine .inr ⟨rfl, .inr ⟨fun hk => ?_, rfl⟩⟩
          rcases List.mem_cons.mp hk with hk | hk
          · exact hlt.ne hk
          · exact (hlt.trans (hhead _ hk)).false
        · refine .inl ⟨?_, hmem⟩
          rcases List.mem_cons.mp hmem with hold | hmem
          · rw [(Prod.mk.inj hold).1]
            exact hlt.ne'
          · exact (hlt.trans (hlater hmem)).ne'
      · rcases List.mem_cons.mp hmem with hgrown | hmem
        · obtain ⟨rfl, rfl⟩ := Prod.mk.inj hgrown
          exact .inr ⟨heq.symm, .inl ⟨group', List.mem_cons_self, rfl⟩⟩
        · refine .inl ⟨?_, List.mem_cons_of_mem _ hmem⟩
          rw [heq]
          exact (hlater hmem).ne'
      · rcases List.mem_cons.mp hmem with hold | hmem
        · obtain ⟨rfl, rfl⟩ := Prod.mk.inj hold
          exact .inl ⟨Ne.symm heq, List.mem_cons_self⟩
        · rcases ih htail hmem with ⟨hk, hmem⟩ | ⟨rfl, ⟨before, hbefore, rfl⟩ | ⟨hnew, rfl⟩⟩
          · exact .inl ⟨hk, List.mem_cons_of_mem _ hmem⟩
          · exact .inr ⟨rfl, .inl ⟨before, List.mem_cons_of_mem _ hbefore, rfl⟩⟩
          · refine .inr ⟨rfl, .inr ⟨fun hk => ?_, rfl⟩⟩
            rcases List.mem_cons.mp hk with hk | hk
            · exact heq hk
            · exact hnew hk

/-! ## The groups of a list -/

/-- The groups are those of the list. -/
structure Grouped (key : α → κ) (groups : List (κ × List α)) (items : List α) : Prop where
  ascending : Ascending groups
  mem_keys : ∀ k, k ∈ groups.map Prod.fst ↔ ∃ a ∈ items, key a = k
  group_eq : ∀ k group, (k, group) ∈ groups → group = items.filter fun a => key a = k

theorem Grouped.insertBy (h : Grouped key groups items) (a : α) :
    Grouped key (insertBy key groups a) (items ++ [a]) where
  ascending := h.ascending.insertBy a
  mem_keys := by
    intro k
    rw [mem_keys_insertBy, h.mem_keys]
    constructor
    · rintro (rfl | ⟨b, hb, rfl⟩)
      · exact ⟨a, List.mem_append_right _ (List.mem_singleton_self a), rfl⟩
      · exact ⟨b, List.mem_append_left _ hb, rfl⟩
    · rintro ⟨b, hb, rfl⟩
      rcases List.mem_append.mp hb with hb | hb
      · exact .inr ⟨b, hb, rfl⟩
      · rw [List.mem_singleton.mp hb]
        exact .inl rfl
  group_eq := by
    intro k group hmem
    rw [List.filter_append]
    rcases mem_insertBy h.ascending hmem with
      ⟨hk, hmem⟩ | ⟨rfl, ⟨before, hbefore, rfl⟩ | ⟨hnew, rfl⟩⟩
    · rw [← h.group_eq k group hmem, List.filter_singleton]
      simp [Ne.symm hk]
    · rw [← h.group_eq _ before hbefore, List.filter_singleton]
      simp
    · have hnone : items.filter (fun b => key b = key a) = [] := by
        rw [List.filter_eq_nil_iff]
        intro b hb hkey
        exact hnew ((h.mem_keys _).mpr ⟨b, hb, by simpa using hkey⟩)
      rw [hnone, List.filter_singleton]
      simp

/-- The groups of a list, in general. -/
theorem grouped_groupBy (key : α → κ) (items : List α) :
    Grouped key (groupBy key items) items := by
  have hrun : ∀ (groups : List (κ × List α)) (before : List α), Grouped key groups before →
      Grouped key (items.foldl (insertBy key) groups) (before ++ items) := by
    induction items with
    | nil =>
        intro groups before h
        rwa [List.append_nil]
    | cons a items ih =>
        intro groups before h
        have hnext := ih _ _ (h.insertBy a)
        rwa [List.append_assoc] at hnext
  refine hrun [] [] ⟨List.Pairwise.nil, fun k => ?_, fun k group hmem => ?_⟩
  · simp
  · cases hmem

/-! ## Some of the groups -/

/-- The elements of some keys, key by key. -/
theorem perm_flatMap_filter {keys : List κ} (hnodup : keys.Nodup) :
    (keys.flatMap fun k => items.filter fun a => key a = k).Perm
      (items.filter fun a => key a ∈ keys) := by
  induction keys with
  | nil => simp
  | cons k keys ih =>
      obtain ⟨hk, hnodup⟩ := List.nodup_cons.mp hnodup
      have hfirst : (items.filter fun a => key a ∈ k :: keys).filter (fun a => key a = k) =
          items.filter fun a => key a = k := by
        rw [List.filter_filter]
        apply List.filter_congr
        intro a _
        simp +contextual
      have hrest : (items.filter fun a => key a ∈ k :: keys).filter (fun a => !decide (key a = k)) =
          items.filter fun a => key a ∈ keys := by
        rw [List.filter_filter]
        apply List.filter_congr
        intro a _
        by_cases hkey : key a = k
        · simp [hkey, hk]
        · simp [hkey]
      have hsplit := List.filter_append_perm (fun a => decide (key a = k))
        (items.filter fun a => key a ∈ k :: keys)
      rw [hfirst, hrest] at hsplit
      rw [List.flatMap_cons]
      exact ((ih hnodup).append_left _).trans hsplit

/-- Some of the groups have the elements of their keys. -/
theorem Grouped.perm (h : Grouped key groups items) {shown : List (κ × List α)}
    (hshown : shown.Sublist groups) :
    (shown.flatMap Prod.snd).Perm (items.filter fun a => key a ∈ shown.map Prod.fst) := by
  have hnodup : (shown.map Prod.fst).Nodup :=
    (h.ascending.sublist (hshown.map Prod.fst)).imp fun hlt => hlt.ne
  have hgroups : shown.flatMap Prod.snd =
      (shown.map Prod.fst).flatMap fun k => items.filter fun a => key a = k := by
    rw [List.flatMap_map]
    apply List.flatMap_congr
    intro g hg
    exact h.group_eq g.1 g.2 (hshown.subset hg)
  rw [hgroups]
  exact perm_flatMap_filter hnodup

end Torvyn.Groups
