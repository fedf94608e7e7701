/-
# Worklist search

Breadth-first search over an arbitrary vertex type: newly seen vertices are marked
and queued, and the search marks exactly the vertices that a path from a root
reaches (`search_iff`).
-/
import Mathlib

namespace Torvyn.Graph

open Relation

variable {α : Type*} [DecidableEq α]

/-! ## The algorithm -/

/-- Mark a successor and queue it, unless it has been seen before. -/
def discover (s : (α → Bool) × List α) (w : α) : (α → Bool) × List α :=
  if s.1 w then s else (Function.update s.1 w true, s.2 ++ [w])

/-- The worklist loop. -/
def searchLoop (succ : α → List α) : ℕ → (α → Bool) → List α → (α → Bool)
  | 0, seen, _ => seen
  | _ + 1, seen, [] => seen
  | fuel + 1, seen, v :: queue =>
      let s := (succ v).foldl discover (seen, queue)
      searchLoop succ fuel s.1 s.2

/-- The vertices seen by a search of the graph on `vs` from the roots. -/
def search (vs : List α) (succ : α → List α) (roots : List α) : α → Bool :=
  searchLoop succ vs.length (fun v => decide (v ∈ roots)) roots

/-- The edge relation of a successor function. -/
def Edge (succ : α → List α) (u v : α) : Prop := v ∈ succ u

/-! ## The inner loop -/

/-- Discovering a list of successors marks them all and queues, once each, those
that had not been seen. -/
theorem foldl_discover (ws : List α) (seen : α → Bool) (queue : List α) :
    ∃ fresh : List α, (ws.foldl discover (seen, queue)).2 = queue ++ fresh ∧ fresh.Nodup ∧
      (∀ w, w ∈ fresh ↔ w ∈ ws ∧ seen w = false) ∧
      ∀ w, (ws.foldl discover (seen, queue)).1 w = true ↔ seen w = true ∨ w ∈ ws := by
  induction ws generalizing seen queue with
  | nil => exact ⟨[], by simp, by simp, by simp, by simp⟩
  | cons v ws ih =>
      rw [List.foldl_cons]
      by_cases hv : seen v = true
      · rw [discover, if_pos hv]
        obtain ⟨fresh, hq, hnodup, hmem, hseen⟩ := ih seen queue
        refine ⟨fresh, hq, hnodup, ?_, ?_⟩
        · intro w
          rw [hmem w, List.mem_cons]
          constructor
          · exact fun ⟨hw, hf⟩ => ⟨Or.inr hw, hf⟩
          · rintro ⟨rfl | hw, hf⟩
            · simp [hv] at hf
            · exact ⟨hw, hf⟩
        · intro w
          rw [hseen w, List.mem_cons]
          constructor
          · exact fun h => h.imp_right Or.inr
          · rintro (h | rfl | h)
            · exact Or.inl h
            · exact Or.inl hv
            · exact Or.inr h
      · rw [discover, if_neg hv]
        obtain ⟨fresh, hq, hnodup, hmem, hseen⟩ :=
          ih (Function.update seen v true) (queue ++ [v])
        have hupd : ∀ w, w ≠ v → Function.update seen v true w = seen w :=
          fun w hw => by simp [hw]
        refine ⟨v :: fresh, by rw [hq]; simp, ?_, ?_, ?_⟩
        · refine List.nodup_cons.mpr ⟨fun h => ?_, hnodup⟩
          simpa using ((hmem v).mp h).2
        · intro w
          by_cases hw : w = v
          · subst hw
            simpa using hv
          · rw [List.mem_cons, List.mem_cons, hmem w, hupd w hw]
            simp [hw]
        · intro w
          rw [hseen w, List.mem_cons]
          by_cases hw : w = v
          · subst hw
            simp
          · rw [hupd w hw]
            simp [hw]

/-! ## The loop invariant -/

/-- What the search keeps: visited and queued vertices are the distinct seen ones,
all of them reached from a root, and everything after a visited vertex is seen. -/
structure SearchInv (vs : List α) (succ : α → List α) (roots : List α) (seen : α → Bool)
    (queue visited : List α) : Prop where
  nodup : (visited ++ queue).Nodup
  subset : ∀ v ∈ visited ++ queue, v ∈ vs
  seen_iff : ∀ v, seen v = true ↔ v ∈ visited ++ queue
  roots_seen : ∀ r ∈ roots, seen r = true
  reached : ∀ v, seen v = true → ∃ r ∈ roots, ReflTransGen (Edge succ) r v
  closed : ∀ v ∈ visited, ∀ w ∈ succ v, seen w = true

/-- One turn of the loop keeps the invariant. -/
theorem SearchInv.visit {vs : List α} {succ : α → List α} {roots : List α} {seen : α → Bool}
    {queue visited : List α} {v : α} (hsucc : ∀ u ∈ vs, ∀ w ∈ succ u, w ∈ vs)
    (h : SearchInv vs succ roots seen (v :: queue) visited) :
    SearchInv vs succ roots ((succ v).foldl discover (seen, queue)).1
      ((succ v).foldl discover (seen, queue)).2 (visited ++ [v]) := by
  obtain ⟨fresh, hq, hfresh, hmem, hseen⟩ := foldl_discover (succ v) seen queue
  have hv : v ∈ vs := h.subset v (by simp)
  have hvseen : seen v = true := (h.seen_iff v).mpr (by simp)
  have hlist : visited ++ [v] ++ (queue ++ fresh) = (visited ++ v :: queue) ++ fresh := by simp
  rw [hq]
  constructor
  · rw [hlist, List.nodup_append]
    refine ⟨h.nodup, hfresh, ?_⟩
    rintro a ha b hb rfl
    have := (h.seen_iff a).mpr ha
    rw [((hmem a).mp hb).2] at this
    exact absurd this (by simp)
  · intro w hw
    rw [hlist, List.mem_append] at hw
    rcases hw with hw | hw
    · exact h.subset w hw
    · exact hsucc v hv w ((hmem w).mp hw).1
  · intro w
    rw [hseen w, hlist, List.mem_append, ← h.seen_iff w, hmem w]
    rcases hs : seen w with _ | _ <;> simp
  · exact fun r hr => (hseen r).mpr (Or.inl (h.roots_seen r hr))
  · intro w hw
    rcases (hseen w).mp hw with hw | hw
    · exact h.reached w hw
    · obtain ⟨r, hr, hpath⟩ := h.reached v hvseen
      exact ⟨r, hr, hpath.tail hw⟩
  · intro u hu w hw
    rw [hseen w]
    rw [List.mem_append, List.mem_singleton] at hu
    rcases hu with hu | rfl
    · exact Or.inl (h.closed u hu w hw)
    · exact Or.inr hw

/-- The loop ends in a state with the invariant, and with an empty queue when the
fuel covers the vertices that are still to be visited. -/
theorem searchLoop_inv {vs : List α} {succ : α → List α} {roots : List α}
    (hsucc : ∀ u ∈ vs, ∀ w ∈ succ u, w ∈ vs) (fuel : ℕ) {seen : α → Bool}
    {queue visited : List α} (h : SearchInv vs succ roots seen queue visited) :
    ∃ queue' visited', SearchInv vs succ roots (searchLoop succ fuel seen queue) queue' visited' ∧
      (vs.length ≤ visited.length + fuel → queue' = []) := by
  induction fuel generalizing seen queue visited with
  | zero =>
      refine ⟨queue, visited, h, fun hfuel => ?_⟩
      have hlen := (List.Nodup.subperm h.nodup h.subset).length_le
      rw [List.length_append] at hlen
      exact List.eq_nil_of_length_eq_zero (by omega)
  | succ fuel ih =>
      cases queue with
      | nil => exact ⟨[], visited, h, fun _ => rfl⟩
      | cons v queue =>
          obtain ⟨queue', visited', hinv, hempty⟩ := ih (h.visit hsucc)
          refine ⟨queue', visited', hinv, fun hfuel => hempty ?_⟩
          rw [List.length_append, List.length_singleton]
          omega

/-- **The search sees exactly the vertices that a path from a root reaches.** -/
theorem search_iff {vs : List α} {succ : α → List α} {roots : List α}
    (hsucc : ∀ u ∈ vs, ∀ w ∈ succ u, w ∈ vs) (hnodup : roots.Nodup)
    (hroots : ∀ r ∈ roots, r ∈ vs) (v : α) :
    search vs succ roots v = true ↔ ∃ r ∈ roots, ReflTransGen (Edge succ) r v := by
  have hinit : SearchInv vs succ roots (fun v => decide (v ∈ roots)) roots [] :=
    { nodup := by simpa using hnodup
      subset := by simpa using hroots
      seen_iff := by simp
      roots_seen := by simp
      reached := fun v hv => ⟨v, by simpa using hv, ReflTransGen.refl⟩
      closed := by simp }
  obtain ⟨queue', visited', hinv, hempty⟩ := searchLoop_inv hsucc vs.length hinit
  obtain rfl : queue' = [] := hempty (by simp)
  constructor
  · exact hinv.reached v
  · rintro ⟨r, hr, hpath⟩
    induction hpath with
    | refl => exact hinv.roots_seen r hr
    | tail hpath hedge ih =>
        have hin := (hinv.seen_iff _).mp ih
        rw [List.append_nil] at hin
        exact hinv.closed _ hin _ hedge

end Torvyn.Graph
