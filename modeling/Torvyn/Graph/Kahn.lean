/-
# Kahn's topological sort

The worklist algorithm over an arbitrary vertex type: vertices whose remaining
in-degree is zero wait in a queue, and taking one from the queue lowers the degree
of its successors.  The loop keeps `KahnInv`; from it a visited vertex comes after
all its predecessors (`kahn_before`), and a run that visits as many vertices as
there are orders them all (`kahn_perm`).
-/
import Mathlib

namespace Torvyn.Graph

variable {α : Type*} [DecidableEq α]

/-! ## The algorithm -/

/-- Lower the degree of one successor and queue it when nothing is left before it. -/
def relax (s : (α → ℕ) × List α) (w : α) : (α → ℕ) × List α :=
  let deg := Function.update s.1 w (s.1 w - 1)
  if deg w = 0 then (deg, s.2 ++ [w]) else (deg, s.2)

/-- The worklist loop, with the visited vertices in `order`. -/
def kahnLoop (succ : α → List α) : ℕ → (α → ℕ) → List α → List α → List α
  | 0, _, _, order => order
  | _ + 1, _, [], order => order
  | fuel + 1, deg, v :: queue, order =>
      let s := (succ v).foldl relax (deg, queue)
      kahnLoop succ fuel s.1 s.2 (order ++ [v])

/-- Kahn's algorithm on the vertices `vs`, started from the given in-degrees. -/
def kahn (vs : List α) (succ : α → List α) (deg : α → ℕ) : List α :=
  kahnLoop succ vs.length deg (vs.filter fun v => deg v = 0) []

/-- The number of edges into `w` from vertices that are not in `order`. -/
def openDegree (vs : List α) (succ : α → List α) (order : List α) (w : α) : ℕ :=
  ∑ u ∈ vs.toFinset \ order.toFinset, (succ u).count w

/-! ## The inner loop -/

/-- Relaxing a list of successors lowers each degree by its number of occurrences
and queues, once each, the vertices whose degree this exhausts. -/
theorem foldl_relax (ws : List α) (deg : α → ℕ) (queue : List α)
    (hcount : ∀ w, ws.count w ≤ deg w) :
    ∃ freed : List α, ws.foldl relax (deg, queue) = (fun w => deg w - ws.count w, queue ++ freed) ∧
      freed.Nodup ∧ ∀ w, w ∈ freed ↔ w ∈ ws ∧ deg w = ws.count w := by
  induction ws generalizing deg queue with
  | nil => exact ⟨[], by simp, by simp, by simp⟩
  | cons v ws ih =>
      have hv : 0 < deg v := lt_of_lt_of_le (by simp) (hcount v)
      set deg' := Function.update deg v (deg v - 1) with hdeg'
      have hdeg'v : deg' v = deg v - 1 := by simp [hdeg']
      have hdeg'w : ∀ w, w ≠ v → deg' w = deg w := fun w hw => by simp [hdeg', hw]
      have hcount' : ∀ w, ws.count w ≤ deg' w := by
        intro w
        have := hcount w
        by_cases hw : w = v
        · subst hw
          rw [List.count_cons_self] at this
          omega
        · rw [List.count_cons_of_ne (Ne.symm hw)] at this
          rwa [hdeg'w w hw]
      have hdegs : (fun w => deg' w - ws.count w) = fun w => deg w - (v :: ws).count w := by
        funext w
        by_cases hw : w = v
        · subst hw
          rw [List.count_cons_self, hdeg'v]
          omega
        · rw [List.count_cons_of_ne (Ne.symm hw), hdeg'w w hw]
      by_cases hzero : deg' v = 0
      · -- `v` is freed now and cannot occur again
        have hvws : v ∉ ws := by
          rw [← List.count_eq_zero]
          have := hcount' v
          omega
        obtain ⟨freed, hfold, hnodup, hmem⟩ := ih deg' (queue ++ [v]) hcount'
        refine ⟨v :: freed, ?_, ?_, ?_⟩
        · rw [List.foldl_cons, relax, if_pos hzero, hfold, hdegs]
          simp
        · exact List.nodup_cons.mpr ⟨fun h => hvws ((hmem v).mp h).1, hnodup⟩
        · intro w
          by_cases hw : w = v
          · subst hw
            have hc := List.count_eq_zero.mpr hvws
            simp only [List.mem_cons, true_or, List.count_cons_self, hc, true_and, true_iff]
            omega
          · rw [List.mem_cons, List.mem_cons, hmem w, hdeg'w w hw,
              List.count_cons_of_ne (Ne.symm hw)]
            simp [hw]
      · obtain ⟨freed, hfold, hnodup, hmem⟩ := ih deg' queue hcount'
        refine ⟨freed, ?_, hnodup, ?_⟩
        · rw [List.foldl_cons, relax, if_neg hzero, hfold, hdegs]
        · intro w
          by_cases hw : w = v
          · subst hw
            rw [hmem w, List.count_cons_self, hdeg'v]
            have := hcount' w
            constructor
            · rintro ⟨hin, heq⟩
              exact ⟨List.mem_cons_of_mem _ hin, by omega⟩
            · rintro ⟨-, heq⟩
              have hpos : 0 < ws.count w := by omega
              exact ⟨List.count_pos_iff.mp hpos, by omega⟩
          · rw [hmem w, hdeg'w w hw, List.count_cons_of_ne (Ne.symm hw), List.mem_cons]
            simp [hw]

/-! ## The loop invariant -/

/-- What the worklist loop keeps: visited and queued vertices are distinct vertices
of the graph, the degrees count the edges from vertices not yet visited, the
vertices without such edges are the visited and queued ones, and every visited
vertex comes after its predecessors. -/
structure KahnInv (vs : List α) (succ : α → List α) (deg : α → ℕ) (queue order : List α) :
    Prop where
  nodup : (order ++ queue).Nodup
  subset : ∀ v ∈ order ++ queue, v ∈ vs
  degree : ∀ w, deg w = openDegree vs succ order w
  zero : ∀ w ∈ vs, w ∈ order ++ queue ↔ deg w = 0
  before : ∀ l v r, order = l ++ v :: r → ∀ u ∈ vs, v ∈ succ u → u ∈ l

/-- Visiting a vertex takes its edges out of the open degrees. -/
theorem openDegree_append {vs : List α} {succ : α → List α} {order : List α} {v : α}
    (hv : v ∈ vs) (hvo : v ∉ order) (w : α) :
    openDegree vs succ order w = (succ v).count w + openDegree vs succ (order ++ [v]) w := by
  unfold openDegree
  have hset : vs.toFinset \ (order ++ [v]).toFinset = (vs.toFinset \ order.toFinset).erase v := by
    ext u
    simp only [Finset.mem_sdiff, List.mem_toFinset, List.mem_append, List.mem_singleton,
      Finset.mem_erase, not_or]
    tauto
  have hmem : v ∈ vs.toFinset \ order.toFinset := by simp [hv, hvo]
  rw [hset, Finset.add_sum_erase _ (fun u => (succ u).count w) hmem]

/-- With an open degree of zero, all predecessors have been visited. -/
theorem mem_of_openDegree_eq_zero {vs : List α} {succ : α → List α} {order : List α} {v u : α}
    (h : openDegree vs succ order v = 0) (hu : u ∈ vs) (hedge : v ∈ succ u) : u ∈ order := by
  by_contra huo
  have hmem : u ∈ vs.toFinset \ order.toFinset := by simp [hu, huo]
  have hzero := (Finset.sum_eq_zero_iff.mp h) u hmem
  exact (List.count_eq_zero.mp hzero) hedge

/-- One turn of the loop keeps the invariant. -/
theorem KahnInv.visit {vs : List α} {succ : α → List α} {deg : α → ℕ} {queue order : List α}
    {v : α} (hsucc : ∀ u ∈ vs, ∀ w ∈ succ u, w ∈ vs)
    (h : KahnInv vs succ deg (v :: queue) order) :
    KahnInv vs succ ((succ v).foldl relax (deg, queue)).1
      ((succ v).foldl relax (deg, queue)).2 (order ++ [v]) := by
  have hv : v ∈ vs := h.subset v (by simp)
  have hnd := h.nodup
  rw [List.nodup_append] at hnd
  have hvo : v ∉ order := fun hin => hnd.2.2 v hin v List.mem_cons_self rfl
  have hopen : ∀ w, openDegree vs succ order w =
      (succ v).count w + openDegree vs succ (order ++ [v]) w := openDegree_append hv hvo
  have hcount : ∀ w, (succ v).count w ≤ deg w := by
    intro w
    rw [h.degree w, hopen w]
    omega
  obtain ⟨freed, hfold, hfreed, hmem⟩ := foldl_relax (succ v) deg queue hcount
  rw [hfold]
  have hdeg' : ∀ w, deg w - (succ v).count w = openDegree vs succ (order ++ [v]) w := by
    intro w
    rw [h.degree w, hopen w]
    omega
  have hsplit : ∀ w, w ∈ order ++ [v] ++ (queue ++ freed) ↔ w ∈ order ++ v :: queue ∨ w ∈ freed := by
    intro w
    simp only [List.mem_append, List.mem_cons, List.not_mem_nil]
    tauto
  -- a freed vertex still had an open edge, so it was neither visited nor queued
  have hnew : ∀ w ∈ freed, w ∉ order ++ v :: queue := by
    intro w hw hin
    obtain ⟨hws, heq⟩ := (hmem w).mp hw
    have hz := (h.zero w (h.subset w hin)).mp hin
    have hpos := List.count_pos_iff.mpr hws
    omega
  constructor
  · have hlist : order ++ [v] ++ (queue ++ freed) = (order ++ v :: queue) ++ freed := by simp
    rw [hlist]
    rw [List.nodup_append]
    refine ⟨h.nodup, hfreed, ?_⟩
    rintro a ha b hb rfl
    exact hnew a hb ha
  · intro w hw
    rcases (hsplit w).mp hw with hw | hw
    · exact h.subset w hw
    · exact hsucc v hv w ((hmem w).mp hw).1
  · exact hdeg'
  · intro w hw
    rw [hsplit w, h.zero w hw, hmem w]
    have hle := hcount w
    constructor
    · rintro (hz | ⟨-, heq⟩) <;> simp only <;> omega
    · intro hz
      by_cases hin : w ∈ succ v
      · exact Or.inr ⟨hin, by simp only at hz; omega⟩
      · left
        have := List.count_eq_zero.mpr hin
        simp only at hz
        omega
  · intro l x r hlxr u hu hedge
    rcases List.eq_nil_or_concat r with rfl | ⟨r', z, rfl⟩
    · -- `x` is the vertex just visited
      obtain ⟨hl, hx⟩ := List.append_inj' hlxr rfl
      obtain rfl : v = x := by simpa using hx
      have hz := (h.zero v hv).mp (by simp)
      rw [h.degree v] at hz
      rw [← hl]
      exact mem_of_openDegree_eq_zero hz hu hedge
    · rw [List.concat_eq_append, ← List.cons_append, ← List.append_assoc] at hlxr
      obtain ⟨hl, -⟩ := List.append_inj' hlxr rfl
      exact h.before l x r' hl u hu hedge

/-! ## What the run returns -/

/-- The loop ends in a state with the invariant, and with an empty queue when the
fuel covers the vertices that are still to be visited. -/
theorem kahnLoop_inv {vs : List α} {succ : α → List α}
    (hsucc : ∀ u ∈ vs, ∀ w ∈ succ u, w ∈ vs) (fuel : ℕ) {deg : α → ℕ} {queue order : List α}
    (h : KahnInv vs succ deg queue order) :
    ∃ deg' queue', KahnInv vs succ deg' queue' (kahnLoop succ fuel deg queue order) ∧
      (vs.length ≤ order.length + fuel → queue' = []) := by
  induction fuel generalizing deg queue order with
  | zero =>
      refine ⟨deg, queue, h, fun hfuel => ?_⟩
      have hlen := (List.Nodup.subperm h.nodup h.subset).length_le
      rw [List.length_append] at hlen
      exact List.eq_nil_of_length_eq_zero (by omega)
  | succ fuel ih =>
      cases queue with
      | nil => exact ⟨deg, [], h, fun _ => rfl⟩
      | cons v queue =>
          obtain ⟨deg', queue', hinv, hempty⟩ := ih (h.visit hsucc)
          refine ⟨deg', queue', hinv, fun hfuel => hempty ?_⟩
          rw [List.length_append, List.length_singleton]
          omega

/-- The initial state has the invariant. -/
theorem KahnInv.init {vs : List α} {succ : α → List α} {deg : α → ℕ} (hvs : vs.Nodup)
    (hdeg : ∀ w, deg w = openDegree vs succ [] w) :
    KahnInv vs succ deg (vs.filter fun v => deg v = 0) [] where
  nodup := by simpa using hvs.filter _
  subset := by
    intro v hv
    rw [List.nil_append] at hv
    exact (List.mem_filter.mp hv).1
  degree := hdeg
  zero := by
    intro w hw
    simp [hw]
  before := by
    intro l v r hlvr
    simp at hlvr

section Result

variable {vs : List α} {succ : α → List α} {deg : α → ℕ} (hvs : vs.Nodup)
  (hsucc : ∀ u ∈ vs, ∀ w ∈ succ u, w ∈ vs) (hdeg : ∀ w, deg w = openDegree vs succ [] w)
include hvs hsucc hdeg

/-- **Kahn's algorithm runs its worklist empty**, in a state with the invariant. -/
theorem kahn_inv : ∃ deg', KahnInv vs succ deg' [] (kahn vs succ deg) := by
  obtain ⟨deg', queue', hinv, hempty⟩ :=
    kahnLoop_inv hsucc vs.length (KahnInv.init hvs hdeg)
  obtain rfl : queue' = [] := hempty (by simp)
  exact ⟨deg', hinv⟩

/-- A vertex is visited at most once. -/
theorem kahn_nodup : (kahn vs succ deg).Nodup := by
  obtain ⟨deg', hinv⟩ := kahn_inv hvs hsucc hdeg
  simpa using hinv.nodup

/-- Only vertices of the graph are visited. -/
theorem kahn_subset : kahn vs succ deg ⊆ vs := by
  obtain ⟨deg', hinv⟩ := kahn_inv hvs hsucc hdeg
  exact fun v hv => hinv.subset v (by simpa using hv)

/-- **The order respects the edges**: a visited vertex comes after its predecessors. -/
theorem kahn_before {l r : List α} {u v : α} (h : kahn vs succ deg = l ++ v :: r)
    (hu : u ∈ vs) (hedge : v ∈ succ u) : u ∈ l := by
  obtain ⟨deg', hinv⟩ := kahn_inv hvs hsucc hdeg
  exact hinv.before l v r h u hu hedge

/-- An edge into a visited vertex goes forward in the order. -/
theorem kahn_idxOf_lt_of_mem {u v : α} (hv : v ∈ kahn vs succ deg) (hu : u ∈ vs)
    (hedge : v ∈ succ u) :
    u ∈ kahn vs succ deg ∧ (kahn vs succ deg).idxOf u < (kahn vs succ deg).idxOf v := by
  obtain ⟨l, r, hsplit⟩ := List.append_of_mem hv
  have hmem : u ∈ l := kahn_before hvs hsucc hdeg hsplit hu hedge
  have hnot : v ∉ l := by
    have hnodup := kahn_nodup hvs hsucc hdeg
    rw [hsplit, List.nodup_append] at hnodup
    exact fun hin => hnodup.2.2 _ hin _ List.mem_cons_self rfl
  rw [hsplit]
  refine ⟨List.mem_append_left _ hmem, ?_⟩
  rw [List.idxOf_append_of_mem hmem, List.idxOf_append_of_notMem hnot]
  have hbound := List.idxOf_lt_length_of_mem hmem
  omega

/-- A run that visits as many vertices as there are orders them all. -/
theorem kahn_perm (hlen : (kahn vs succ deg).length = vs.length) :
    (kahn vs succ deg).Perm vs :=
  ((kahn_nodup hvs hsucc hdeg).subperm (kahn_subset hvs hsucc hdeg)).perm_of_length_le
    (by rw [hlen])

/-- When all vertices are visited, every edge goes forward in the order. -/
theorem kahn_idxOf_lt (hlen : (kahn vs succ deg).length = vs.length) {u v : α} (hu : u ∈ vs)
    (hedge : v ∈ succ u) : (kahn vs succ deg).idxOf u < (kahn vs succ deg).idxOf v := by
  have hv : v ∈ kahn vs succ deg :=
    (kahn_perm hvs hsucc hdeg hlen).mem_iff.mpr (hsucc u hu v hedge)
  exact (kahn_idxOf_lt_of_mem hvs hsucc hdeg hv hu hedge).2

end Result

end Torvyn.Graph
