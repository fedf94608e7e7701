/-
# Where a search finds a cycle

A depth-first search that only answers whether there is a cycle keeps the vertices it has visited
and those on the way, but no path.  It is the search of `dfsCycle` with the path forgotten
(`cycleBelow_eq`), so what is known of the one holds of the other.  The search may start from
some vertices only: it stops at the first of them from which a cycle can be reached
(`firstCycleStart_eq_some_iff`), although it never visits a vertex twice.
-/
import Torvyn.Graph.CycleSearch

namespace Torvyn.Graph

open Relation

variable {α : Type*} [DecidableEq α]

/-- The vertices that a search has visited, and those on the way to where it stands. -/
structure Seen (α : Type*) where
  visited : Finset α
  inStack : Finset α

/-- The search below a vertex, `none` when it finds a cycle.  Each call visits a vertex for the
first time, so the number of vertices bounds the depth of the recursion. -/
def cycleBelow (succ : α → List α) : ℕ → α → Seen α → Option (Seen α)
  | 0, _, s => some s
  | fuel + 1, v, s => do
      let s ← (succ v).foldlM (fun s w =>
        if w ∉ s.visited then cycleBelow succ fuel w s
        else if w ∈ s.inStack then none
        else some s) (⟨insert v s.visited, insert v s.inStack⟩ : Seen α)
      some { s with inStack := s.inStack.erase v }

/-- The first of the vertices below which the search finds a cycle, when it goes through them in
their order and passes over those it has visited. -/
def firstCycleStart (succ : α → List α) (fuel : ℕ) : List α → Seen α → Option α
  | [], _ => none
  | v :: vs, s =>
      if v ∈ s.visited then firstCycleStart succ fuel vs s
      else
        match cycleBelow succ fuel v s with
        | none => some v
        | some s => firstCycleStart succ fuel vs s

/-- A cycle can be reached from the vertex. -/
def ReachesCycle (succ : α → List α) (v : α) : Prop :=
  ∃ x, ReflTransGen (Edge succ) v x ∧ TransGen (Edge succ) x x

/-! ## Forgetting the path -/

/-- A search state without its path. -/
def DfsState.seen (s : DfsState α) : Seen α := ⟨s.visited, s.inStack⟩

variable {succ : α → List α}

/-- Two loops whose turns agree under a map of their states agree. -/
theorem foldlM_map {ε σ τ β : Type*} {f : σ → β → Except ε σ} {g : τ → β → Option τ} {m : σ → τ}
    (hturn : ∀ s b, g (m s) b = (f s b).toOption.map m) (l : List β) (s : σ) :
    l.foldlM g (m s) = (l.foldlM f s).toOption.map m := by
  induction l generalizing s with
  | nil => rfl
  | cons b l ih =>
    rw [List.foldlM_cons, List.foldlM_cons, hturn s b]
    cases f s b with
    | error e => rfl
    | ok s' => exact ih s'

/-- **The search with its path forgotten.** -/
theorem cycleBelow_eq (fuel : ℕ) (v : α) (s : DfsState α) :
    cycleBelow succ fuel v s.seen = (dfsCycle succ fuel v s).toOption.map DfsState.seen := by
  induction fuel generalizing v s with
  | zero => rfl
  | succ fuel ih =>
    let turn : DfsState α → α → Except (List α) (DfsState α) := fun s w =>
      if w ∉ s.visited then dfsCycle succ fuel w s
      else if w ∈ s.inStack then .error (cyclePath s.path w) else .ok s
    let turn' : Seen α → α → Option (Seen α) := fun s w =>
      if w ∉ s.visited then cycleBelow succ fuel w s else if w ∈ s.inStack then none else some s
    have hturn : ∀ t w, turn' t.seen w = (turn t w).toOption.map DfsState.seen := by
      intro t w
      show (if w ∉ t.visited then cycleBelow succ fuel w t.seen
        else if w ∈ t.inStack then none else some t.seen) =
        (if w ∉ t.visited then dfsCycle succ fuel w t
          else if w ∈ t.inStack then .error (cyclePath t.path w) else .ok t).toOption.map _
      split
      · exact ih w t
      · split <;> rfl
    let entered : DfsState α := ⟨insert v s.visited, insert v s.inStack, s.path ++ [v]⟩
    have hloop := foldlM_map hturn (succ v) entered
    show ((succ v).foldlM turn' entered.seen >>= fun s => some _) =
      ((succ v).foldlM turn entered >>= fun s => .ok _).toOption.map DfsState.seen
    rw [hloop]
    cases (succ v).foldlM turn entered with
    | error e => rfl
    | ok t => rfl

/-! ## What is found -/

/-- **The search below a vertex** finds a cycle exactly when one can be reached from it; otherwise
it is done with the vertex. -/
theorem cycleBelow_spec {all : Finset α} (hclosed : ∀ u ∈ all, ∀ w ∈ succ u, w ∈ all) {fuel : ℕ}
    (hfuel : all.card ≤ fuel) {v : α} {s : DfsState α} (hv : v ∈ all) (hnew : v ∉ s.visited)
    (h : Finished succ s) (hempty : s.inStack = ∅) :
    (cycleBelow succ fuel v s.seen = none ∧ ReachesCycle succ v) ∨
      ∃ s', cycleBelow succ fuel v s.seen = some s'.seen ∧ Finished succ s' ∧ s'.inStack = ∅ ∧
        insert v s.visited ⊆ s'.visited := by
  classical
  -- the search stays among the vertices that can be reached from the start
  set below := all.filter fun u => ReflTransGen (Edge succ) v u with hbelow
  have hmem : ∀ {u}, u ∈ below ↔ u ∈ all ∧ ReflTransGen (Edge succ) v u := Finset.mem_filter
  have hclosed' : ∀ u ∈ below, ∀ w ∈ succ u, w ∈ below := fun u hu w hw =>
    hmem.mpr ⟨hclosed u (hmem.mp hu).1 w hw, (hmem.mp hu).2.tail hw⟩
  have hstack : ∀ x ∈ s.inStack, TransGen (Edge succ) x v := by
    rw [hempty]
    exact fun x hx => absurd hx (Finset.notMem_empty x)
  have hcard : (below \ s.visited).card ≤ fuel :=
    ((Finset.card_le_card Finset.sdiff_subset).trans
      (Finset.card_le_card (Finset.filter_subset _ _))).trans hfuel
  have hspec := dfsCycle_spec hclosed' (hmem.mpr ⟨hv, .refl⟩) hnew h hstack hcard
  rw [cycleBelow_eq]
  cases hresult : dfsCycle succ fuel v s with
  | error e =>
    rw [hresult] at hspec
    obtain ⟨x, hx, hcycle⟩ := hspec
    exact Or.inl ⟨rfl, x, (hmem.mp hx).2, hcycle⟩
  | ok s' =>
    rw [hresult] at hspec
    obtain ⟨hfinished, hstack, hsub⟩ := hspec
    exact Or.inr ⟨s', rfl, hfinished, hstack.trans hempty, hsub⟩

/-- No cycle can be reached from a vertex that the search is done with. -/
theorem Finished.not_reachesCycle {β : Type*} {succ : β → List β} {s : DfsState β} (h : Finished succ s) (hempty : s.inStack = ∅)
    {v : β} (hv : v ∈ s.visited) : ¬ ReachesCycle succ v := by
  have hout : ∀ x, x ∉ s.inStack := fun x => hempty ▸ Finset.notMem_empty x
  rintro ⟨x, hpath, hcycle⟩
  obtain ⟨hx, hnot⟩ := h.reach ⟨hv, hout v⟩ hpath
  exact h.acyclic x hx hnot hcycle

/-- The same for a search that has begun. -/
theorem firstCycleStart_spec {all : Finset α} (hclosed : ∀ u ∈ all, ∀ w ∈ succ u, w ∈ all)
    {fuel : ℕ} (hfuel : all.card ≤ fuel) {vs : List α} (hvs : ∀ v ∈ vs, v ∈ all)
    {s : DfsState α} (h : Finished succ s) (hempty : s.inStack = ∅) (v : α) :
    firstCycleStart succ fuel vs s.seen = some v ↔
      ∃ before after, vs = before ++ v :: after ∧ ReachesCycle succ v ∧
        ∀ u ∈ before, ¬ ReachesCycle succ u := by
  induction vs generalizing s with
  | nil => simp [firstCycleStart]
  | cons u vs ih =>
    have hvs' : ∀ v ∈ vs, v ∈ all := fun v hv => hvs v (List.mem_cons_of_mem u hv)
    -- a start from which no cycle can be reached is passed over
    have hpass : ¬ ReachesCycle succ u →
        ((∃ before after, vs = before ++ v :: after ∧ ReachesCycle succ v ∧
            ∀ u ∈ before, ¬ ReachesCycle succ u) ↔
          ∃ before after, u :: vs = before ++ v :: after ∧ ReachesCycle succ v ∧
            ∀ u ∈ before, ¬ ReachesCycle succ u) := by
      intro hnot
      constructor
      · rintro ⟨before, after, rfl, hreach, hbefore⟩
        exact ⟨u :: before, after, rfl, hreach, List.forall_mem_cons.mpr ⟨hnot, hbefore⟩⟩
      · rintro ⟨before, after, hsplit, hreach, hbefore⟩
        cases before with
        | nil =>
          obtain ⟨rfl, -⟩ := List.cons.inj hsplit
          exact absurd hreach hnot
        | cons u' before =>
          obtain ⟨rfl, rfl⟩ := List.cons.inj hsplit
          exact ⟨before, after, rfl, hreach, fun w hw => hbefore w (List.mem_cons_of_mem u hw)⟩
    rw [firstCycleStart]
    by_cases hseen : u ∈ s.visited
    · rw [if_pos (show u ∈ s.seen.visited from hseen), ih hvs' h hempty]
      exact hpass (h.not_reachesCycle hempty hseen)
    · rw [if_neg (show u ∉ s.seen.visited from hseen)]
      rcases cycleBelow_spec hclosed hfuel (hvs u List.mem_cons_self) hseen h hempty with
        ⟨hnone, hreach⟩ | ⟨s', hsome, hfinished, hempty', hsub⟩
      · simp only [hnone, Option.some.injEq]
        constructor
        · rintro rfl
          exact ⟨[], vs, rfl, hreach, by simp⟩
        · rintro ⟨before, after, hsplit, -, hbefore⟩
          cases before with
          | nil => exact (List.cons.inj hsplit).1
          | cons u' before =>
            obtain ⟨rfl, -⟩ := List.cons.inj hsplit
            exact absurd hreach (hbefore u List.mem_cons_self)
      · simp only [hsome]
        rw [ih hvs' hfinished hempty']
        exact hpass (hfinished.not_reachesCycle hempty' (hsub (Finset.mem_insert_self u _)))

/-- **The search stops at the first start from which a cycle can be reached.** -/
theorem firstCycleStart_eq_some_iff {all : Finset α} (hclosed : ∀ u ∈ all, ∀ w ∈ succ u, w ∈ all)
    {fuel : ℕ} (hfuel : all.card ≤ fuel) {vs : List α} (hvs : ∀ v ∈ vs, v ∈ all) (v : α) :
    firstCycleStart succ fuel vs ⟨∅, ∅⟩ = some v ↔
      ∃ before after, vs = before ++ v :: after ∧ ReachesCycle succ v ∧
        ∀ u ∈ before, ¬ ReachesCycle succ u := by
  have hstart : Finished succ (⟨∅, ∅, []⟩ : DfsState α) :=
    ⟨subset_rfl, fun x hx => absurd hx (Finset.notMem_empty x),
      fun x hx => absurd hx (Finset.notMem_empty x)⟩
  exact firstCycleStart_spec hclosed hfuel hvs hstart rfl v

/-- The search finds nothing exactly when no cycle can be reached from a start. -/
theorem firstCycleStart_eq_none_iff {all : Finset α} (hclosed : ∀ u ∈ all, ∀ w ∈ succ u, w ∈ all)
    {fuel : ℕ} (hfuel : all.card ≤ fuel) {vs : List α} (hvs : ∀ v ∈ vs, v ∈ all) :
    firstCycleStart succ fuel vs ⟨∅, ∅⟩ = none ↔ ∀ v ∈ vs, ¬ ReachesCycle succ v := by
  classical
  constructor
  · intro hnone v hv hreach
    obtain ⟨u, before, after, hsplit, hu, hbefore⟩ : ∃ u before after, vs = before ++ u :: after ∧
        ReachesCycle succ u ∧ ∀ w ∈ before, ¬ ReachesCycle succ w := by
      obtain ⟨u, hfind⟩ := Option.isSome_iff_exists.mp
        (List.find?_isSome.mpr ⟨v, hv, decide_eq_true hreach⟩ :
          (vs.find? fun v => decide (ReachesCycle succ v)).isSome = true)
      obtain ⟨hreach, before, after, hsplit, hbefore⟩ := List.find?_eq_some_iff_append.mp hfind
      exact ⟨u, before, after, hsplit, of_decide_eq_true hreach, by simpa using hbefore⟩
    have hsome := (firstCycleStart_eq_some_iff hclosed hfuel hvs u).mpr
      ⟨before, after, hsplit, hu, hbefore⟩
    cases hnone.symm.trans hsome
  · intro hall
    by_contra hne
    obtain ⟨v, hv⟩ := Option.ne_none_iff_exists'.mp hne
    obtain ⟨before, after, rfl, hreach, -⟩ :=
      (firstCycleStart_eq_some_iff hclosed hfuel hvs v).mp hv
    exact hall v (List.mem_append_right _ List.mem_cons_self) hreach

end Torvyn.Graph
