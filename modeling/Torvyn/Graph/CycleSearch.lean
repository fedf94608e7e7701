/-
# Searching for a cycle

Depth-first search over an arbitrary vertex type.  A search keeps the vertices it has visited,
those on the way to where it stands, and the way itself; a successor on the way closes a cycle,
which is returned as a path.  With fuel for all vertices the search finds a cycle exactly when
there is one (`detectCycle_eq_none_iff`): the vertices it is done with lead only to one another,
and none of them lies on a cycle.
-/
import Torvyn.Graph.Acyclic

namespace Torvyn.Graph

open Relation

variable {α : Type*} [DecidableEq α]

/-- Where a depth-first search stands. -/
structure DfsState (α : Type*) where
  visited : Finset α
  inStack : Finset α
  path : List α

/-- The part of the path from `v` on, closed by `v`. -/
def cyclePath (path : List α) (v : α) : List α :=
  path.drop ((path.findIdx? fun u => u = v).getD 0) ++ [v]

/-- The search below a vertex; the cycle that it finds is an error.  Each call visits a vertex
for the first time, so the number of vertices bounds the depth of the recursion. -/
def dfsCycle (succ : α → List α) : ℕ → α → DfsState α → Except (List α) (DfsState α)
  | 0, _, s => .ok s
  | fuel + 1, v, s => do
      let entered : DfsState α := ⟨insert v s.visited, insert v s.inStack, s.path ++ [v]⟩
      let s ← (succ v).foldlM (fun s w =>
        if w ∉ s.visited then dfsCycle succ fuel w s
        else if w ∈ s.inStack then .error (cyclePath s.path w)
        else .ok s) entered
      .ok { s with inStack := s.inStack.erase v, path := s.path.dropLast }

/-- The cycle that a search from the vertices `vs`, in their order, finds first. -/
def detectCycle (fuel : ℕ) (vs : List α) (succ : α → List α) : Option (List α) :=
  match vs.foldlM (fun s v => if v ∈ s.visited then .ok s else dfsCycle succ fuel v s)
      (⟨∅, ∅, []⟩ : DfsState α) with
  | .error cycle => some cycle
  | .ok _ => none

/-! ## The cycle that is returned -/

section Walk

variable {succ : α → List α}

/-- Closing a path at a vertex that lies on it gives a closed walk. -/
theorem closedWalk_cyclePath {r : α → α → Prop} {path : List α} {w : α}
    (hchain : (path ++ [w]).IsChain r) (hw : w ∈ path) : ClosedWalk r (cyclePath path w) := by
  obtain ⟨i, hi⟩ := Option.isSome_iff_exists.mp
    (List.findIdx?_isSome.trans
      (List.any_eq_true.mpr ⟨w, hw, decide_eq_true (rfl : w = w)⟩ :
        path.any (fun u => u = w) = true))
  obtain ⟨hlt, hget, -⟩ := List.findIdx?_eq_some_iff_getElem.mp hi
  have hpath : cyclePath path w = (path ++ [w]).drop i := by
    rw [cyclePath, hi, Option.getD_some, List.drop_append_of_le_length hlt.le]
  refine ⟨?_, ?_, ?_⟩
  · rw [hpath]
    exact hchain.drop i
  · rw [cyclePath, hi, Option.getD_some, List.drop_eq_getElem_cons hlt, of_decide_eq_true hget,
      List.cons_append, List.head?_cons, ← List.cons_append, List.getLast?_concat]
  · rw [cyclePath, hi, Option.getD_some, List.length_append, List.length_drop,
      List.length_singleton]
    omega

/-- A loop fails only as its turns do, and keeps what they keep. -/
theorem foldlM_except {ε σ β : Type*} {f : σ → β → Except ε σ} {inv : σ → Prop} {bad : ε → Prop}
    {l : List β} {s : σ} (hs : inv s) (hturn : ∀ a ∈ l, ∀ s, inv s →
      (∀ e, f s a = .error e → bad e) ∧ ∀ s', f s a = .ok s' → inv s') :
    (∀ e, l.foldlM f s = .error e → bad e) ∧ ∀ s', l.foldlM f s = .ok s' → inv s' := by
  induction l generalizing s with
  | nil =>
    refine ⟨fun e h => (by cases h), fun s' h => ?_⟩
    obtain rfl := Except.ok.inj h
    exact hs
  | cons a l ih =>
    obtain ⟨herror, hok⟩ := hturn a List.mem_cons_self s hs
    rw [List.foldlM_cons]
    cases hresult : f s a with
    | error e =>
      refine ⟨fun e' h => ?_, fun s' h => by cases h⟩
      obtain rfl := Except.error.inj h
      exact herror e hresult
    | ok s₁ => exact ih (hok s₁ hresult) fun b hb => hturn b (List.mem_cons_of_mem a hb)

/-- **A search below a vertex** leaves the path as it was, and the cycle that it returns is a closed
walk: the path consists of the vertices on the way, each joined to the next by an edge. -/
theorem dfsCycle_walk {fuel : ℕ} {v : α} {s : DfsState α} (hstack : ∀ x ∈ s.inStack, x ∈ s.path)
    (hchain : (s.path ++ [v]).IsChain (Edge succ)) :
    (∀ cycle, dfsCycle succ fuel v s = .error cycle → ClosedWalk (Edge succ) cycle) ∧
      ∀ s', dfsCycle succ fuel v s = .ok s' → s'.path = s.path ∧ ∀ x ∈ s'.inStack, x ∈ s'.path := by
  induction fuel generalizing v s with
  | zero =>
    refine ⟨fun cycle h => (by cases h), fun s' h => ?_⟩
    obtain rfl := Except.ok.inj h
    exact ⟨rfl, hstack⟩
  | succ fuel ih =>
    let inv : DfsState α → Prop := fun t => t.path = s.path ++ [v] ∧ ∀ x ∈ t.inStack, x ∈ t.path
    have hloop := @foldlM_except (List α) (DfsState α) α (fun s w =>
        if w ∉ s.visited then dfsCycle succ fuel w s
        else if w ∈ s.inStack then .error (cyclePath s.path w)
        else .ok s) inv (ClosedWalk (Edge succ)) (succ v)
      ⟨insert v s.visited, insert v s.inStack, s.path ++ [v]⟩ ⟨rfl, by
        intro x hx
        rw [List.mem_append, List.mem_singleton]
        exact ((Finset.mem_insert.mp hx).symm).imp_left (hstack x)⟩ (by
        rintro w hw t ⟨hpath, hmem⟩
        have hlonger : (t.path ++ [w]).IsChain (Edge succ) := by
          rw [hpath, List.append_assoc]
          exact List.isChain_split.mpr ⟨hchain, List.isChain_pair.mpr hw⟩
        split
        · obtain ⟨herror, hok⟩ := ih hmem hlonger
          refine ⟨herror, fun t' ht' => ?_⟩
          obtain ⟨hsame, hmem'⟩ := hok t' ht'
          exact ⟨hsame.trans hpath, hmem'⟩
        · split
          · rename_i hin
            refine ⟨fun cycle h => ?_, fun t' h => by cases h⟩
            obtain rfl := Except.error.inj h
            exact closedWalk_cyclePath hlonger (hmem w hin)
          · refine ⟨fun cycle h => (by cases h), fun t' h => ?_⟩
            obtain rfl := Except.ok.inj h
            exact ⟨hpath, hmem⟩)
    rw [dfsCycle]
    generalize hresult : (succ v).foldlM (fun s w =>
        if w ∉ s.visited then dfsCycle succ fuel w s
        else if w ∈ s.inStack then .error (cyclePath s.path w)
        else .ok s) (⟨insert v s.visited, insert v s.inStack, s.path ++ [v]⟩ : DfsState α) = result
      at hloop
    cases result with
    | error e =>
      refine ⟨fun cycle h => ?_, fun s' h => by cases h⟩
      obtain rfl := Except.error.inj h
      exact hloop.1 e rfl
    | ok t =>
      refine ⟨fun cycle h => (by cases h), fun s' h => ?_⟩
      obtain rfl := Except.ok.inj h
      obtain ⟨hpath, hmem⟩ := hloop.2 t rfl
      have hback : t.path.dropLast = s.path := by rw [hpath, List.dropLast_concat]
      refine ⟨hback, fun x hx => ?_⟩
      obtain ⟨hne, hin⟩ := Finset.mem_erase.mp hx
      have hold := hmem x hin
      rw [hpath, List.mem_append, List.mem_singleton] at hold
      show x ∈ t.path.dropLast
      rw [hback]
      exact hold.resolve_right hne

/-- **The cycle that a search returns is a closed walk.** -/
theorem closedWalk_of_detectCycle {fuel : ℕ} {vs cycle : List α}
    (h : detectCycle fuel vs succ = some cycle) : ClosedWalk (Edge succ) cycle := by
  have hloop := @foldlM_except (List α) (DfsState α) α
    (fun s v => if v ∈ s.visited then .ok s else dfsCycle succ fuel v s)
    (fun t => t.path = [] ∧ ∀ x ∈ t.inStack, x ∈ t.path) (ClosedWalk (Edge succ)) vs ⟨∅, ∅, []⟩
    ⟨rfl, fun x hx => absurd hx (Finset.notMem_empty x)⟩ (by
      rintro v - t ⟨hpath, hmem⟩
      split
      · refine ⟨fun cycle h => (by cases h), fun t' h => ?_⟩
        obtain rfl := Except.ok.inj h
        exact ⟨hpath, hmem⟩
      · have hsingle : (t.path ++ [v]).IsChain (Edge succ) := by
          rw [hpath]
          exact List.isChain_singleton v
        obtain ⟨herror, hok⟩ := @dfsCycle_walk α _ succ fuel _ _ hmem hsingle
        refine ⟨herror, fun t' ht' => ?_⟩
        obtain ⟨hsame, hmem'⟩ := hok t' ht'
        exact ⟨hsame.trans hpath, hmem'⟩)
  unfold detectCycle at h
  split at h
  · rename_i found hfound
    obtain rfl := Option.some.inj h
    exact hloop.1 found hfound
  · cases h

end Walk

/-! ## What a search finds -/

/-- A computation fails only for a reason, and otherwise ends in a good state. -/
def Outcome {ε σ : Type*} (reason : Prop) (good : σ → Prop) : Except ε σ → Prop
  | .error _ => reason
  | .ok s => good s

/-- A loop whose turns keep `inv` and establish `did`, for the element at hand, keeps the one and
establishes the other for all elements. -/
theorem foldlM_outcome {ε σ β : Type*} {f : σ → β → Except ε σ} {inv : σ → Prop}
    {did : β → σ → Prop} {reason : Prop} {l : List β} {s : σ} (hs : inv s)
    (hturn : ∀ a ∈ l, ∀ s, inv s →
      Outcome reason (fun s' => inv s' ∧ did a s' ∧ ∀ b, did b s → did b s') (f s a)) :
    Outcome reason (fun s' => inv s' ∧ (∀ a ∈ l, did a s') ∧ ∀ b, did b s → did b s')
      (l.foldlM f s) := by
  induction l generalizing s with
  | nil => exact ⟨hs, fun a ha => absurd ha List.not_mem_nil, fun _ h => h⟩
  | cons a l ih =>
    have hfirst := hturn a List.mem_cons_self s hs
    rw [List.foldlM_cons]
    cases hresult : f s a with
    | error e =>
      rw [hresult] at hfirst
      exact hfirst
    | ok s₁ =>
      rw [hresult] at hfirst
      obtain ⟨hinv, hdid, hkept⟩ := hfirst
      have hrest := ih hinv fun b hb => hturn b (List.mem_cons_of_mem a hb)
      show Outcome _ _ (l.foldlM f s₁)
      cases hend : l.foldlM f s₁ with
      | error e =>
        rw [hend] at hrest
        exact hrest
      | ok s₂ =>
        rw [hend] at hrest
        obtain ⟨hinv₂, hdid₂, hkept₂⟩ := hrest
        refine ⟨hinv₂, ?_, fun b hb => hkept₂ b (hkept b hb)⟩
        intro b hb
        obtain rfl | hb := List.mem_cons.mp hb
        · exact hkept₂ b hdid
        · exact hdid₂ b hb

/-- The vertices that the search is done with lead only to one another, and none of them lies on
a cycle. -/
structure Finished (succ : α → List α) (s : DfsState α) : Prop where
  onWay : s.inStack ⊆ s.visited
  closed : ∀ x ∈ s.visited, x ∉ s.inStack → ∀ w ∈ succ x, w ∈ s.visited ∧ w ∉ s.inStack
  acyclic : ∀ x ∈ s.visited, x ∉ s.inStack → ¬ TransGen (Edge succ) x x

variable {succ : α → List α} {s : DfsState α}

/-- No path leads out of the vertices that the search is done with. -/
theorem Finished.reach {β : Type*} {succ : β → List β} {s : DfsState β} (h : Finished succ s)
    {x y : β} (hx : x ∈ s.visited ∧ x ∉ s.inStack)
    (hpath : ReflTransGen (Edge succ) x y) : y ∈ s.visited ∧ y ∉ s.inStack := by
  induction hpath with
  | refl => exact hx
  | tail _ hedge ih => exact h.closed _ ih.1 ih.2 _ hedge

/-- Entering a vertex leaves the search where it was with the others. -/
theorem Finished.enter (h : Finished succ s) {v : α} (hv : v ∉ s.visited) (path : List α) :
    Finished succ ⟨insert v s.visited, insert v s.inStack, path⟩ where
  onWay := Finset.insert_subset_insert v h.onWay
  closed := by
    intro x hx hnot w hw
    rw [Finset.mem_insert, not_or] at hnot
    obtain hx := (Finset.mem_insert.mp hx).resolve_left hnot.1
    obtain ⟨hvisited, hstack⟩ := h.closed x hx hnot.2 w hw
    have hne : w ≠ v := fun heq => hv (heq ▸ hvisited)
    refine ⟨Finset.mem_insert_of_mem hvisited, ?_⟩
    rw [Finset.mem_insert, not_or]
    exact ⟨hne, hstack⟩
  acyclic := by
    intro x hx hnot
    rw [Finset.mem_insert, not_or] at hnot
    exact h.acyclic x ((Finset.mem_insert.mp hx).resolve_left hnot.1) hnot.2

/-- Leaving a vertex, all of whose successors the search is done with, it is done with the
vertex. -/
theorem Finished.leave (h : Finished succ s) {v : α} (hv : v ∈ s.inStack)
    (hsucc : ∀ w ∈ succ v, w ∈ s.visited ∧ w ∉ s.inStack) (path : List α) :
    Finished succ ⟨s.visited, s.inStack.erase v, path⟩ where
  onWay := (Finset.erase_subset v s.inStack).trans h.onWay
  closed := by
    intro x hx hnot w hw
    have hdone : w ∈ s.visited ∧ w ∉ s.inStack := by
      by_cases heq : x = v
      · subst heq
        exact hsucc w hw
      · exact h.closed x hx (fun hin => hnot (Finset.mem_erase.mpr ⟨heq, hin⟩)) w hw
    exact ⟨hdone.1, fun hin => hdone.2 (Finset.mem_of_mem_erase hin)⟩
  acyclic := by
    intro x hx hnot hcycle
    by_cases heq : x = v
    · -- a cycle would lead back to the vertex from its successors
      subst heq
      obtain ⟨w, hw, hpath⟩ := TransGen.head'_iff.mp hcycle
      exact (h.reach (hsucc w hw) hpath).2 hv
    · exact h.acyclic x hx (fun hin => hnot (Finset.mem_erase.mpr ⟨heq, hin⟩)) hcycle

/-- **The search below a vertex** fails only on a cycle; otherwise it is done with the vertex, and
stands where it stood. -/
theorem dfsCycle_spec {vs : Finset α} (hclosed : ∀ u ∈ vs, ∀ w ∈ succ u, w ∈ vs) {fuel : ℕ}
    {v : α} {s : DfsState α} (hv : v ∈ vs) (hnew : v ∉ s.visited) (h : Finished succ s)
    (hstack : ∀ x ∈ s.inStack, TransGen (Edge succ) x v) (hfuel : (vs \ s.visited).card ≤ fuel) :
    Outcome (∃ x ∈ vs, TransGen (Edge succ) x x) (fun s' => Finished succ s' ∧
      s'.inStack = s.inStack ∧ insert v s.visited ⊆ s'.visited) (dfsCycle succ fuel v s) := by
  induction fuel generalizing v s with
  | zero =>
    have hmem : v ∈ vs \ s.visited := Finset.mem_sdiff.mpr ⟨hv, hnew⟩
    exact absurd (Finset.card_pos.mpr ⟨v, hmem⟩) (by omega)
  | succ fuel ih =>
    have hstackNew : v ∉ s.inStack := fun hin => hnew (h.onWay hin)
    have hroom : (vs \ insert v s.visited).card ≤ fuel := by
      have hmem : v ∈ vs \ s.visited := Finset.mem_sdiff.mpr ⟨hv, hnew⟩
      rw [Finset.sdiff_insert, Finset.card_erase_of_mem hmem]
      omega
    let inv : DfsState α → Prop := fun t => Finished succ t ∧ t.inStack = insert v s.inStack ∧
      insert v s.visited ⊆ t.visited
    let did : α → DfsState α → Prop := fun w t => w ∈ t.visited ∧ w ∉ insert v s.inStack
    have hloop := @foldlM_outcome (List α) (DfsState α) α (fun s w =>
        if w ∉ s.visited then dfsCycle succ fuel w s
        else if w ∈ s.inStack then .error (cyclePath s.path w)
        else .ok s) inv did (∃ x ∈ vs, TransGen (Edge succ) x x) (succ v)
      ⟨insert v s.visited, insert v s.inStack, s.path ++ [v]⟩
      ⟨h.enter hnew _, rfl, subset_rfl⟩ (by
        rintro w hw t ⟨hfinished, hsame, hvisited⟩
        have hw' : w ∈ vs := hclosed v hv w hw
        have hpath : ∀ x ∈ insert v s.inStack, TransGen (Edge succ) x w := by
          intro x hx
          obtain rfl | hx := Finset.mem_insert.mp hx
          · exact .single hw
          · exact (hstack x hx).tail hw
        split
        · rename_i hunseen
          have hcard : (vs \ t.visited).card ≤ fuel :=
            (Finset.card_le_card (Finset.sdiff_subset_sdiff subset_rfl hvisited)).trans hroom
          have hbelow := ih hw' hunseen hfinished (by rw [hsame]; exact hpath) hcard
          cases hresult : dfsCycle succ fuel w t with
          | error e =>
            rw [hresult] at hbelow
            exact hbelow
          | ok t' =>
            rw [hresult] at hbelow
            obtain ⟨hfinished', hsame', hsub⟩ := hbelow
            have hmono : t.visited ⊆ t'.visited := (Finset.subset_insert w _).trans hsub
            refine ⟨⟨hfinished', hsame'.trans hsame, hvisited.trans hmono⟩, ⟨?_, ?_⟩, ?_⟩
            · exact hsub (Finset.mem_insert_self w _)
            · intro hin
              apply hunseen
              apply hfinished.onWay
              rw [hsame]
              exact hin
            · exact fun b hb => ⟨hmono hb.1, hb.2⟩
        · rename_i hseen
          split
          · rename_i hin
            rw [hsame] at hin
            exact ⟨w, hw', hpath w hin⟩
          · rename_i hnot
            rw [hsame] at hnot
            exact ⟨⟨hfinished, hsame, hvisited⟩, ⟨not_not.mp hseen, hnot⟩, fun _ hb => hb⟩)
    rw [dfsCycle]
    generalize hresult : (succ v).foldlM (fun s w =>
        if w ∉ s.visited then dfsCycle succ fuel w s
        else if w ∈ s.inStack then .error (cyclePath s.path w)
        else .ok s) (⟨insert v s.visited, insert v s.inStack, s.path ++ [v]⟩ : DfsState α) = result
      at hloop
    cases result with
    | error e => exact hloop
    | ok t =>
      obtain ⟨⟨hfinished, hsame, hvisited⟩, hdid, -⟩ := hloop
      have hvt : v ∈ t.inStack := by
        rw [hsame]
        exact Finset.mem_insert_self v _
      refine ⟨hfinished.leave hvt ?_ _, ?_, hvisited⟩
      · intro w hw
        rw [hsame]
        exact hdid w hw
      · show t.inStack.erase v = s.inStack
        rw [hsame, Finset.erase_insert hstackNew]

/-- **The search finds nothing exactly when none of the vertices lies on a cycle.** -/
theorem detectCycle_eq_none_iff {vs : List α} {fuel : ℕ} (hvs : vs.length ≤ fuel)
    (hclosed : ∀ u ∈ vs, ∀ w ∈ succ u, w ∈ vs) :
    detectCycle fuel vs succ = none ↔ ∀ v ∈ vs, ¬ TransGen (Edge succ) v v := by
  have hclosed' : ∀ u ∈ vs.toFinset, ∀ w ∈ succ u, w ∈ vs.toFinset := by
    intro u hu w hw
    exact List.mem_toFinset.mpr (hclosed u (List.mem_toFinset.mp hu) w hw)
  let inv : DfsState α → Prop := fun t => Finished succ t ∧ t.inStack = ∅
  have hloop := @foldlM_outcome (List α) (DfsState α) α
    (fun s v => if v ∈ s.visited then .ok s else dfsCycle succ fuel v s) inv
    (fun v t => v ∈ t.visited) (∃ x ∈ vs.toFinset, TransGen (Edge succ) x x) vs ⟨∅, ∅, []⟩
    ⟨⟨subset_rfl, fun x hx => absurd hx (Finset.notMem_empty x),
      fun x hx => absurd hx (Finset.notMem_empty x)⟩, rfl⟩ (by
      rintro v hv t ⟨hfinished, hempty⟩
      split
      · exact ⟨⟨hfinished, hempty⟩, ‹_›, fun _ hb => hb⟩
      · rename_i hnew
        have hcard : (vs.toFinset \ t.visited).card ≤ fuel :=
          ((Finset.card_le_card Finset.sdiff_subset).trans vs.toFinset_card_le).trans hvs
        have hbelow := dfsCycle_spec hclosed' (List.mem_toFinset.mpr hv) hnew hfinished
          (by rw [hempty]; exact fun x hx => absurd hx (Finset.notMem_empty x)) hcard
        cases hresult : dfsCycle succ fuel v t with
        | error e =>
          rw [hresult] at hbelow
          exact hbelow
        | ok t' =>
          rw [hresult] at hbelow
          obtain ⟨hfinished', hsame, hsub⟩ := hbelow
          refine ⟨⟨hfinished', hsame.trans hempty⟩, hsub (Finset.mem_insert_self v _), ?_⟩
          exact fun b hb => hsub (Finset.mem_insert_of_mem hb))
  rw [detectCycle]
  generalize hresult : vs.foldlM (fun s v => if v ∈ s.visited then .ok s else
    dfsCycle succ fuel v s) (⟨∅, ∅, []⟩ : DfsState α) = result at hloop
  cases result with
  | error e =>
    obtain ⟨x, hx, hcycle⟩ := hloop
    exact iff_of_false (fun h => by cases h) fun h => h x (List.mem_toFinset.mp hx) hcycle
  | ok t =>
    obtain ⟨⟨hfinished, hempty⟩, hvisited, -⟩ := hloop
    refine iff_of_true rfl fun v hv => hfinished.acyclic v (hvisited v hv) ?_
    rw [hempty]
    exact Finset.notMem_empty v

end Torvyn.Graph
