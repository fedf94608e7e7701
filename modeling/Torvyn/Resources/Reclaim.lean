/-
# Bulk reclaims

`force_reclaim` and `reclaim_flow_buffers` walk a list of ids and remove, one after another,
the resources that are live under them. What such a sweep removes, what becomes of the buffers
and what it reports are all read off the list of the removed resources.
-/
import Torvyn.Resources.Indices

namespace Torvyn

namespace ResourceManager

/-- What `force_reclaim` reports of a resource. -/
def reportOf (p : ResourceId × ResourceEntry) : ResourceReclaimed :=
  ⟨p.1, p.2.state, p.2.owner, p.2.payloadCapacity, !p.2.isFallback⟩

/-- What `reclaim_flow_buffers` adds to its report for a resource. -/
def tally (stats : FlowResourceStats) (p : ResourceId × ResourceEntry) : FlowResourceStats where
  returnedToPool := if p.2.isFallback then stats.returnedToPool else stats.returnedToPool + 1
  deallocated := if p.2.isFallback then stats.deallocated + 1 else stats.deallocated
  totalBytesReleased := stats.totalBytesReleased + p.2.payloadCapacity
  borrowsCleared := stats.borrowsCleared + p.2.borrowCount

/-- Retire the buffers of removed resources. -/
def retireAll (removed : List (ResourceId × ResourceEntry)) (pools : BufferPoolSet)
    (heap : Heap) : BufferPoolSet × Heap :=
  removed.foldl (fun s p => retire p.2 s.1 s.2) (pools, heap)

/-- A sweep turns `m` into `m'`: it removes the resources `removed` and retires their
buffers, each of them once. -/
structure Swept (m : ResourceManager) (removed : List (ResourceId × ResourceEntry))
    (m' : ResourceManager) : Prop where
  live : m.table.iter.Perm (removed ++ m'.table.iter)
  buffers : (m'.pools, m'.heap) = retireAll removed m.pools m.heap
  ledger : m'.ledger = m.ledger

namespace Swept

variable {m m' m'' : ResourceManager} {removed removed' : List (ResourceId × ResourceEntry)}

/-- Nothing is removed. -/
theorem refl (m : ResourceManager) : Swept m [] m :=
  ⟨.refl _, rfl, rfl⟩

theorem trans (h : Swept m removed m') (h' : Swept m' removed' m'') :
    Swept m (removed ++ removed') m'' where
  live := by
    rw [List.append_assoc]
    exact h.live.trans (h'.live.append_left _)
  buffers := by
    rw [retireAll, List.foldl_append]
    have hfirst := h.buffers
    rw [retireAll] at hfirst
    rw [← hfirst]
    exact h'.buffers
  ledger := h'.ledger.trans h.ledger

/-- The ids of what is removed and of what is left are all different. -/
theorem nodup (h : Swept m removed m') :
    ((removed ++ m'.table.iter).map Prod.fst).Nodup :=
  (h.live.map Prod.fst).nodup_iff.1 m.table.nodup_iter

/-- What is left was there before. -/
theorem mem_of_mem (h : Swept m removed m') {p : ResourceId × ResourceEntry}
    (hp : p ∈ m'.table.iter) : p ∈ m.table.iter :=
  h.live.mem_iff.2 (List.mem_append_right _ hp)

/-- What is removed does not come back under another entry. -/
theorem not_mem_of_mem (h : Swept m removed m') {p : ResourceId × ResourceEntry}
    (hp : p ∈ removed) : p.1 ∉ m'.table.iter.map Prod.fst := by
  have hnodup := h.nodup
  rw [List.map_append] at hnodup
  intro hmem
  exact (List.nodup_append.1 hnodup).2.2 _ (List.mem_map_of_mem hp) _ hmem rfl

/-- What is left is what was there and has not been removed. -/
theorem mem_iff (h : Swept m removed m') {p : ResourceId × ResourceEntry} :
    p ∈ m'.table.iter ↔ p ∈ m.table.iter ∧ p ∉ removed := by
  constructor
  · intro hp
    exact ⟨h.mem_of_mem hp, fun hrem => h.not_mem_of_mem hrem (List.mem_map_of_mem hp)⟩
  · rintro ⟨hp, hnot⟩
    exact (List.mem_append.1 (h.live.mem_iff.1 hp)).resolve_left hnot

/-- A live resource is kept as it is or its id is gone. -/
theorem kept_or_gone (h : Swept m removed m') {p : ResourceId × ResourceEntry}
    (hp : p ∈ m.table.iter) : p ∈ m'.table.iter ∨ p.1 ∉ m'.table.iter.map Prod.fst := by
  by_cases hrem : p ∈ removed
  · exact .inr (h.not_mem_of_mem hrem)
  · exact .inl (h.mem_iff.2 ⟨hp, hrem⟩)

end Swept

/-! ## The loops -/

variable {m : ResourceManager}

/-- An id under which nothing is live. -/
theorem not_mem_of_get_error {table : ResourceTable} {id : ResourceId} {e : ResourceError}
    (h : table.get ⟨id⟩ = .error e) : id ∉ table.iter.map Prod.fst := by
  intro hmem
  obtain ⟨⟨id', entry⟩, hp, rfl⟩ := List.mem_map.1 hmem
  have hget : table.get ⟨id'⟩ = .ok entry := ResourceTable.get_eq_ok.2 hp
  cases h.symm.trans hget

/-- The loop of `force_reclaim` removes what is live under its ids. -/
theorem forceReclaim_sweep (ids : List ResourceId) (m : ResourceManager)
    (acc : List ResourceReclaimed) :
    ∃ removed, Swept m removed (ids.foldl forceReclaimOne (m, acc)).1 ∧
      (ids.foldl forceReclaimOne (m, acc)).2 = acc ++ removed.map reportOf ∧
      (ids.foldl forceReclaimOne (m, acc)).1.budgets = m.budgets ∧
      (∀ p ∈ removed, p.1 ∈ ids) ∧
      ∀ id ∈ ids, id ∉ (ids.foldl forceReclaimOne (m, acc)).1.table.iter.map Prod.fst := by
  induction ids generalizing m acc with
  | nil => exact ⟨[], .refl m, by simp, rfl, by simp, by simp⟩
  | cons id rest ih =>
    rw [List.foldl_cons]
    rcases forceReclaimOne_cases m acc id with ⟨⟨e, he⟩, heq⟩ | ⟨entry, table, hget, hrem, heq⟩
    · rw [heq]
      obtain ⟨removed, hswept, hreports, hbudgets, hids, hgone⟩ := ih m acc
      refine ⟨removed, hswept, hreports, hbudgets,
        fun p hp => List.mem_cons_of_mem _ (hids p hp), List.forall_mem_cons.2 ⟨?_, hgone⟩⟩
      -- nothing was live under this id, and a sweep adds nothing
      intro hmem
      obtain ⟨p, hp, rfl⟩ := List.mem_map.1 hmem
      exact not_mem_of_get_error he (List.mem_map_of_mem (hswept.mem_of_mem hp))
    · rw [heq]
      set m₁ : ResourceManager :=
        { m with
          table := table
          flowResources := Index.remove m.flowResources (some entry.flowId) id
          pools := (retire entry m.pools m.heap).1
          heap := (retire entry m.pools m.heap).2 } with hm₁
      have hone : Swept m [(id, entry)] m₁ := ⟨hrem.live, rfl, rfl⟩
      obtain ⟨removed, hswept, hreports, hbudgets, hids, hgone⟩ :=
        ih m₁ (acc ++ [reportOf (id, entry)])
      refine ⟨(id, entry) :: removed, hone.trans hswept, ?_, hbudgets, ?_,
        List.forall_mem_cons.2 ⟨?_, hgone⟩⟩
      · rw [List.append_assoc] at hreports
        exact hreports
      · exact List.forall_mem_cons.2
          ⟨List.mem_cons_self, fun p hp => List.mem_cons_of_mem _ (hids p hp)⟩
      · exact (hone.trans hswept).not_mem_of_mem List.mem_cons_self

/-- The loop of `reclaim_flow_buffers` removes what is live under its ids, and releases the
budgets of the owners. -/
theorem reclaimFlow_sweep (ids : List ResourceId) (m : ResourceManager)
    (stats : FlowResourceStats) :
    ∃ removed, Swept m removed (ids.foldl reclaimFlowOne (m, stats)).1 ∧
      (ids.foldl reclaimFlowOne (m, stats)).2 = removed.foldl tally stats ∧
      (ids.foldl reclaimFlowOne (m, stats)).1.budgets =
        removed.foldl (fun b p => b.releaseFor p.2.owner p.2.payloadCapacity) m.budgets ∧
      (∀ p ∈ removed, p.1 ∈ ids) ∧
      ∀ id ∈ ids, id ∉ (ids.foldl reclaimFlowOne (m, stats)).1.table.iter.map Prod.fst := by
  induction ids generalizing m stats with
  | nil => exact ⟨[], .refl m, rfl, rfl, by simp, by simp⟩
  | cons id rest ih =>
    rw [List.foldl_cons]
    rcases reclaimFlowOne_cases m stats id with ⟨⟨e, he⟩, heq⟩ | ⟨entry, table, hget, hrem, heq⟩
    · rw [heq]
      obtain ⟨removed, hswept, hstats, hbudgets, hids, hgone⟩ := ih m stats
      refine ⟨removed, hswept, hstats, hbudgets,
        fun p hp => List.mem_cons_of_mem _ (hids p hp), List.forall_mem_cons.2 ⟨?_, hgone⟩⟩
      intro hmem
      obtain ⟨p, hp, rfl⟩ := List.mem_map.1 hmem
      exact not_mem_of_get_error he (List.mem_map_of_mem (hswept.mem_of_mem hp))
    · rw [heq]
      set m₁ : ResourceManager :=
        { m with
          table := table
          componentResources := Index.remove m.componentResources entry.owner.componentId id
          pools := (retire entry m.pools m.heap).1
          heap := (retire entry m.pools m.heap).2
          budgets := m.budgets.releaseFor entry.owner entry.payloadCapacity } with hm₁
      have hone : Swept m [(id, entry)] m₁ := ⟨hrem.live, rfl, rfl⟩
      obtain ⟨removed, hswept, hstats, hbudgets, hids, hgone⟩ := ih m₁ (tally stats (id, entry))
      refine ⟨(id, entry) :: removed, hone.trans hswept, hstats, hbudgets, ?_,
        List.forall_mem_cons.2 ⟨?_, hgone⟩⟩
      · exact List.forall_mem_cons.2
          ⟨List.mem_cons_self, fun p hp => List.mem_cons_of_mem _ (hids p hp)⟩
      · exact (hone.trans hswept).not_mem_of_mem List.mem_cons_self

/-! ## The operations -/

/-- `force_reclaim` is a sweep. -/
theorem forceReclaim_swept (c : ComponentId) (hash : HashOrder) :
    ∃ removed, Swept m removed (m.forceReclaim c hash).2 := by
  obtain ⟨removed, hswept, -⟩ := forceReclaim_sweep (hash.order (m.componentResources c))
    { m with componentResources := Function.update m.componentResources c ∅ } []
  exact ⟨removed, hswept.live, hswept.buffers, hswept.ledger⟩

/-- `reclaim_flow_buffers` is a sweep. -/
theorem reclaimFlow_swept (f : FlowId) (hash : HashOrder) :
    ∃ removed, Swept m removed (m.reclaimFlowBuffers f hash).2 := by
  obtain ⟨removed, hswept, -⟩ := reclaimFlow_sweep (hash.order (m.flowResources f))
    { m with flowResources := Function.update m.flowResources f ∅ } {}
  exact ⟨removed, hswept.live, hswept.buffers, hswept.ledger⟩

/-- **`force_reclaim` removes exactly the resources of the component** and reports each of
them. -/
theorem IndexedManager.forceReclaim_spec (h : IndexedManager m) (c : ComponentId)
    (hash : HashOrder) :
    ∃ removed, Swept m removed (m.forceReclaim c hash).2 ∧
      (∀ p, p ∈ removed ↔ p ∈ m.table.iter ∧ p.2.owner = .component c) ∧
      (m.forceReclaim c hash).1 = removed.map reportOf ∧
      (m.forceReclaim c hash).2.budgets = m.budgets.unregister c := by
  obtain ⟨removed, hswept, hreports, hbudgets, hids, hgone⟩ := forceReclaim_sweep
    (hash.order (m.componentResources c))
    { m with componentResources := Function.update m.componentResources c ∅ } []
  have hmem : ∀ p ∈ m.table.iter,
      p.1 ∈ hash.order (m.componentResources c) ↔ p.2.owner = .component c := by
    intro p hp
    rw [hash.mem, h.components c p.1]
    constructor
    · rintro ⟨entry, hentry, hkey⟩
      have heq := List.inj_on_of_nodup_map m.table.nodup_iter hp hentry rfl
      rw [heq]
      exact OwnerId.componentId_eq_some.1 hkey
    · intro howner
      exact ⟨p.2, hp, OwnerId.componentId_eq_some.2 howner⟩
  refine ⟨removed, ⟨hswept.live, hswept.buffers, hswept.ledger⟩, fun p => ⟨fun hp => ?_, ?_⟩,
    hreports, ?_⟩
  · have hlive : p ∈ m.table.iter := hswept.live.mem_iff.2 (List.mem_append_left _ hp)
    exact ⟨hlive, (hmem p hlive).1 (hids p hp)⟩
  · rintro ⟨hp, howner⟩
    refine (List.mem_append.1 (hswept.live.mem_iff.1 hp)).resolve_right fun hleft => ?_
    exact hgone _ ((hmem p hp).2 howner) (List.mem_map_of_mem hleft)
  · rw [← hbudgets]
    rfl

/-- **`reclaim_flow_buffers` removes exactly the resources of the flow** and reports their
number, their bytes and their borrows. -/
theorem IndexedManager.reclaimFlow_spec (h : IndexedManager m) (f : FlowId) (hash : HashOrder) :
    ∃ removed, Swept m removed (m.reclaimFlowBuffers f hash).2 ∧
      (∀ p, p ∈ removed ↔ p ∈ m.table.iter ∧ p.2.flowId = f) ∧
      (m.reclaimFlowBuffers f hash).1 = removed.foldl tally {} ∧
      (m.reclaimFlowBuffers f hash).2.budgets =
        removed.foldl (fun b p => b.releaseFor p.2.owner p.2.payloadCapacity) m.budgets := by
  obtain ⟨removed, hswept, hstats, hbudgets, hids, hgone⟩ := reclaimFlow_sweep
    (hash.order (m.flowResources f))
    { m with flowResources := Function.update m.flowResources f ∅ } {}
  have hmem : ∀ p ∈ m.table.iter, p.1 ∈ hash.order (m.flowResources f) ↔ p.2.flowId = f := by
    intro p hp
    rw [hash.mem, h.flows f p.1]
    constructor
    · rintro ⟨entry, hentry, hkey⟩
      have heq := List.inj_on_of_nodup_map m.table.nodup_iter hp hentry rfl
      rw [heq]
      exact Option.some.inj hkey
    · intro hflow
      exact ⟨p.2, hp, congrArg some hflow⟩
  refine ⟨removed, ⟨hswept.live, hswept.buffers, hswept.ledger⟩, fun p => ⟨fun hp => ?_, ?_⟩,
    hstats, hbudgets⟩
  · have hlive : p ∈ m.table.iter := hswept.live.mem_iff.2 (List.mem_append_left _ hp)
    exact ⟨hlive, (hmem p hlive).1 (hids p hp)⟩
  · rintro ⟨hp, hflow⟩
    refine (List.mem_append.1 (hswept.live.mem_iff.1 hp)).resolve_right fun hleft => ?_
    exact hgone _ ((hmem p hp).2 hflow) (List.mem_map_of_mem hleft)

end ResourceManager

end Torvyn
