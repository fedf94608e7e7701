/-
# Terminal reclamation

When a flow reaches a terminal state the coordinator reclaims its buffers in two sweeps: by
component, over the index of what components own, and then by flow, over the index of what
was allocated for the flow. The indices overlap. Together the sweeps remove each buffer once,
report it once, and leave every other flow alone.
-/
import Torvyn.Resources.Atomicity
import Torvyn.Resources.Isolation
import Torvyn.Resources.Reclaim

namespace Torvyn

/-! ## Buffers that are returned -/

/-- Buffers have been released, each of them once: the free stack of a pool has grown by the
slots of the buffers that came from it, and the heap has lost the blocks of the others. -/
structure Returned (pools : BufferPoolSet) (heap : Heap) (released : List Buffer)
    (pools' : BufferPoolSet) (heap' : Heap) : Prop where
  pooled : ∀ t l, FreeList (pools t).next stackEmpty (pools t).freeTop l →
    ∃ slots, FreeList (pools' t).next stackEmpty (pools' t).freeTop (slots ++ l) ∧
      slots.map (fun i => (pools t).blocks[i]?) =
        (released.filter fun b => !b.isFallback && decide (b.tier = t)).reverse.map
          (fun b => some b.block)
  deallocated : heap.blocks.Perm
    ((released.filter Buffer.isFallback).map Buffer.block ++ heap'.blocks)

namespace Returned

theorem nil (pools : BufferPoolSet) (heap : Heap) : Returned pools heap [] pools heap :=
  ⟨fun _ _ hl => ⟨[], hl, rfl⟩, .refl _⟩

/-- One buffer, and then others. -/
theorem cons {pools pools₁ pools' : BufferPoolSet} {heap heap₁ heap' : Heap} {buffer : Buffer}
    {released : List Buffer} (h : Returned pools heap [buffer] pools₁ heap₁)
    (hblocks : ∀ t, (pools₁ t).blocks = (pools t).blocks)
    (h' : Returned pools₁ heap₁ released pools' heap') :
    Returned pools heap (buffer :: released) pools' heap' where
  pooled t l hl := by
    obtain ⟨slots, hl₁, hslots⟩ := h.pooled t l hl
    obtain ⟨slots', hl', hslots'⟩ := h'.pooled t _ hl₁
    refine ⟨slots' ++ slots, ?_, ?_⟩
    · rw [List.append_assoc]
      exact hl'
    · rw [hblocks] at hslots'
      rw [List.map_append, hslots, hslots', ← List.map_append, ← List.reverse_append,
        ← List.filter_append]
      rfl
  deallocated := by
    have hsplit : (buffer :: released).filter Buffer.isFallback =
        [buffer].filter Buffer.isFallback ++ released.filter Buffer.isFallback := by
      rw [← List.filter_append]
      rfl
    rw [hsplit, List.map_append, List.append_assoc]
    exact h.deallocated.trans (h'.deallocated.append_left _)

end Returned

/-- A released buffer is returned. -/
theorem Custody.returned {pools : BufferPoolSet} {heap : Heap} {used : List Buffer}
    {buffer : Buffer} (h : Custody pools heap (buffer :: used)) :
    Returned pools heap [buffer] (BufferPoolSet.release buffer pools heap).1
      (BufferPoolSet.release buffer pools heap).2 := by
  unfold BufferPoolSet.release
  cases hf : buffer.isFallback with
  | true =>
    refine ⟨fun t l hl => ⟨[], hl, by simp [hf]⟩, ?_⟩
    simp only [if_true, hf, List.filter_cons_of_pos, List.filter_nil, List.map_cons, List.map_nil,
      List.singleton_append, deallocBuffer, Heap.dealloc]
    exact List.perm_cons_erase (h.allocated buffer List.mem_cons_self)
  | false =>
    obtain ⟨pool, hpush, hblocks, -⟩ := h.push hf
    obtain ⟨block, hblock, hstart, hnext, -, hother⟩ := TierPool.push_spec hpush
    have hmem := h.fromPool buffer List.mem_cons_self hf
    obtain rfl : block = buffer.block :=
      h.wellFormed.eq_of_start_eq (h.pooled _ _ (List.mem_of_getElem? hblock))
        (h.pooled _ _ hmem) hstart
    simp only [Bool.false_eq_true, if_false, hpush]
    refine ⟨fun t l hl => ?_, by simp [hf]⟩
    by_cases ht : t = buffer.tier
    · subst ht
      have hlt := (List.getElem?_eq_some_iff.1 hblock).1
      refine ⟨[pool.freeTop], ?_, by simp [hf, hblock]⟩
      rw [Function.update_self]
      refine hl.push (fun hi => ?_) ?_ hnext hother
      · -- the slot was handed out, so it was not on the free stack
        obtain ⟨l', hl', hfree⟩ := h.free buffer.tier
        rw [hl.unique hl'] at hi
        exact hfree _ hi _ hblock List.mem_cons_self
      · have hroom := h.room buffer.tier
        omega
    · refine ⟨[], ?_, by simp [hf, Ne.symm ht]⟩
      rw [Function.update_of_ne ht]
      exact hl

namespace ResourceManager

/-- The buffers of a sweep are returned. -/
theorem returned_retireAll (removed : List (ResourceId × ResourceEntry)) {pools : BufferPoolSet}
    {heap : Heap} {rest : List Buffer}
    (h : Custody pools heap (removed.map (fun p => p.2.buffer) ++ rest)) :
    Returned pools heap (removed.map fun p => p.2.buffer) (retireAll removed pools heap).1
      (retireAll removed pools heap).2 := by
  induction removed generalizing pools heap with
  | nil => exact .nil pools heap
  | cons p removed ih =>
    have hzeroed := h.of_blocks_eq (zeroPayload p.2.bufferPtr p.2.payloadCapacity heap) rfl
    obtain ⟨hcustody, hblocks, -⟩ := hzeroed.release
    have hone : Returned pools heap [p.2.buffer] (retire p.2 pools heap).1
        (retire p.2 pools heap).2 :=
      ⟨hzeroed.returned.pooled, hzeroed.returned.deallocated⟩
    exact hone.cons hblocks (ih hcustody)

/-- The buffers that a sweep removes are returned. -/
theorem Swept.returned {slots : PoolTier → List Block} {m m' : ResourceManager}
    {removed : List (ResourceId × ResourceEntry)} (h : Swept m removed m')
    (hstored : StoredManager slots m) :
    Returned m.pools m.heap (removed.map fun p => p.2.buffer) m'.pools m'.heap := by
  have hused : (used m.table).Perm (removed.map (fun p => p.2.buffer) ++ used m'.table) := by
    have hperm := h.live.map fun p : ResourceId × ResourceEntry => p.2.buffer
    rwa [List.map_append] at hperm
  have hreturned := returned_retireAll removed (hstored.custody.perm hused)
  rwa [← h.buffers] at hreturned

/-! ## The two sweeps of the coordinator -/

/-- What the terminal reclamation of a flow reports: the resources of its components, and the
totals of what was left of the flow. -/
structure TerminalReport where
  reclaimed : List ResourceReclaimed
  flow : FlowResourceStats

/-- The number of reclaimed buffers, as the coordinator counts them. -/
def TerminalReport.buffers (report : TerminalReport) : ℕ :=
  report.reclaimed.length + (report.flow.returnedToPool + report.flow.deallocated)

/-- The number of reclaimed bytes. -/
def TerminalReport.bytes (report : TerminalReport) : ℕ :=
  (report.reclaimed.map (·.payloadCapacity)).sum + report.flow.totalBytesReleased

/-- The first sweep: reclaim one component after another. -/
def reclaimComponents : List (ComponentId × HashOrder) → ResourceManager →
    List ResourceReclaimed × ResourceManager
  | [], m => ([], m)
  | (component, hash) :: components, m =>
    let (reclaimed, m) := m.forceReclaim component hash
    let (others, m) := reclaimComponents components m
    (reclaimed ++ others, m)

/-- `reclaim_flow_resources` of the coordinator. -/
def reclaimFlowResources (flowId : FlowId) (components : List (ComponentId × HashOrder))
    (hash : HashOrder) (m : ResourceManager) : TerminalReport × ResourceManager :=
  let (reclaimed, m) := reclaimComponents components m
  let (stats, m) := m.reclaimFlowBuffers flowId hash
  (⟨reclaimed, stats⟩, m)

/-- The totals of a sweep by flow. -/
def flowStatsOf (removed : List (ResourceId × ResourceEntry)) : FlowResourceStats where
  returnedToPool := removed.countP fun p => !p.2.isFallback
  deallocated := removed.countP fun p => p.2.isFallback
  totalBytesReleased := (removed.map fun p => p.2.payloadCapacity).sum
  borrowsCleared := (removed.map fun p => p.2.borrowCount).sum

/-- The report adds up what is removed. -/
theorem foldl_tally (removed : List (ResourceId × ResourceEntry)) (stats : FlowResourceStats) :
    removed.foldl tally stats =
      { returnedToPool := stats.returnedToPool + (flowStatsOf removed).returnedToPool
        deallocated := stats.deallocated + (flowStatsOf removed).deallocated
        totalBytesReleased := stats.totalBytesReleased + (flowStatsOf removed).totalBytesReleased
        borrowsCleared := stats.borrowsCleared + (flowStatsOf removed).borrowsCleared } := by
  induction removed generalizing stats with
  | nil => rfl
  | cons p removed ih =>
    rw [List.foldl_cons, ih]
    cases hf : p.2.isFallback
    all_goals
      simp only [tally, flowStatsOf, hf, List.countP_cons, List.map_cons, List.sum_cons,
        FlowResourceStats.mk.injEq]
      simp
      omega

/-- Every removed resource is counted once, as returned or as deallocated. -/
theorem flowStatsOf_total (removed : List (ResourceId × ResourceEntry)) :
    (flowStatsOf removed).returnedToPool + (flowStatsOf removed).deallocated = removed.length := by
  have h := List.length_eq_countP_add_countP (fun p : ResourceId × ResourceEntry => p.2.isFallback)
    (l := removed)
  simp only [flowStatsOf]
  rw [h, Nat.add_comm]
  simp

/-! ## The budgets of other components -/

/-- The bytes that a component owns among some resources. -/
def bytesOf (component : ComponentId) (live : List (ResourceId × ResourceEntry)) : ℕ :=
  ((live.filter fun p => decide (p.2.owner = .component component)).map
    fun p => p.2.payloadCapacity).sum

/-- The reserved bytes of a component have gone down by `bytes`, as the machine subtracts. -/
structure ReducedBy (bytes : ℕ) (before after : Option ComponentBudget) : Prop where
  none : before = .none → after = .none
  some : ∀ budget, before = .some budget → ∃ budget', after = .some budget' ∧
    budget'.maxOwnedBytes = budget.maxOwnedBytes ∧ budget'.currentOwnedBytes < 2 ^ 64 ∧
    (budget'.currentOwnedBytes + bytes) % 2 ^ 64 = budget.currentOwnedBytes

namespace ReducedBy

variable {bytes bytes' : ℕ} {before between after : Option ComponentBudget}

theorem refl (hrange : ∀ budget, before = .some budget → budget.currentOwnedBytes < 2 ^ 64) :
    ReducedBy 0 before before :=
  ⟨id, fun budget h => ⟨budget, h, rfl, hrange budget h, Nat.mod_eq_of_lt (hrange budget h)⟩⟩

theorem trans (h : ReducedBy bytes before between) (h' : ReducedBy bytes' between after) :
    ReducedBy (bytes + bytes') before after where
  none hnone := h'.none (h.none hnone)
  some budget hbudget := by
    obtain ⟨budget₁, hbudget₁, hmax₁, -, hbytes₁⟩ := h.some budget hbudget
    obtain ⟨budget', hbudget', hmax', hrange', hbytes'⟩ := h'.some budget₁ hbudget₁
    exact ⟨budget', hbudget', hmax'.trans hmax₁, hrange', by omega⟩

/-- The counter that is left is in range. -/
theorem inRange (h : ReducedBy bytes before after) :
    ∀ budget, after = .some budget → budget.currentOwnedBytes < 2 ^ 64 := by
  intro budget hbudget
  cases before with
  | none => cases (h.none rfl).symm.trans hbudget
  | some budget₀ =>
    obtain ⟨budget', hbudget', -, hrange, -⟩ := h.some budget₀ rfl
    obtain rfl := Option.some.inj (hbudget'.symm.trans hbudget)
    exact hrange

end ReducedBy

/-- What a release does to the budget of a component. -/
theorem budgets_releaseFor (registry : BudgetRegistry) (owner : OwnerId) (bytes : ℕ)
    (component : ComponentId) :
    (registry.releaseFor owner bytes).budgets component =
      if owner = .component component then
        (registry.budgets component).map (ComponentBudget.release bytes)
      else registry.budgets component := by
  cases owner with
  | host => rfl
  | transit => rfl
  | component c =>
    simp only [BudgetRegistry.releaseFor, BudgetRegistry.releaseBytes, OwnerId.component.injEq]
    by_cases hc : c = component
    · subst hc
      rw [if_pos rfl]
      split
      · rename_i hnone
        rw [hnone, Option.map_none]
      · rename_i budget hsome
        simp only [hsome, Function.update_self, Option.map_some]
    · rw [if_neg hc]
      split
      · rfl
      · simp only [Function.update_of_ne (Ne.symm hc)]

/-- One release. -/
theorem reducedBy_releaseFor {component : ComponentId} {owner : OwnerId} {bytes : ℕ}
    (hbytes : bytes ≤ 2 ^ 64) {registry : BudgetRegistry}
    (hrange : ∀ budget, registry.budgets component = some budget →
      budget.currentOwnedBytes < 2 ^ 64) :
    ReducedBy (if owner = .component component then bytes else 0)
      (registry.budgets component) ((registry.releaseFor owner bytes).budgets component) := by
  rw [budgets_releaseFor]
  split_ifs
  · refine ⟨fun hnone => ?_, fun budget hsome => ⟨budget.release bytes, ?_,
      ComponentBudget.release_maxOwnedBytes bytes budget, ?_, ?_⟩⟩
    · rw [hnone, Option.map_none]
    · rw [hsome, Option.map_some]
    · exact Nat.mod_lt _ (Nat.two_pow_pos 64)
    · have hlt := hrange budget hsome
      simp only [ComponentBudget.release]
      omega
  · exact ReducedBy.refl hrange

/-- A sweep by flow takes from a component the capacity of the buffers that it removes. -/
theorem reducedBy_foldl (component : ComponentId) {removed : List (ResourceId × ResourceEntry)}
    (hremoved : ∀ p ∈ removed, p.2.payloadCapacity ≤ 2 ^ 64) {registry : BudgetRegistry}
    (hrange : ∀ budget, registry.budgets component = some budget →
      budget.currentOwnedBytes < 2 ^ 64) :
    ReducedBy (bytesOf component removed) (registry.budgets component)
      ((removed.foldl (fun b p => b.releaseFor p.2.owner p.2.payloadCapacity) registry).budgets
        component) := by
  induction removed generalizing registry with
  | nil => exact .refl hrange
  | cons p removed ih =>
    obtain ⟨hp, hremoved⟩ := List.forall_mem_cons.1 hremoved
    have hone : ReducedBy _ _ ((registry.releaseFor p.2.owner p.2.payloadCapacity).budgets _) :=
      reducedBy_releaseFor hp hrange
    have hsum : bytesOf component (p :: removed) =
        (if p.2.owner = .component component then p.2.payloadCapacity else 0) +
          bytesOf component removed := by
      by_cases howner : p.2.owner = .component component
      · simp [bytesOf, howner]
      · simp [bytesOf, howner]
    rw [List.foldl_cons, hsum]
    exact hone.trans (ih hremoved hone.inRange)

/-! ## Both sweeps -/

/-- The owner is one of the components. -/
def OwnedBy (components : List ComponentId) (entry : ResourceEntry) : Prop :=
  ∃ component ∈ components, entry.owner = .component component

/-- The first sweep removes exactly what the components own, in whatever order they are
listed, and touches no other budget. -/
theorem IndexedManager.reclaimComponents_spec (components : List (ComponentId × HashOrder))
    {m : ResourceManager} (h : IndexedManager m) :
    ∃ removed, Swept m removed (reclaimComponents components m).2 ∧
      IndexedManager (reclaimComponents components m).2 ∧
      (∀ p, p ∈ removed ↔ p ∈ m.table.iter ∧ OwnedBy (components.map Prod.fst) p.2) ∧
      (reclaimComponents components m).1 = removed.map reportOf ∧
      ∀ c, c ∉ components.map Prod.fst →
        (reclaimComponents components m).2.budgets.budgets c = m.budgets.budgets c := by
  induction components generalizing m with
  | nil => exact ⟨[], .refl m, h, by simp [OwnedBy], rfl, fun _ _ => rfl⟩
  | cons first components ih =>
    obtain ⟨component, hash⟩ := first
    obtain ⟨owned, hswept, howned, hreports, hbudgets⟩ := h.forceReclaim_spec component hash
    obtain ⟨removed, hswept', hindexed, hremoved, hreports', hbudgets'⟩ :=
      ih (h.forceReclaim component hash)
    refine ⟨owned ++ removed, hswept.trans hswept', hindexed, fun p => ?_, ?_, fun c hc => ?_⟩
    · rw [List.mem_append, howned, hremoved, hswept.mem_iff, howned]
      simp only [OwnedBy, List.map_cons, List.mem_cons, exists_eq_or_imp]
      tauto
    · rw [List.map_append, ← hreports, ← hreports']
      rfl
    · rw [List.map_cons, List.mem_cons, not_or] at hc
      have hsame : (m.forceReclaim component hash).2.budgets.budgets c = m.budgets.budgets c := by
        rw [hbudgets]
        exact Function.update_of_ne hc.1 _ _
      exact (hbudgets' c hc.2).trans hsame

/-- The first sweep keeps payloads isolated. -/
theorem IsolatedManager.reclaimComponents {slots : PoolTier → List Block} {contents : Contents}
    (components : List (ComponentId × HashOrder)) {m : ResourceManager}
    (h : IsolatedManager slots contents m) :
    IsolatedManager slots contents (ResourceManager.reclaimComponents components m).2 := by
  induction components generalizing m with
  | nil => exact h
  | cons first components ih => exact ih (h.forceReclaim first.1 first.2)

/-- What the terminal reclamation of a flow and its components does to a manager. -/
structure TerminallyReclaimed (flowId : FlowId) (components : List ComponentId)
    (m : ResourceManager) (report : TerminalReport) (m' : ResourceManager) : Prop where
  /-- nothing of the flow and nothing of the components is left -/
  gone : ∀ handle entry, m'.table.get handle = .ok entry →
    entry.flowId ≠ flowId ∧ ¬OwnedBy components entry
  /-- what is removed is returned once and reported once, in one of the two sweeps -/
  once : ∃ owned rest, m.table.iter.Perm (owned ++ rest ++ m'.table.iter) ∧
    report.reclaimed = owned.map reportOf ∧ report.flow = flowStatsOf rest ∧
    report.buffers = (owned ++ rest).length ∧
    report.bytes = ((owned ++ rest).map fun p => p.2.payloadCapacity).sum ∧
    Returned m.pools m.heap ((owned ++ rest).map fun p => p.2.buffer) m'.pools m'.heap ∧
    ∀ c, c ∉ components →
      ReducedBy (bytesOf c (owned ++ rest)) (m.budgets.budgets c) (m'.budgets.budgets c)
  /-- everything else is kept, with its payload -/
  kept : ∀ handle entry, m.table.get handle = .ok entry → entry.flowId ≠ flowId →
    ¬OwnedBy components entry →
    m'.table.get handle = .ok entry ∧ payloadOf m' entry = payloadOf m entry
  copies : m'.ledger = m.ledger
  /-- a second reclamation finds nothing -/
  repeated : ∀ components' hash, (∀ c ∈ components'.map Prod.fst, c ∈ components) →
    (m'.reclaimFlowResources flowId components' hash).1 = ⟨[], {}⟩

/-- What is owned by a component outside the list is not removed by the first sweep. -/
theorem bytesOf_eq_zero {component : ComponentId} {components : List ComponentId}
    {owned : List (ResourceId × ResourceEntry)} (hc : component ∉ components)
    (howned : ∀ p ∈ owned, OwnedBy components p.2) : bytesOf component owned = 0 := by
  have hnil : (owned.filter fun p => decide (p.2.owner = .component component)) = [] := by
    rw [List.filter_eq_nil_iff]
    intro p hp hdecide
    obtain ⟨c, hmem, howner⟩ := howned p hp
    rw [howner] at hdecide
    exact hc (OwnerId.component.inj (of_decide_eq_true hdecide) ▸ hmem)
  rw [bytesOf, hnil]
  rfl

theorem bytesOf_append (component : ComponentId) (live live' : List (ResourceId × ResourceEntry)) :
    bytesOf component (live ++ live') = bytesOf component live + bytesOf component live' := by
  simp only [bytesOf, List.filter_append, List.map_append, List.sum_append]

/-- Without anything of the flow or of the components, nothing is reclaimed. -/
theorem IndexedManager.reclaimFlowResources_nil {m : ResourceManager} (h : IndexedManager m)
    {flowId : FlowId} {components : List (ComponentId × HashOrder)} (hash : HashOrder)
    (hgone : ∀ p ∈ m.table.iter, p.2.flowId ≠ flowId ∧ ¬OwnedBy (components.map Prod.fst) p.2) :
    (m.reclaimFlowResources flowId components hash).1 = ⟨[], {}⟩ := by
  obtain ⟨owned, hswept, hindexed, howned, hreports, -⟩ := h.reclaimComponents_spec components
  obtain ⟨rest, -, hrest, hstats, -⟩ := hindexed.reclaimFlow_spec flowId hash
  have howned_nil : owned = [] := by
    rw [List.eq_nil_iff_forall_not_mem]
    intro p hp
    obtain ⟨hlive, hcomponent⟩ := (howned p).1 hp
    exact (hgone p hlive).2 hcomponent
  have hrest_nil : rest = [] := by
    rw [List.eq_nil_iff_forall_not_mem]
    intro p hp
    obtain ⟨hlive, hflow⟩ := (hrest p).1 hp
    exact (hgone p (hswept.mem_of_mem hlive)).1 hflow
  subst howned_nil hrest_nil
  simp only [reclaimFlowResources, hreports, hstats]
  rfl

/-- A payload has the size of a buffer. -/
theorem StoredManager.capacity_le {slots : PoolTier → List Block} {m : ResourceManager}
    (h : StoredManager slots m) : ∀ p ∈ m.table.iter, p.2.payloadCapacity ≤ 2 ^ 64 := by
  intro p hp
  have hle := (h.entries p hp).capacity_bounds.2
  simp only [maxBufferSize] at hle
  omega

/-- **The two sweeps of a reclamation**: first what the components own, then what is left of the
flow; the budget of another component loses what the second sweep takes from it. -/
theorem IndexedManager.reclaimFlowResources_spec {m : ResourceManager} (h : IndexedManager m)
    (hrange : CountersInRange m.budgets)
    (hcap : ∀ p ∈ m.table.iter, p.2.payloadCapacity ≤ 2 ^ 64) (flowId : FlowId)
    (components : List (ComponentId × HashOrder)) (hash : HashOrder) :
    ∃ owned rest,
      Swept m (owned ++ rest) (m.reclaimFlowResources flowId components hash).2 ∧
      IndexedManager (m.reclaimFlowResources flowId components hash).2 ∧
      (∀ p, p ∈ owned ↔ p ∈ m.table.iter ∧ OwnedBy (components.map Prod.fst) p.2) ∧
      (∀ p, p ∈ rest ↔ (p ∈ m.table.iter ∧ ¬OwnedBy (components.map Prod.fst) p.2) ∧
        p.2.flowId = flowId) ∧
      (m.reclaimFlowResources flowId components hash).1 =
        ⟨owned.map reportOf, flowStatsOf rest⟩ ∧
      ∀ c, c ∉ components.map Prod.fst → ReducedBy (bytesOf c rest) (m.budgets.budgets c)
        ((m.reclaimFlowResources flowId components hash).2.budgets.budgets c) := by
  obtain ⟨owned, hswept₁, hindexed₁, howned, hreports, hbudgets₁⟩ :=
    h.reclaimComponents_spec components
  obtain ⟨rest, hswept₂, hrest, hstats, hbudgets₂⟩ := hindexed₁.reclaimFlow_spec flowId hash
  have hleft : ∀ p, p ∈ rest ↔ (p ∈ m.table.iter ∧ ¬OwnedBy (components.map Prod.fst) p.2) ∧
      p.2.flowId = flowId := by
    intro p
    rw [hrest, hswept₁.mem_iff, howned]
    tauto
  refine ⟨owned, rest, hswept₁.trans hswept₂, hindexed₁.reclaimFlow flowId hash, howned, hleft,
    ?_, fun c hc => ?_⟩
  · rw [foldl_tally] at hstats
    simp only [Nat.zero_add] at hstats
    simp only [reclaimFlowResources, hreports, hstats]
  · have hrange₁ := hrange c
    rw [← hbudgets₁ c hc] at hrange₁ ⊢
    show ReducedBy _ _
      (((reclaimComponents components m).2.reclaimFlowBuffers flowId hash).2.budgets.budgets c)
    rw [hbudgets₂]
    exact reducedBy_foldl c (fun p hp => hcap p ((hleft p).1 hp).1.1) hrange₁

/-- The reclamation of a manager whose payloads are isolated. -/
theorem terminallyReclaimed {slots : PoolTier → List Block} {contents : Contents}
    {m : ResourceManager} (hindexed : IndexedManager m)
    (hisolated : IsolatedManager slots contents m) (hrange : CountersInRange m.budgets)
    (flowId : FlowId) (components : List (ComponentId × HashOrder)) (hash : HashOrder) :
    TerminallyReclaimed flowId (components.map Prod.fst) m
      (m.reclaimFlowResources flowId components hash).1
      (m.reclaimFlowResources flowId components hash).2 := by
  obtain ⟨owned, rest, hswept, hindexed', howned, hrest, hreport, hbudgets⟩ :=
    hindexed.reclaimFlowResources_spec hrange (StoredManager.capacity_le hisolated.stored) flowId
      components hash
  have hisolated' : IsolatedManager slots contents
      (m.reclaimFlowResources flowId components hash).2 := by
    refine IsolatedManager.reclaimFlow ?_ flowId hash
    exact hisolated.reclaimComponents components
  rw [hreport]
  set m' := (m.reclaimFlowResources flowId components hash).2
  have hremoved : ∀ p, p ∈ owned ++ rest ↔
      p ∈ m.table.iter ∧ (p.2.flowId = flowId ∨ OwnedBy (components.map Prod.fst) p.2) := by
    intro p
    rw [List.mem_append, howned, hrest]
    tauto
  have hgone : ∀ p ∈ m'.table.iter,
      p.2.flowId ≠ flowId ∧ ¬OwnedBy (components.map Prod.fst) p.2 := by
    intro p hp
    obtain ⟨hlive, hnot⟩ := hswept.mem_iff.1 hp
    rw [hremoved] at hnot
    tauto
  refine ⟨fun handle entry hget => hgone _ (ResourceTable.get_eq_ok.1 hget),
    ⟨owned, rest, hswept.live, rfl, rfl, ?_, ?_, hswept.returned hisolated.stored,
      fun c hc => ?_⟩,
    fun handle entry hget hflow howner => ?_, hswept.ledger, fun components' hash' hsub => ?_⟩
  · rw [TerminalReport.buffers, flowStatsOf_total, List.length_map, List.length_append]
  · rw [TerminalReport.bytes, List.map_map, List.map_append, List.sum_append]
    rfl
  · rw [bytesOf_append, bytesOf_eq_zero hc fun p hp => ((howned p).1 hp).2, Nat.zero_add]
    exact hbudgets c hc
  · have hlive := ResourceTable.get_eq_ok.1 hget
    have hkept : (handle.resourceId, entry) ∈ m'.table.iter := by
      refine hswept.mem_iff.2 ⟨hlive, fun hmem => ?_⟩
      exact (((hremoved _).1 hmem).2).elim hflow howner
    refine ⟨ResourceTable.get_eq_ok.2 hkept, ?_⟩
    rw [payloadOf_eq hisolated' hkept, payloadOf_eq hisolated hlive]
  · refine hindexed'.reclaimFlowResources_nil hash' fun p hp => ⟨(hgone p hp).1, ?_⟩
    rintro ⟨c, hc, howner⟩
    exact (hgone p hp).2 ⟨c, hsub c hc, howner⟩

end ResourceManager

namespace StartedManager

open ResourceManager

/-- **Terminal reclamation is complete and exact**: in every state of a run whose pooled
requests fit, it removes what belongs to the flow or to its components, returns and reports
each buffer once, and leaves the rest of the manager as it was. -/
theorem terminal_reclamation (s : StartedManager) {ops : List Op}
    (hops : Allowed (FitsPool s.config) s.manager ops) (flowId : FlowId)
    (components : List (ComponentId × HashOrder)) (hash : HashOrder) :
    TerminallyReclaimed flowId (components.map Prod.fst) (s.after ops)
      ((s.after ops).reclaimFlowResources flowId components hash).1
      ((s.after ops).reclaimFlowResources flowId components hash).2 :=
  terminallyReclaimed (s.indexed_after ops) (s.isolated_after hops) (s.countersInRange_after ops)
    flowId components hash

/-- A buffer of component 0, one of its flow handed to the host, and one of another flow. -/
def threeBuffers : List Op :=
  [.allocate .bump (.component ⟨0⟩) 10 ⟨0⟩, .allocate .bump .host 10 ⟨0⟩,
    .allocate .bump .host 10 ⟨1⟩, .writePayload ⟨⟨2, 1⟩⟩ .host 0 [7] ⟨1⟩]

theorem terminal_reclamation_three :
    (∃ entry, (startedSmallPool.after threeBuffers).table.get ⟨⟨2, 1⟩⟩ = .ok entry ∧
      entry.flowId = ⟨1⟩) ∧
    TerminallyReclaimed ⟨0⟩ [⟨0⟩] (startedSmallPool.after threeBuffers)
      ((startedSmallPool.after threeBuffers).reclaimFlowResources ⟨0⟩ [(⟨0⟩, default)] default).1
      ((startedSmallPool.after threeBuffers).reclaimFlowResources ⟨0⟩
        [(⟨0⟩, default)] default).2 := by
  refine ⟨⟨_, rfl, rfl⟩, startedSmallPool.terminal_reclamation ?_ ⟨0⟩ [(⟨0⟩, default)] default⟩
  exact ⟨.inr (by decide), .inr (by decide), .inr (by decide), trivial, trivial⟩

/-! ## A reclamation that reaches into another flow -/

/-- A hash set with one element is enumerated in one way. -/
theorem order_singleton (hash : HashOrder) (id : ResourceId) : hash.order {id} = [id] := by
  have hmem := hash.mem {id}
  have hnodup := hash.nodup {id}
  have hperm : (hash.order {id}).Perm [id] := by
    refine (List.perm_ext_iff_of_nodup hnodup (List.nodup_singleton id)).2 fun other => ?_
    rw [hmem, Finset.mem_singleton, List.mem_singleton]
  exact List.perm_singleton.1 hperm

/-- Two preallocated buffers of 1 MiB. -/
def hugePools : ResourceManagerConfig where
  tableCapacity := 2
  poolConfigs
    | .huge => ⟨.huge, 2, true⟩
    | tier => ⟨tier, 0, false⟩
  defaultBudgetBytes := 0

def startedHugePools : StartedManager where
  alloc := .bump
  config := hugePools
  manager := (ResourceManager.new .bump hugePools).getD
    ⟨.new 0, fun _ => ∅, fun _ => ∅, fun _ => ⟨[], 0⟩, .empty, .new 0, .new⟩
  started := by rfl

/-- Flow 0 asks for 2 MiB, flow 1 for 1 MiB, which it writes. -/
def oversized : List Op :=
  [.allocate .bump .host (2 * 1024 * 1024) ⟨0⟩, .allocate .bump .host (1024 * 1024) ⟨1⟩,
    .writePayload ⟨⟨1, 1⟩⟩ .host 0 [7] ⟨1⟩]

/-- Reclaiming flow 0 zeroes 2 MiB from the start of its 1 MiB buffer on, and so the payload
of flow 1. -/
theorem terminal_reclamation_overlap :
    (∃ entry, (startedHugePools.after oversized).table.get ⟨⟨1, 1⟩⟩ = .ok entry ∧
      entry.flowId = ⟨1⟩ ∧ payloadOf (startedHugePools.after oversized) entry = [7] ∧
      payloadOf ((startedHugePools.after oversized).reclaimFlowResources ⟨0⟩ [] default).2
        entry = [0]) ∧
    ¬TerminallyReclaimed ⟨0⟩ [] (startedHugePools.after oversized)
      ((startedHugePools.after oversized).reclaimFlowResources ⟨0⟩ [] default).1
      ((startedHugePools.after oversized).reclaimFlowResources ⟨0⟩ [] default).2 := by
  let entry : ResourceEntry :=
    { generation := 1, state := .owned, owner := .host, borrowCount := 0
      bufferPtr := headerSize + 1024 * 1024, allocSize := headerSize + 1024 * 1024
      payloadCapacity := 1024 * 1024, payloadLen := 1, poolTier := .huge, isFallback := false
      flowId := ⟨1⟩ }
  have hget : (startedHugePools.after oversized).table.get ⟨⟨1, 1⟩⟩ = .ok entry := by rfl
  have hids : (startedHugePools.after oversized).flowResources ⟨0⟩ = {⟨0, 1⟩} := by rfl
  have hbefore : payloadOf (startedHugePools.after oversized) entry = [7] := by decide
  have hafter : payloadOf
      ((startedHugePools.after oversized).reclaimFlowResources ⟨0⟩ [] default).2 entry = [0] := by
    simp only [reclaimFlowResources, reclaimComponents, reclaimFlowBuffers, hids, order_singleton]
    rfl
  refine ⟨⟨entry, hget, rfl, hbefore, hafter⟩, fun h => ?_⟩
  have hkept := (h.kept _ _ hget (by decide) (by rintro ⟨c, hc, -⟩; cases hc)).2
  rw [hbefore, hafter] at hkept
  exact absurd hkept (by decide)

end StartedManager

end Torvyn
