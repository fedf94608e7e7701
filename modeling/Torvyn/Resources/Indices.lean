/-
# The reverse indices

Three structures are updated one after another by every operation: the table, the index by
component and the index by flow. They agree in every state that a run reaches.
-/
import Torvyn.Resources.Effects

namespace Torvyn

namespace StartedManager

/-- A new manager is empty. -/
theorem manager_eq (s : StartedManager) :
    s.manager.table = .new s.config.tableCapacity.toNat ∧
    s.manager.componentResources = (fun _ => ∅) ∧ s.manager.flowResources = (fun _ => ∅) ∧
    s.manager.budgets = .new s.config.defaultBudgetBytes.toNat ∧ s.manager.ledger = .new ∧
    BufferPoolSet.new s.alloc s.config.poolConfigs .empty =
      some (s.manager.pools, s.manager.heap) ∧
    s.config.tableCapacity ≠ 0 := by
  have h := s.started
  unfold ResourceManager.new at h
  split_ifs at h with hcap
  split at h
  · cases h
  · rename_i pools heap hpools
    rw [← Option.some.inj h]
    exact ⟨rfl, rfl, rfl, rfl, rfl, hpools, hcap⟩

/-- The table of a new manager is well formed and has no resources. -/
theorem table_wellFormed (s : StartedManager) : s.manager.table.WellFormed := by
  obtain ⟨htable, -, -, -, -, -, hcap⟩ := s.manager_eq
  rw [htable]
  refine .new ?_ ?_
  · exact Nat.pos_of_ne_zero fun h => hcap (UInt32.toNat_inj.1 h)
  · have := s.config.tableCapacity.toNat_lt
    unfold freeListEnd
    omega

theorem iter_manager (s : StartedManager) : s.manager.table.iter = [] := by
  have hwf := s.table_wellFormed.len
  rw [s.manager_eq.1] at hwf ⊢
  exact List.eq_nil_of_length_eq_zero hwf.symm

end StartedManager

namespace ResourceManager

variable {m : ResourceManager}

/-- The key of the component index: the component that owns the entry. -/
def componentKey (entry : ResourceEntry) : Option ComponentId :=
  entry.owner.componentId

/-- The key of the flow index: the flow the entry was allocated for. -/
def flowKey (entry : ResourceEntry) : Option FlowId :=
  some entry.flowId

/-- The indices agree with the table. -/
structure Indexed (table : ResourceTable) (components : ComponentId → Finset ResourceId)
    (flows : FlowId → Finset ResourceId) : Prop where
  wellFormed : table.WellFormed
  components : Indexes table.iter componentKey components
  flows : Indexes table.iter flowKey flows

namespace Indexed

variable {table table' : ResourceTable} {components : ComponentId → Finset ResourceId}
  {flows : FlowId → Finset ResourceId} {handle : BufferHandle} {entry entry' : ResourceEntry}
  {id : ResourceId}

/-- A new resource is added to both indices. -/
theorem insert (h : Indexed table components flows) (hins : table.Inserted table' id entry) :
    Indexed table' (Index.add components entry.owner.componentId id)
      (Index.add flows (some entry.flowId) id) :=
  ⟨hins.wellFormed h.wellFormed, (h.components.add id entry).perm hins.live.symm,
    (h.flows.add id entry).perm hins.live.symm⟩

/-- A resource that leaves is dropped from both indices. -/
theorem remove (h : Indexed table components flows) (hrem : table.Removed table' handle entry) :
    Indexed table' (Index.remove components entry.owner.componentId handle.resourceId)
      (Index.remove flows (some entry.flowId) handle.resourceId) :=
  ⟨hrem.wellFormed h.wellFormed, (h.components.perm hrem.live).remove hrem.not_mem,
    (h.flows.perm hrem.live).remove hrem.not_mem⟩

/-- A resource that changes hands is moved in the component index. -/
theorem move (h : Indexed table components flows)
    (hrep : table.Replaced table' handle entry entry') (hflow : entry'.flowId = entry.flowId) :
    Indexed table'
      (Index.add (Index.remove components entry.owner.componentId handle.resourceId)
        entry'.owner.componentId handle.resourceId) flows := by
  obtain ⟨rest, hlive, hlive'⟩ := hrep.live
  have hid : handle.resourceId ∉ rest.map Prod.fst :=
    (List.nodup_cons.1 ((hlive.map Prod.fst).nodup_iff.1 table.nodup_iter)).1
  refine ⟨hrep.wellFormed h.wellFormed, ?_, ?_⟩
  · exact ((h.components.perm hlive).rekey hid entry').perm hlive'.symm
  · exact ((h.flows.perm hlive).congr_key (by simp only [flowKey, hflow])).perm hlive'.symm

/-- A resource that keeps its owner and its flow stays where it is. -/
theorem replace (h : Indexed table components flows)
    (hrep : table.Replaced table' handle entry entry') (howner : entry'.owner = entry.owner)
    (hflow : entry'.flowId = entry.flowId) : Indexed table' components flows := by
  obtain ⟨rest, hlive, hlive'⟩ := hrep.live
  refine ⟨hrep.wellFormed h.wellFormed, ?_, ?_⟩
  · exact ((h.components.perm hlive).congr_key (by simp only [componentKey, howner])).perm
      hlive'.symm
  · exact ((h.flows.perm hlive).congr_key (by simp only [flowKey, hflow])).perm hlive'.symm

/-- A listed resource is live. -/
theorem get_of_mem_components (h : Indexed table components flows) {c : ComponentId}
    (hid : id ∈ components c) : ∃ entry, table.get ⟨id⟩ = .ok entry ∧ entry.owner = .component c := by
  obtain ⟨entry, hentry, hkey⟩ := (h.components c id).1 hid
  exact ⟨entry, ResourceTable.get_eq_ok.2 hentry, OwnerId.componentId_eq_some.1 hkey⟩

theorem get_of_mem_flows (h : Indexed table components flows) {f : FlowId}
    (hid : id ∈ flows f) : ∃ entry, table.get ⟨id⟩ = .ok entry ∧ entry.flowId = f := by
  obtain ⟨entry, hentry, hkey⟩ := (h.flows f id).1 hid
  exact ⟨entry, ResourceTable.get_eq_ok.2 hentry, Option.some.inj hkey⟩

end Indexed

/-! ## Bulk reclaims -/

/-- During a forced reclaim the resources that are still to be reclaimed are out of the
index; put back, they complete it. -/
theorem forceReclaim_loop {c : ComponentId} {ids : List ResourceId} (hnodup : ids.Nodup)
    (reclaimed : List ResourceReclaimed) (hempty : m.componentResources c = ∅)
    (h : Indexed m.table (Function.update m.componentResources c ids.toFinset) m.flowResources) :
    let m' := (ids.foldl forceReclaimOne (m, reclaimed)).1
    Indexed m'.table m'.componentResources m'.flowResources := by
  induction ids generalizing m reclaimed with
  | nil =>
    rwa [List.toFinset_nil, ← hempty, Function.update_eq_self] at h
  | cons id rest ih =>
    obtain ⟨hid, hrest⟩ := List.nodup_cons.1 hnodup
    obtain ⟨entry, hget, howner⟩ := h.get_of_mem_components
      (by simp : id ∈ Function.update m.componentResources c (id :: rest).toFinset c)
    rcases forceReclaimOne_cases m reclaimed id with ⟨⟨e, he⟩, -⟩ | ⟨entry', table, hget', hrem, heq⟩
    · cases hget.symm.trans he
    · obtain rfl := Except.ok.inj (hget.symm.trans hget')
      rw [List.foldl_cons, heq]
      refine ih hrest _ hempty ?_
      have hremoved := h.remove hrem
      rwa [howner, List.toFinset_cons, OwnerId.componentId,
        Index.remove_update_insert (by simpa using hid)] at hremoved

/-- The same for the reclaim of a flow. -/
theorem reclaimFlow_loop {f : FlowId} {ids : List ResourceId} (hnodup : ids.Nodup)
    (stats : FlowResourceStats) (hempty : m.flowResources f = ∅)
    (h : Indexed m.table m.componentResources (Function.update m.flowResources f ids.toFinset)) :
    let m' := (ids.foldl reclaimFlowOne (m, stats)).1
    Indexed m'.table m'.componentResources m'.flowResources := by
  induction ids generalizing m stats with
  | nil =>
    rwa [List.toFinset_nil, ← hempty, Function.update_eq_self] at h
  | cons id rest ih =>
    obtain ⟨hid, hrest⟩ := List.nodup_cons.1 hnodup
    obtain ⟨entry, hget, hflow⟩ := h.get_of_mem_flows
      (by simp : id ∈ Function.update m.flowResources f (id :: rest).toFinset f)
    rcases reclaimFlowOne_cases m stats id with ⟨⟨e, he⟩, -⟩ | ⟨entry', table, hget', hrem, heq⟩
    · cases hget.symm.trans he
    · obtain rfl := Except.ok.inj (hget.symm.trans hget')
      rw [List.foldl_cons, heq]
      refine ih hrest _ hempty ?_
      have hremoved := h.remove hrem
      rwa [hflow, List.toFinset_cons, Index.remove_update_insert (by simpa using hid)] at hremoved

/-- The enumeration of a hash set has its elements. -/
theorem toFinset_order (hash : HashOrder) (ids : Finset ResourceId) :
    (hash.order ids).toFinset = ids := by
  ext id
  rw [List.mem_toFinset, hash.mem]

/-! ## Every operation -/

/-- The indices of a manager agree with its table. -/
def IndexedManager (m : ResourceManager) : Prop :=
  Indexed m.table m.componentResources m.flowResources

theorem IndexedManager.forceReclaim (h : IndexedManager m) (c : ComponentId) (hash : HashOrder) :
    IndexedManager (m.forceReclaim c hash).2 := by
  refine forceReclaim_loop
    (m := { m with componentResources := Function.update m.componentResources c ∅ })
    (hash.nodup _) [] (Function.update_self _ _ _) ?_
  simp only [toFinset_order, Function.update_idem, Function.update_eq_self]
  exact h

theorem IndexedManager.reclaimFlow (h : IndexedManager m) (f : FlowId) (hash : HashOrder) :
    IndexedManager (m.reclaimFlowBuffers f hash).2 := by
  refine reclaimFlow_loop
    (m := { m with flowResources := Function.update m.flowResources f ∅ })
    (hash.nodup _) {} (Function.update_self _ _ _) ?_
  simp only [toFinset_order, Function.update_idem, Function.update_eq_self]
  exact h

theorem IndexedManager.transition (h : IndexedManager m) {handle : BufferHandle}
    {change : BufferHandle → ResourceEntry → Except ResourceError ResourceEntry}
    (hchange : ∀ {entry entry'}, change handle entry = .ok entry' →
      SameResource entry entry' ∧ entry'.owner = entry.owner ∧
      entry'.payloadLen = entry.payloadLen) :
    IndexedManager (ResourceManager.transition change handle m).2 := by
  rcases transition_cases change handle m with ⟨e, heq⟩ | ⟨entry, entry', hget, hok, heq⟩
  · rw [heq]
    exact h
  · obtain ⟨hsame, howner, -⟩ := hchange hok
    rw [heq]
    exact h.replace (.of_put hget entry' hsame.generation) howner hsame.flowId

/-- Every operation keeps the indices in agreement with the table. -/
theorem IndexedManager.step (h : IndexedManager m) (op : Op) : IndexedManager (m.step op).2 := by
  cases op with
  | registerFlow flowId => exact h
  | registerComponent component maxOwnedBytes => exact h
  | allocate alloc owner n flowId =>
    have hcases := allocate_cases alloc owner n flowId m
    show IndexedManager (m.allocate alloc owner n flowId).2
    generalize m.allocate alloc owner n flowId = result at hcases ⊢
    cases hcases with
    | refused e => exact h
    | exhausted budgets e => exact h
    | rolledBack budgets e buffer pools heap => exact h
    | admitted budgets buffer pools heap id table _ _ _ hins => exact h.insert hins
  | release handle caller =>
    have hcases := release_cases handle caller m
    show IndexedManager (m.release handle caller).2
    generalize m.release handle caller = result at hcases ⊢
    cases hcases with
    | refused e => exact h
    | dropped entry table hget hcheck hrem => exact h.remove hrem
  | transferOwnership handle sender recipient =>
    have hcases := transfer_cases handle sender recipient m
    show IndexedManager (m.transferOwnership handle sender recipient).2
    generalize m.transferOwnership handle sender recipient = result at hcases ⊢
    cases hcases with
    | refused e => exact h
    | charged entry budgets e => exact h
    | moved entry budgets hget hbudgets hcheck =>
      exact h.move (.of_put hget { entry with owner := recipient } rfl) rfl
  | borrowStart handle borrower => exact h.transition borrowStart_same
  | borrowEnd handle borrower => exact h.transition borrowEnd_same
  | readPayload handle caller offset length flowId =>
    show IndexedManager (m.readPayload handle caller offset length flowId).2
    rcases read_cases handle caller offset length flowId m with ⟨e, heq⟩ | ⟨entry, -, -, heq⟩
    all_goals rw [heq]; exact h
  | writePayload handle caller offset data flowId =>
    show IndexedManager (m.writePayload handle caller offset data flowId).2
    rcases write_cases handle caller offset data flowId m with
      ⟨e, heq⟩ | ⟨entry, hget, -, -, -, heq⟩
    · rw [heq]
      exact h
    · rw [heq]
      exact h.replace (.of_put hget (writtenEntry entry _) rfl) rfl rfl
  | forceReclaim component hash => exact h.forceReclaim component hash
  | reclaimFlowBuffers flowId hash => exact h.reclaimFlow flowId hash
  | releaseFlowResources flowId hash => exact h.reclaimFlow flowId hash

end ResourceManager

namespace StartedManager

/-- In every state of a run the indices agree with the table. -/
theorem indexed_after (s : StartedManager) (ops : List ResourceManager.Op) :
    (s.after ops).IndexedManager := by
  refine s.after_invariant ?_ (fun m op h => h.step op) ops
  obtain ⟨-, hcomponents, hflows, -⟩ := s.manager_eq
  refine ⟨s.table_wellFormed, ?_, ?_⟩
  · rw [hcomponents, s.iter_manager]
    exact .nil
  · rw [hflows, s.iter_manager]
    exact .nil

/-- **The indices are exact**: after any sequence of operations, successful or not, a component
is listed with the live resources it owns, a flow with the live resources allocated for it,
and the length of the table is the number of live resources. -/
theorem indices_exact (s : StartedManager) (ops : List ResourceManager.Op) :
    let m := s.after ops
    (∀ c id, id ∈ m.componentResources c ↔
      ∃ entry, m.table.get ⟨id⟩ = .ok entry ∧ entry.owner = .component c) ∧
    (∀ f id, id ∈ m.flowResources f ↔
      ∃ entry, m.table.get ⟨id⟩ = .ok entry ∧ entry.flowId = f) ∧
    m.table.len = m.table.iter.length := by
  have h := s.indexed_after ops
  refine ⟨fun c id => ?_, fun f id => ?_, h.wellFormed.len⟩
  · simp only [ResourceTable.get_eq_ok, h.components c id, ResourceManager.componentKey,
      OwnerId.componentId_eq_some]
  · simp only [ResourceTable.get_eq_ok, h.flows f id, ResourceManager.flowKey, Option.some.injEq]

end StartedManager

end Torvyn
