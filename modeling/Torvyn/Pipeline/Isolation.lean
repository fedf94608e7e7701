/-
# Isolation of the flows of a host

The pipelines that `instantiate_pipeline` starts share one resource manager and one coordinator.
It numbers the components of each pipeline by the positions of their nodes, so components of
different flows have the same ids, and the coordinator reclaims by component id when it takes a
flow out.  A reap leaves the other flows alone exactly when no buffer of theirs has an owner
with one of these ids.
-/
import Torvyn.Pipeline.Instantiate
import Torvyn.Reactor.Retention

namespace Torvyn.Pipeline

open Reactor Reactor.Coordinator ResourceManager

/-! ## Pipelines on a host -/

/-- What `instantiate_pipeline` does to the host: each component is instantiated with an account
for its memory, in execution order, and then the flow is handed to the reactor. -/
def instantiatePipeline (t : PipelineTopology) (hash : HashOrder) : List Action :=
  (t.executionOrder.map fun nodeIdx =>
    .resource (.registerComponent (componentIdOf nodeIdx) none)) ++
    [.command (.spawnFlow (.defaultWithTopology (flowTopology t)) t.nodes.length) [] hash]

/-- The flows that the action starts are those of pipelines. -/
def OfPipelines : Action → Prop
  | .command (.spawnFlow config instances) _ _ =>
      ∃ t : PipelineTopology, config = .defaultWithTopology (flowTopology t) ∧
        instances = t.nodes.length
  | .command (.createFlow _) _ _ => False
  | _ => True

theorem ofPipelines_instantiatePipeline (t : PipelineTopology) (hash : HashOrder) :
    ∀ action ∈ instantiatePipeline t hash, OfPipelines action := by
  intro action haction
  rcases List.mem_append.mp haction with hregister | hspawn
  · obtain ⟨nodeIdx, -, rfl⟩ := List.mem_map.mp hregister
    trivial
  · rw [List.mem_singleton.mp hspawn]
    exact ⟨t, rfl, rfl⟩

/-- A run of a host on which pipelines are instantiated.  Their components use the resource
manager, their drivers take their rounds and their flows end in any order. -/
structure HostRun where
  manager : StartedManager
  actions : List Action
  final : Coordinator
  reached : (Coordinator.new manager.manager).run actions = some final
  ofPipelines : ∀ action ∈ actions, OfPipelines action

/-- The run of the coordinator. -/
def HostRun.toCoordinatorRun (ρ : HostRun) : CoordinatorRun where
  resources := ρ.manager.manager
  actions := ρ.actions
  final := ρ.final
  reached := ρ.reached

/-- The flows that are taken out. -/
def HostRun.reaps (ρ : HostRun) : List Reap := ρ.toCoordinatorRun.reaps

/-! ## What a reap does to the others -/

section Reaps

variable (reap : Reap)

/-- Another flow, started before the reap.  A component that allocates before its flow is
started does so under the id 0. -/
def IsOther (flowId : FlowId) : Prop :=
  flowId ≠ reap.flowId ∧ 0 < flowId.id ∧ flowId.id < reap.before.nextFlowId

/-- The bytes of the flow's own buffers that a component holds. -/
def ownBytes (component : ComponentId) : ℕ :=
  bytesOf component
    (reap.before.resources.table.iter.filter fun p => decide (p.2.flowId = reap.flowId))

/-- The buffers of other flows stay with their owners, and the account of an owner loses nothing
but what it holds of the flow itself. -/
structure LeavesOthers : Prop where
  kept : ∀ handle entry, reap.before.resources.table.get handle = .ok entry →
    IsOther reap entry.flowId → reap.after.resources.table.get handle = .ok entry
  budgets : ∀ handle entry component, reap.before.resources.table.get handle = .ok entry →
    IsOther reap entry.flowId → entry.owner = .component component →
    ReducedBy (ownBytes reap component) (reap.before.resources.budgets.budgets component)
      (reap.after.resources.budgets.budgets component)

/-- No buffer of another flow is owned by a component whose number is that of a node of the
flow. -/
def OwnersApart : Prop :=
  ∀ handle entry, reap.before.resources.table.get handle = .ok entry →
    IsOther reap entry.flowId → ∀ nodeIdx < reap.entry.componentIds.length,
      entry.owner ≠ .component (componentIdOf nodeIdx)

end Reaps

/-! ## The state of the host -/

theorem resources_evict (n : ℕ) (c : Coordinator) : (evict n c).resources = c.resources := by
  induction n generalizing c with
  | zero => rfl
  | succ n ih =>
      unfold evict
      split
      · split
        · rfl
        · exact ih _
      · rfl

/-- Taking a flow out leaves the resources to the reclamation. -/
theorem resources_take (c : Coordinator) (flowId : FlowId) (task : FlowTask)
    (outcome : FlowOutcome) : (c.take flowId task outcome).resources = c.resources :=
  resources_evict _ _

/-- The manager is reached by calls of its operations. -/
def Reaches (s : StartedManager) (m : ResourceManager) : Prop := ∃ ops, m = s.after ops

namespace Reaches

variable {s : StartedManager} {m : ResourceManager}

theorem start (s : StartedManager) : Reaches s s.manager := ⟨[], rfl⟩

theorem step (h : Reaches s m) (op : Op) : Reaches s (m.step op).2 := by
  obtain ⟨ops, rfl⟩ := h
  refine ⟨ops ++ [op], ?_⟩
  unfold StartedManager.after
  rw [ResourceManager.run_append]
  rfl

theorem reclaimComponents (components : List (ComponentId × HashOrder)) (h : Reaches s m) :
    Reaches s (reclaimComponents components m).2 := by
  induction components generalizing m with
  | nil => exact h
  | cons first components ih => exact ih (h.step (.forceReclaim first.1 first.2))

/-- Reclaiming a flow is a sequence of calls. -/
theorem reclaimFlowResources (flowId : FlowId) (components : List (ComponentId × HashOrder))
    (hash : HashOrder) (h : Reaches s m) :
    Reaches s (m.reclaimFlowResources flowId components hash).2 :=
  (h.reclaimComponents components).step (.reclaimFlowBuffers flowId hash)

end Reaches

/-- The components of a flow are those of a pipeline. -/
def Numbered (entry : FlowEntry) : Prop :=
  ∃ t : PipelineTopology, entry.componentIds = (List.range t.nodes.length).map componentIdOf

/-- What holds of the coordinator of a host at any time. -/
structure Hosting (s : StartedManager) (c : Coordinator) : Prop where
  resources : Reaches s c.resources
  flows : ∀ flowId entry, c.flows.lookup flowId = some entry → Numbered entry

/-- The stages of the flow are numbered like the nodes of the pipeline. -/
theorem componentIds_flowTopology (t : PipelineTopology) :
    (flowTopology t).stages.map (·.componentId) =
      (List.range t.nodes.length).map componentIdOf := by
  unfold flowTopology
  refine List.ext_getElem? fun idx => ?_
  simp only [List.getElem?_map, List.getElem?_zipIdx, Nat.zero_add,
    Option.map_map]
  by_cases hidx : idx < t.nodes.length
  · rw [List.getElem?_range hidx, List.getElem?_eq_getElem hidx]
    rfl
  · have hle := Nat.le_of_not_lt hidx
    rw [List.getElem?_eq_none hle, List.getElem?_eq_none (by rwa [List.length_range])]
    rfl

namespace Hosting

variable {s : StartedManager} {c : Coordinator}

theorem start (s : StartedManager) : Hosting s (.new s.manager) :=
  ⟨.start s, fun flowId entry h => by cases h⟩

/-- Tasks advance, and the components stay. -/
theorem mapFlow (h : Hosting s c) {flowId : FlowId} {f : FlowEntry → FlowEntry}
    (hsame : ∀ entry, (f entry).componentIds = entry.componentIds) {c' : Coordinator}
    (hresources : c'.resources = c.resources) (hflows : c'.flows = c.flows.modify flowId f) :
    Hosting s c' := by
  refine ⟨hresources ▸ h.resources, fun flowId' entry hlookup => ?_⟩
  rw [hflows, KeyMap.lookup_modify] at hlookup
  split at hlookup
  · obtain ⟨entry₀, hentry₀, rfl⟩ := Option.map_eq_some_iff.mp hlookup
    obtain ⟨t, ht⟩ := h.flows _ entry₀ hentry₀
    exact ⟨t, (hsame entry₀).trans ht⟩
  · exact h.flows flowId' entry hlookup

theorem withTask (h : Hosting s c) (flowId : FlowId) (task : FlowTask) :
    Hosting s (c.withTask flowId task) :=
  h.mapFlow (f := fun entry => { entry with task := task }) (fun _ => rfl) rfl rfl

theorem spawn (h : Hosting s c) (t : PipelineTopology) {instances : ℕ} {c' : Coordinator}
    {result : Except FlowCreationError FlowId}
    (hspawn : c.spawnFlowWithInstances (.defaultWithTopology (flowTopology t)) instances =
      some (result, c')) : Hosting s c' := by
  unfold spawnFlowWithInstances at hspawn
  split at hspawn
  · cases hspawn
    exact h
  · simp only at hspawn
    split at hspawn
    · cases hspawn
      exact h
    · obtain ⟨streams, -, heq⟩ := Option.map_eq_some_iff.mp hspawn
      cases heq
      refine ⟨h.resources.step (.registerFlow _), fun flowId entry hlookup => ?_⟩
      by_cases hnew : flowId = ⟨c.nextFlowId⟩
      · subst hnew
        have hentry : (c.flows.insert ⟨c.nextFlowId⟩ _).lookup ⟨c.nextFlowId⟩ = some entry := hlookup
        rw [AList.lookup_insert] at hentry
        obtain rfl := Option.some.inj hentry
        exact ⟨t, componentIds_flowTopology t⟩
      · have hentry : (c.flows.insert ⟨c.nextFlowId⟩ _).lookup flowId = some entry := hlookup
        rw [AList.lookup_insert_ne hnew] at hentry
        exact h.flows flowId entry hentry

theorem command (h : Hosting s c) {command : ReactorCommand} {order : List FlowId}
    {hash : HashOrder} (hpipelines : OfPipelines (.command command order hash))
    {reply : ReactorReply} {c' : Coordinator} (hcommand : c.handleCommand command = some (reply, c')) :
    Hosting s c' := by
  cases command with
  | createFlow config => cases hpipelines
  | spawnFlow config instances =>
      obtain ⟨t, rfl, -⟩ := hpipelines
      simp only [handleCommand] at hcommand
      split at hcommand
      · cases hcommand
        exact h
      · obtain ⟨⟨result, c₁⟩, hspawn, heq⟩ := Option.map_eq_some_iff.mp hcommand
        cases heq
        exact h.spawn t hspawn
  | cancelFlow flowId reason =>
      cases hcommand
      split
      · exact h.mapFlow (f := cancelEntry reason) (fun _ => rfl) rfl rfl
      · exact h
  | queryFlowState | queryFlowOutcome | listFlows | updatePriority =>
      cases hcommand
      exact h

theorem reapFlow (c : Coordinator) (hash : HashOrder) (flowId : FlowId) (h : Hosting s c) :
    Hosting s (c.reapFlow hash flowId) := by
  unfold Coordinator.reapFlow
  split
  · exact h
  · rename_i entry hlive
    split
    · exact h
    · rename_i result hresult
      obtain ⟨-, -, hflows, -, -⟩ := c.take_frame flowId entry.task (entry.task.outcomeOf result)
      refine ⟨?_, fun flowId' entry' hlookup => ?_⟩
      · have hsame : (c.take flowId entry.task (entry.task.outcomeOf result)).resources =
            c.resources := resources_take c flowId entry.task _
        show Reaches s (((c.take flowId entry.task
          (entry.task.outcomeOf result)).resources).reclaimFlowResources _ _ _).2
        rw [hsame]
        exact h.resources.reclaimFlowResources flowId _ hash
      · have hlookup' : (c.take flowId entry.task (entry.task.outcomeOf result)).flows.lookup
            flowId' = some entry' := hlookup
        rw [hflows] at hlookup'
        by_cases hsame : flowId' = flowId
        · rw [hsame, AList.lookup_erase] at hlookup'
          cases hlookup'
        · rw [AList.lookup_erase_ne hsame] at hlookup'
          exact h.flows flowId' entry' hlookup'

theorem reapCompletedFlows (h : Hosting s c) (order : List FlowId) (hash : HashOrder) :
    Hosting s (c.reapCompletedFlows order hash) := by
  unfold Coordinator.reapCompletedFlows
  induction c.completedIds order generalizing c with
  | nil => exact h
  | cons flowId ids ih => exact ih (reapFlow c hash flowId h)

/-- **Every action of the host keeps it.** -/
theorem step (h : Hosting s c) {action : Action} (hpipelines : OfPipelines action)
    {c' : Coordinator} (hstep : c.step action = some c') : Hosting s c' := by
  cases action with
  | command command order hash =>
      obtain ⟨⟨reply, c₁⟩, hcommand, rfl⟩ := Option.map_eq_some_iff.mp hstep
      exact (h.command hpipelines hcommand).reapCompletedFlows order hash
  | beginShutdown =>
      cases hstep
      refine ⟨h.resources, fun flowId entry hlookup => ?_⟩
      have hmapped : (c.flows.mapValues (cancelEntry .operatorRequest)).lookup flowId =
          some entry := hlookup
      rw [KeyMap.lookup_mapValues] at hmapped
      obtain ⟨entry₀, hentry₀, rfl⟩ := Option.map_eq_some_iff.mp hmapped
      exact h.flows flowId entry₀ hentry₀
  | pass order hash =>
      cases hstep
      exact h.reapCompletedFlows order hash
  | beginTask flowId now wallClock =>
      cases hstep
      unfold beginTask
      split
      · exact h.withTask _ _
      · exact h
  | round flowId r =>
      cases hstep
      unfold roundOf
      split
      · obtain ⟨hresources, hflows⟩ := h.withTask flowId (.driver _)
        exact ⟨hresources, hflows⟩
      · exact h
  | panic flowId message =>
      cases hstep
      unfold panicTask
      split
      · split
        · exact h
        · exact h.withTask _ _
      · exact h
  | resource op =>
      cases hstep
      exact ⟨h.resources.step op, h.flows⟩

end Hosting

theorem hosting_invariant (s : StartedManager) : ReapInvariant OfPipelines (Hosting s) where
  command hpipelines h hcommand := h.command hpipelines hcommand
  reap c hash flowId h := Hosting.reapFlow c hash flowId h
  step hpipelines h hstep := h.step hpipelines hstep

/-! ## One reap -/

/-- The resources after a reap are those that its reclamation leaves. -/
theorem resources_after (reap : Reap) : reap.after.resources =
    (reap.before.resources.reclaimFlowResources reap.flowId
      (reap.entry.componentIds.map fun component => (component, reap.hash)) reap.hash).2 := by
  have hsame := resources_take reap.before reap.flowId reap.entry.task reap.outcome
  unfold Reap.after Coordinator.reapFlow
  simp only [reap.live, reap.finished]
  show (ResourceManager.reclaimFlowResources _ _ _
    (reap.before.take reap.flowId reap.entry.task reap.outcome).resources).2 = _
  rw [hsame]

theorem bytesOf_perm (component : ComponentId) {live live' : List (ResourceId × ResourceEntry)}
    (h : live.Perm live') : bytesOf component live = bytesOf component live' :=
  ((h.filter _).map _).sum_eq

/-- What is left of the flow after the first sweep is what it has of its own, as far as the
owner is not one of the components. -/
theorem ownBytes_eq {reap : Reap} {components : List ComponentId} {component : ComponentId}
    (hc : component ∉ components) {owned rest : List (ResourceId × ResourceEntry)}
    {m' : ResourceManager} (hswept : Swept reap.before.resources (owned ++ rest) m')
    (howned : ∀ p, p ∈ owned ↔ p ∈ reap.before.resources.table.iter ∧ OwnedBy components p.2)
    (hrest : ∀ p, p ∈ rest ↔ (p ∈ reap.before.resources.table.iter ∧ ¬OwnedBy components p.2) ∧
      p.2.flowId = reap.flowId) : ownBytes reap component = bytesOf component rest := by
  have hown : (owned.filter fun p => decide (p.2.flowId = reap.flowId)).Sublist owned :=
    List.filter_sublist
  have hnone : bytesOf component (owned.filter fun p => decide (p.2.flowId = reap.flowId)) = 0 :=
    bytesOf_eq_zero hc fun p hp => ((howned p).mp (hown.subset hp)).2
  have hall : (rest.filter fun p => decide (p.2.flowId = reap.flowId)) = rest :=
    List.filter_eq_self.mpr fun p hp => decide_eq_true ((hrest p).mp hp).2
  -- what stays and belongs to the flow has been swept with the components
  have hgone : (m'.table.iter.filter fun p => decide (p.2.flowId = reap.flowId)) = [] := by
    refine List.filter_eq_nil_iff.mpr fun p hp hflow => ?_
    obtain ⟨hlive, hnot⟩ := hswept.mem_iff.mp hp
    by_cases howner : OwnedBy components p.2
    · exact hnot (List.mem_append_left _ ((howned p).mpr ⟨hlive, howner⟩))
    · exact hnot (List.mem_append_right _ ((hrest p).mpr
        ⟨⟨hlive, howner⟩, of_decide_eq_true hflow⟩))
  unfold ownBytes
  rw [bytesOf_perm component (hswept.live.filter _), List.filter_append, List.filter_append,
    bytesOf_append, bytesOf_append, hnone, hall, hgone, Nat.zero_add]
  rfl

/-- The owner is one of the components of the flow when it has the number of a node. -/
theorem ownedBy_iff {reap : Reap} (hnumbered : Numbered reap.entry) {entry : ResourceEntry} :
    OwnedBy reap.entry.componentIds entry ↔
      ∃ nodeIdx < reap.entry.componentIds.length,
        entry.owner = .component (componentIdOf nodeIdx) := by
  obtain ⟨t, ht⟩ := hnumbered
  unfold OwnedBy
  rw [ht, List.length_map, List.length_range]
  constructor
  · rintro ⟨component, hmem, howner⟩
    obtain ⟨nodeIdx, hidx, rfl⟩ := List.mem_map.mp hmem
    exact ⟨nodeIdx, List.mem_range.mp hidx, howner⟩
  · rintro ⟨nodeIdx, hidx, howner⟩
    exact ⟨_, List.mem_map_of_mem (List.mem_range.mpr hidx), howner⟩

/-- What a reap removes: what the components own, and what else belongs to the flow. -/
theorem Hosting.reap_spec {s : StartedManager} {reap : Reap} (h : Hosting s reap.before) :
    ∃ owned rest, Swept reap.before.resources (owned ++ rest) reap.after.resources ∧
      (∀ p, p ∈ owned ↔ p ∈ reap.before.resources.table.iter ∧
        OwnedBy reap.entry.componentIds p.2) ∧
      (∀ p, p ∈ rest ↔ (p ∈ reap.before.resources.table.iter ∧
        ¬OwnedBy reap.entry.componentIds p.2) ∧ p.2.flowId = reap.flowId) ∧
      ∀ c, c ∉ reap.entry.componentIds →
        ReducedBy (bytesOf c rest) (reap.before.resources.budgets.budgets c)
          (reap.after.resources.budgets.budgets c) := by
  obtain ⟨ops, hops⟩ := h.resources
  have hindexed : IndexedManager reap.before.resources := hops ▸ s.indexed_after ops
  have hrange : CountersInRange reap.before.resources.budgets :=
    hops ▸ s.countersInRange_after ops
  have hstored : StoredManager s.slots reap.before.resources := hops ▸ s.stored_after ops
  obtain ⟨owned, rest, hswept, -, howned, hrest, -, hbudgets⟩ :=
    hindexed.reclaimFlowResources_spec hrange (StoredManager.capacity_le hstored) reap.flowId
      (reap.entry.componentIds.map fun component => (component, reap.hash)) reap.hash
  have hcomponents : (reap.entry.componentIds.map fun component => (component, reap.hash)).map
      Prod.fst = reap.entry.componentIds := by
    rw [List.map_map]
    exact List.map_id _
  rw [hcomponents] at howned hrest hbudgets
  rw [← resources_after] at hswept hbudgets
  exact ⟨owned, rest, hswept, howned, hrest, hbudgets⟩

/-- A buffer whose owner has the number of a node goes with the components. -/
theorem Hosting.not_kept {s : StartedManager} {reap : Reap} (h : Hosting s reap.before)
    {handle : BufferHandle} {entry : ResourceEntry}
    (hget : reap.before.resources.table.get handle = .ok entry) {nodeIdx : ℕ}
    (hidx : nodeIdx < reap.entry.componentIds.length)
    (howner : entry.owner = .component (componentIdOf nodeIdx)) :
    reap.after.resources.table.get handle ≠ .ok entry := by
  obtain ⟨owned, rest, hswept, howned, -, -⟩ := h.reap_spec
  intro hkept
  refine (hswept.mem_iff.mp (ResourceTable.get_eq_ok.mp hkept)).2 (List.mem_append_left _ ?_)
  refine (howned _).mpr ⟨ResourceTable.get_eq_ok.mp hget, ?_⟩
  exact (ownedBy_iff (h.flows reap.flowId reap.entry reap.live)).mpr ⟨nodeIdx, hidx, howner⟩

/-- **One reap**: the other flows are left alone exactly when the owners are apart. -/
theorem leavesOthers_iff {s : StartedManager} {reap : Reap} (h : Hosting s reap.before) :
    LeavesOthers reap ↔ OwnersApart reap := by
  constructor
  · intro hleaves handle entry hget hother nodeIdx hidx howner
    exact h.not_kept hget hidx howner (hleaves.kept handle entry hget hother)
  · intro hapart
    obtain ⟨owned, rest, hswept, howned, hrest, hbudgets⟩ := h.reap_spec
    have hnot : ∀ handle entry, reap.before.resources.table.get handle = .ok entry →
        IsOther reap entry.flowId → ¬OwnedBy reap.entry.componentIds entry := by
      intro handle entry hget hother howner
      obtain ⟨nodeIdx, hidx, heq⟩ :=
        (ownedBy_iff (h.flows reap.flowId reap.entry reap.live)).mp howner
      exact hapart handle entry hget hother nodeIdx hidx heq
    refine ⟨fun handle entry hget hother => ?_, fun handle entry component hget hother howner => ?_⟩
    · refine ResourceTable.get_eq_ok.mpr (hswept.mem_iff.mpr
        ⟨ResourceTable.get_eq_ok.mp hget, fun hremoved => ?_⟩)
      rcases List.mem_append.mp hremoved with hfirst | hsecond
      · exact hnot handle entry hget hother ((howned _).mp hfirst).2
      · exact hother.1 ((hrest _).mp hsecond).2
    · have hc : component ∉ reap.entry.componentIds := fun hmem =>
        hnot handle entry hget hother ⟨component, hmem, howner⟩
      rw [ownBytes_eq hc hswept howned hrest]
      exact hbudgets component hc

/-- **Isolation of flows**: in a run of a host, a flow that is reaped has the components of a
pipeline and leaves the other flows alone exactly when their owners are apart; in the whole run
all reaps do exactly when the owners are always apart. -/
theorem flow_isolation_iff (ρ : HostRun) :
    (∀ reap ∈ ρ.reaps, Numbered reap.entry ∧ (LeavesOthers reap ↔ OwnersApart reap)) ∧
      ((∀ reap ∈ ρ.reaps, LeavesOthers reap) ↔ ∀ reap ∈ ρ.reaps, OwnersApart reap) := by
  have hhosting : ∀ reap ∈ ρ.reaps, Hosting ρ.manager reap.before :=
    (hosting_invariant ρ.manager).reapsOfRun (.start ρ.manager) ρ.ofPipelines
  refine ⟨fun reap hreap => ⟨?_, leavesOthers_iff (hhosting reap hreap)⟩,
    fun h reap hreap => ?_, fun h reap hreap => ?_⟩
  · exact (hhosting reap hreap).flows reap.flowId reap.entry reap.live
  · exact (leavesOthers_iff (hhosting reap hreap)).mp (h reap hreap)
  · exact (leavesOthers_iff (hhosting reap hreap)).mpr (h reap hreap)

/-! ## Two flows with the same numbers -/

/-- A source and a sink. -/
def pairCalls : List BuilderCall :=
  [.addNode "a" .source "mock://a", .addNode "b" .sink "mock://b",
    .addEdge "a" "output" "b" "input"]

/-- The pipeline that is built of them. -/
def pairTopology : PipelineTopology :=
  ((PipelineTopologyBuilder.ofCalls "main" pairCalls).build givenOrder).toOption.getD
    ⟨"main", "", [], ∅, [], []⟩

theorem pairTopology_built :
    (PipelineTopologyBuilder.ofCalls "main" pairCalls).build givenOrder = .ok pairTopology := by
  rfl

/-- Two buffers of 256 bytes, and accounts of 1 KiB. -/
def twoBuffers : ResourceManagerConfig where
  tableCapacity := 2
  poolConfigs
    | .small => ⟨.small, 2, true⟩
    | tier => ⟨tier, 0, false⟩
  defaultBudgetBytes := 1024

def startedTwoBuffers : StartedManager where
  alloc := .bump
  config := twoBuffers
  manager := (ResourceManager.new .bump twoBuffers).getD
    ⟨.new 0, fun _ => ∅, fun _ => ∅, fun _ => ⟨[], 0⟩, .empty, .new 0, .new⟩
  started := by rfl

/-- The sources of two flows allocate a buffer each; the first flow is cancelled, and ends. -/
noncomputable def twoFlows : List Action :=
  instantiatePipeline pairTopology default ++ instantiatePipeline pairTopology default ++
    [.resource (.allocate .bump (.component ⟨1⟩) 10 ⟨1⟩),
      .resource (.allocate .bump (.component ⟨1⟩) 10 ⟨2⟩)] ++
    shortLife 1

theorem ofPipelines_twoFlows : ∀ action ∈ twoFlows, OfPipelines action := by
  intro action haction
  unfold twoFlows at haction
  simp only [List.mem_append] at haction
  rcases haction with ((hfirst | hsecond) | hallocate) | hlife
  · exact ofPipelines_instantiatePipeline _ _ action hfirst
  · exact ofPipelines_instantiatePipeline _ _ action hsecond
  · rcases List.mem_pair.mp hallocate with rfl | rfl
    all_goals trivial
  · simp only [shortLife, List.mem_cons, List.not_mem_nil, or_false] at hlife
    rcases hlife with rfl | rfl | rfl | rfl | rfl
    all_goals trivial

set_option maxRecDepth 100000 in
theorem twoFlows_reached :
    ((Coordinator.new startedTwoBuffers.manager).run twoFlows).isSome := by
  decide

noncomputable def twoFlowsRun : HostRun where
  manager := startedTwoBuffers
  actions := twoFlows
  final := ((Coordinator.new startedTwoBuffers.manager).run twoFlows).get twoFlows_reached
  reached := (Option.some_get _).symm
  ofPipelines := ofPipelines_twoFlows

/-- The buffer of the second flow has the owner whose number the first flow gives its source. -/
def endangered (reap : Reap) : Bool :=
  match reap.before.resources.table.get ⟨⟨1, 1⟩⟩ with
  | .ok entry => decide (reap.flowId = ⟨1⟩) && decide (entry.flowId = ⟨2⟩) &&
      decide (entry.owner = .component ⟨1⟩) && decide (reap.entry.componentIds.length = 2) &&
      decide (reap.before.nextFlowId = 3)
  | .error _ => false

set_option maxRecDepth 100000 in
theorem twoFlows_endangered : (twoFlowsRun.reaps.any endangered) = true := by
  decide

/-- The reap of the first flow takes the buffer of the second with it. -/
theorem buffer_of_other_flow_reclaimed : ∃ (ρ : HostRun) (reap : Reap) (entry : ResourceEntry),
    reap ∈ ρ.reaps ∧ reap.flowId = ⟨1⟩ ∧ entry.flowId = ⟨2⟩ ∧
      reap.before.resources.table.get ⟨⟨1, 1⟩⟩ = .ok entry ∧
      reap.after.resources.table.get ⟨⟨1, 1⟩⟩ ≠ .ok entry ∧ ¬LeavesOthers reap := by
  obtain ⟨reap, hreap, hendangered⟩ := List.any_eq_true.mp twoFlows_endangered
  unfold endangered at hendangered
  cases hget : reap.before.resources.table.get ⟨⟨1, 1⟩⟩ with
  | error e =>
      rw [hget] at hendangered
      cases hendangered
  | ok entry =>
      rw [hget] at hendangered
      simp only [Bool.and_eq_true, decide_eq_true_eq] at hendangered
      obtain ⟨⟨⟨⟨hflow, hother⟩, howner⟩, hlength⟩, hnext⟩ := hendangered
      have hhosting : Hosting startedTwoBuffers reap.before :=
        (hosting_invariant startedTwoBuffers).reapsOfRun (.start _) twoFlowsRun.ofPipelines reap
          hreap
      have hisOther : IsOther reap entry.flowId := by
        refine ⟨?_, ?_, ?_⟩
        · rw [hflow, hother]
          decide
        · rw [hother]
          decide
        · rw [hother, hnext]
          decide
      have hgone := @Hosting.not_kept _ _ hhosting _ _ hget 0 (by omega) howner
      exact ⟨twoFlowsRun, reap, entry, hreap, hflow, hother, hget, hgone,
        fun h => hgone (h.kept _ entry hget hisOther)⟩

end Torvyn.Pipeline
